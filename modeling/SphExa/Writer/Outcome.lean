import SphExa.Writer.Completion

/-!
# Where every run of the MPI writer ends

Whatever the interleaving and whichever writes fail, every run of the writer on which no rank
can move any more ends in one world, fixed by the first rank whose write fails. With no failure every rank has returned and the file has seen each rank's
open, write and close in rank order. With a first failure at rank `f`, rank `f` has left by the
exception right after opening the file, every other rank waits in the barrier of turn `f`, and
the file has seen ranks `0` to `f - 1` in full, then rank `f`'s open.
-/

namespace SphExa.Writer

/-- No rank can move. -/
def Finished (fileOpens : Nat → Bool) (w : World) : Prop :=
  ∀ r, step fileOpens w r = none

/-- The first rank whose write fails. -/
def firstFailure (fileOpens : Nat → Bool) (nrank : Nat) : Option Nat :=
  (List.range nrank).find? fun r => !fileOpens r

/-- The world every finished run ends in. -/
def finalWorld (fileOpens : Nat → Bool) (nrank : Nat) : World :=
  match firstFailure fileOpens nrank with
  | none => ⟨List.replicate nrank .returned, false⟩
  | some f => ⟨(List.range nrank).map fun r => if r = f then .escaped f else .waiting f, false⟩

/-- The file operations of every finished run. -/
def finalFileOps (fileOpens : Nat → Bool) (nrank : Nat) : List Event :=
  match firstFailure fileOpens nrank with
  | none => serialFileOps nrank
  | some f => serialFileOps f ++ [.openFile f (f == 0)]

section FinalWorld

variable {fileOpens : Nat → Bool} {nrank : Nat}

theorem firstFailure_eq_none : firstFailure fileOpens nrank = none ↔ ∀ r < nrank, fileOpens r = true := by
  simp [firstFailure]

theorem firstFailure_eq_some {f : Nat} :
    firstFailure fileOpens nrank = some f ↔
      fileOpens f = false ∧ f < nrank ∧ ∀ r < f, fileOpens r = true := by
  simp [firstFailure]

@[simp] theorem nrank_finalWorld : (finalWorld fileOpens nrank).nrank = nrank := by
  unfold finalWorld; split <;> simp [World.nrank]

@[simp] theorem aborted_finalWorld : (finalWorld fileOpens nrank).aborted = false := by
  unfold finalWorld; split <;> rfl

theorem pc_finalWorld_of_none (h : firstFailure fileOpens nrank = none) {r : Nat}
    (hr : r < nrank) : (finalWorld fileOpens nrank).pc r = .returned := by
  simp [finalWorld, h, World.pc, hr]

theorem pc_finalWorld_of_some {f : Nat} (h : firstFailure fileOpens nrank = some f) {r : Nat}
    (hr : r < nrank) :
    (finalWorld fileOpens nrank).pc r = if r = f then .escaped f else .waiting f := by
  simp [finalWorld, h, World.pc, hr]

end FinalWorld

/-- Two worlds on as many ranks agree once the abort flag and every rank's position do. -/
theorem World.ext_pc {w w' : World} (hn : w.nrank = w'.nrank) (ha : w.aborted = w'.aborted)
    (hpc : ∀ r < w.nrank, w.pc r = w'.pc r) : w = w' := by
  obtain ⟨ranks, aborted⟩ := w
  obtain ⟨ranks', aborted'⟩ := w'
  cases ha
  congr 1
  refine List.ext_getElem hn fun r h1 h2 => ?_
  simpa [World.pc, h1, h2] using hpc r h1

/-- Blocks equal to `h` below `f`, then `x` at `f`, then empty: the blocks of `h` below `f`
followed by `x`. -/
theorem flatMap_range_eq_append {β : Type} {g h : Nat → List β} {f : Nat} (x : List β)
    (hlo : ∀ r < f, g r = h r) (hf : g f = x) :
    ∀ n, f < n → (∀ r, f < r → r < n → g r = []) →
      (List.range n).flatMap g = (List.range f).flatMap h ++ x
  | 0, hn, _ => absurd hn (Nat.not_lt_zero f)
  | m + 1, hn, hhi => by
    rw [List.range_succ, List.flatMap_append]
    by_cases hm : m = f
    · subst hm
      simp [List.flatMap_congr fun r hr => hlo r (List.mem_range.mp hr), hf]
    · rw [flatMap_range_eq_append x hlo hf m (by omega) fun r hr hrm => hhi r hr (by omega)]
      simp [hhi m (by omega) (Nat.lt_succ_self m)]

/-- The file operations a world's ranks have done, in the world every finished run ends in. -/
theorem fileLog_finalWorld (fileOpens : Nat → Bool) (nrank : Nat) :
    fileLog nrank (finalWorld fileOpens nrank) = finalFileOps fileOpens nrank := by
  cases hff : firstFailure fileOpens nrank with
  | none =>
    rw [finalFileOps, hff, fileLog, serialFileOps]
    refine List.flatMap_congr fun r hr => ?_
    rw [pc_finalWorld_of_none hff (List.mem_range.mp hr)]
    rfl
  | some f =>
    obtain ⟨-, hfn, -⟩ := firstFailure_eq_some.1 hff
    rw [finalFileOps, hff, fileLog]
    refine flatMap_range_eq_append _ (fun r hr => ?_) ?_ nrank hfn fun r hr hrn => ?_
    · rw [pc_finalWorld_of_some hff (by omega), if_neg (by omega)]
      simp [Pc.fileOps, hr.le, fileTurn]
    · rw [pc_finalWorld_of_some hff hfn, if_pos rfl]
      rfl
    · rw [pc_finalWorld_of_some hff hrn, if_neg (by omega)]
      simp [Pc.fileOps, Nat.not_le.2 hr]

section Finished

variable {fileOpens : Nat → Bool} {nrank : Nat} {w : World}

/-- A rank left by an exception left in its own turn. -/
theorem Inv.escaped_turn (hinv : Inv fileOpens nrank w) {r t : Nat} (hr : r < nrank)
    (h : w.pc r = .escaped t) : t = r := by
  have hok := hinv.pcOk r hr
  rw [h] at hok
  exact hok.1

/-- Two ranks left by an exception are one rank: the later would be past a barrier the earlier
never entered. -/
theorem Inv.escaped_unique (hinv : Inv fileOpens nrank w) {a b : Nat} (ha : a < nrank)
    (hb : b < nrank) (hpa : w.pc a = .escaped a) (hpb : w.pc b = .escaped b) : a = b := by
  have h1 := hinv.sync a ha b hb
  have h2 := hinv.sync b hb a ha
  rw [hpa, hpb, Pc.turn, Pc.entered] at h1 h2
  omega

/-- In a finished world a rank has returned, has left by an exception in its own turn, or waits
in a barrier that some rank has not entered. -/
theorem Inv.finished_cases (hinv : Inv fileOpens nrank w) (hfin : Finished fileOpens w) {r : Nat}
    (hr : r < nrank) :
    w.pc r = .returned ∨ w.pc r = .escaped r ∨
      ∃ t < nrank, w.pc r = .waiting t ∧ ∃ r' < nrank, (w.pc r').entered nrank ≤ t := by
  rcases step_eq_none_cases (hfin r) hinv.not_aborted (hinv.nrank_eq ▸ hr) with
    h | ⟨t, h⟩ | ⟨t, h, r', hr', hlt⟩
  · exact .inl h
  · exact .inr (.inl (hinv.escaped_turn hr h ▸ h))
  · have hok := hinv.pcOk r hr
    rw [h] at hok
    rw [hinv.nrank_eq] at hr' hlt
    exact .inr (.inr ⟨t, hok, h, r', hr', by omega⟩)

/-- In a finished reachable world every waiting rank waits in the barrier of turn `t` for rank
`t`, which has left by an exception: the lowest waiting turn is held up by a rank that never
enters its barrier, and no rank is past that rank's barrier. -/
theorem Inv.escaped_of_waiting (hinv : Inv fileOpens nrank w) (hfin : Finished fileOpens w)
    {r t : Nat} (hr : r < nrank) (ht : w.pc r = .waiting t) : w.pc t = .escaped t := by
  classical
  have hex : ∃ t, ∃ r < nrank, w.pc r = .waiting t := ⟨t, r, hr, ht⟩
  obtain ⟨r₀, hr₀, ht₀⟩ := Nat.find_spec hex
  have hlow : w.pc (Nat.find hex) = .escaped (Nat.find hex) := by
    rcases hinv.finished_cases hfin hr₀ with h | h | ⟨t', ht'n, h, r', hr', hle⟩
    · rw [ht₀] at h; cases h
    · rw [ht₀] at h; cases h
    obtain rfl : t' = Nat.find hex := by rw [ht₀] at h; exact (Pc.waiting.inj h).symm
    have hsync := hinv.sync r₀ hr₀ r' hr'
    rw [ht₀, Pc.turn] at hsync
    rcases hinv.finished_cases hfin hr' with h' | h' | ⟨t'', -, h', -⟩
    · rw [h', Pc.entered] at hle; omega
    · rw [h', Pc.entered] at hle hsync
      obtain rfl : r' = Nat.find hex := by omega
      exact h'
    · rw [h', Pc.entered] at hle
      exact absurd ⟨r', hr', h'⟩ (Nat.find_min hex (by omega))
  have hsync := hinv.sync r hr (Nat.find hex) (lt_of_le_of_lt (Nat.find_min' hex ⟨r, hr, ht⟩)
    (by have hok := hinv.pcOk r hr; rw [ht] at hok; exact hok))
  rw [ht, hlow, Pc.turn, Pc.entered] at hsync
  obtain rfl : t = Nat.find hex := le_antisymm hsync (Nat.find_min' hex ⟨r, hr, ht⟩)
  exact hlow

end Finished

/-- Every finished run ends in `finalWorld`: with no failing write every rank has returned;
otherwise the first failing rank has left by its exception and every other rank waits for it. -/
theorem Run.finished_eq_finalWorld {fileOpens : Nat → Bool} {nrank : Nat} {tr : List Event}
    {w : World} (hrun : Run fileOpens nrank tr w) (hfin : Finished fileOpens w) :
    w = finalWorld fileOpens nrank := by
  have hinv := hrun.inv
  refine World.ext_pc (by simp [hinv.nrank_eq]) (by simp [hinv.not_aborted]) fun r hr => ?_
  rw [hinv.nrank_eq] at hr
  have hesc : ∀ e < nrank, w.pc e = .escaped e → fileOpens e = false :=
    fun e he h => hinv.escaped e he e h
  cases hff : firstFailure fileOpens nrank with
  | none =>
    have hall := firstFailure_eq_none.1 hff
    rw [pc_finalWorld_of_none hff hr]
    rcases hinv.finished_cases hfin hr with h | h | ⟨t, ht, h, -⟩
    · exact h
    · simpa [hall r hr] using hesc r hr h
    · simpa [hall t ht] using hesc t ht (hinv.escaped_of_waiting hfin hr h)
  | some f =>
    obtain ⟨hf, hfn, hbelow⟩ := firstFailure_eq_some.1 hff
    have hfailed := hrun.pcFailed hfn hf
    have hfpc : w.pc f = .escaped f := by
      rcases hinv.finished_cases hfin hfn with h | h | ⟨t, ht, h, -⟩
      · rw [h] at hfailed; exact hfailed.elim
      · exact h
      · rw [h] at hfailed
        simpa [hbelow t hfailed] using hesc t ht (hinv.escaped_of_waiting hfin hfn h)
    rw [pc_finalWorld_of_some hff hr]
    split
    · subst r; exact hfpc
    · rcases hinv.finished_cases hfin hr with h | h | ⟨t, ht, h, -⟩
      · have hsync := hinv.sync r hr f hfn
        rw [h, hfpc, Pc.turn, Pc.entered] at hsync
        omega
      · exact absurd (hinv.escaped_unique hr hfn h hfpc) ‹_›
      · rw [h, hinv.escaped_unique ht hfn (hinv.escaped_of_waiting hfin hr h) hfpc]

/-- Whatever the interleaving, every run of `SqPatchMPIFileWriter::dumpParticleDataToAsciiFile`
on which no rank can move ends in the same world `finalWorld`, fixed by the first rank `f` whose
write fails: with none, every rank has returned, the file has seen each rank's open, write and
close in rank order, and each rank has entered the barriers of all turns; otherwise rank `f` has
left by its exception after opening the file, the file has seen ranks `0` to `f - 1` in full and
then rank `f`'s open, and every other rank waits in the barrier of turn `f` after entering those
of turns `0` to `f`. -/
theorem dumpParticleDataToAsciiFile_outcome {fileOpens : Nat → Bool} {nrank : Nat}
    {tr : List Event} {w : World} (hrun : Run fileOpens nrank tr w)
    (hfin : Finished fileOpens w) :
    w = finalWorld fileOpens nrank ∧ tr.filter Event.onFile = finalFileOps fileOpens nrank ∧
      ∀ r < nrank,
        barrierTurns r tr = List.range (((finalWorld fileOpens nrank).pc r).entered nrank) := by
  have hw := hrun.finished_eq_finalWorld hfin
  refine ⟨hw, ?_, fun r hr => ?_⟩
  · rw [hrun.filter_onFile, hw, fileLog_finalWorld]
  · rw [hrun.barrierTurns_eq r hr, hw]

/-- Three ranks, the file not opening on rank 1: rank 0 writes, every rank passes the first
barrier, ranks 0 and 2 enter the second, and rank 1's write raises. -/
def middleFailureEvents : List Event :=
  [.openFile 0 true, .write 0, .close 0, .enterBarrier 0 0, .enterBarrier 1 0,
    .enterBarrier 2 0, .leaveBarrier 0 0, .leaveBarrier 1 0, .leaveBarrier 2 0,
    .enterBarrier 0 1, .enterBarrier 2 1, .openFile 1 false, .escape 1 .fileNotOpened]

/-- That run is finished, in the world and with the file operations the outcome names. -/
theorem middleFailure_outcome :
    Run (fun r => r != 1) 3 middleFailureEvents ⟨[.waiting 1, .escaped 1, .waiting 1], false⟩ ∧
    Finished (fun r => r != 1) ⟨[.waiting 1, .escaped 1, .waiting 1], false⟩ ∧
    (World.mk [.waiting 1, .escaped 1, .waiting 1] false = finalWorld (fun r => r != 1) 3 ∧
      middleFailureEvents.filter Event.onFile = finalFileOps (fun r => r != 1) 3 ∧
      ∀ r < 3, barrierTurns r middleFailureEvents =
        List.range (((finalWorld (fun r => r != 1) 3).pc r).entered 3)) := by
  have hsched : runSchedule (fun r => r != 1) (World.init 3)
      [0, 0, 0, 0, 1, 2, 0, 1, 2, 0, 2, 1, 1] =
      some (middleFailureEvents, ⟨[.waiting 1, .escaped 1, .waiting 1], false⟩) := rfl
  have hrun : Run (fun r => r != 1) 3 middleFailureEvents
      ⟨[.waiting 1, .escaped 1, .waiting 1], false⟩ := by
    simpa using Run.append_runSchedule _ Run.init hsched
  have hfin : Finished (fun r => r != 1) ⟨[.waiting 1, .escaped 1, .waiting 1], false⟩
    | 0 => rfl
    | 1 => rfl
    | 2 => rfl
    | r + 3 => by simp [step, World.nrank]
  exact ⟨hrun, hfin, dumpParticleDataToAsciiFile_outcome hrun hfin⟩

end SphExa.Writer
