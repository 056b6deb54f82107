import SphExa.Writer.Serial

/-!
# How runs of the MPI writer end

Every step spends one unit of a per-rank budget, so every run is finite. When
every write finds the file, a world where no rank can move has every rank
returned: the rank waiting in the lowest barrier can always leave it. When one
rank's write fails, its exception passes the `catch` for
`MPIFileNotOpenedException`: that rank leaves the loop and the others wait for
it in a barrier it never enters, and `MPI_Abort` is never called.
-/

namespace SphExa.Writer

/-! ## Termination -/

/-- A rank that cannot move has returned, has left by an exception, or waits in a barrier
some rank has not entered. -/
theorem step_eq_none_cases {fileOpens : Nat → Bool} {w : World} {r : Nat}
    (h : step fileOpens w r = none) (ha : w.aborted = false) (hr : r < w.nrank) :
    w.pc r = .returned ∨ (∃ t, w.pc r = .escaped t) ∨
      ∃ t, w.pc r = .waiting t ∧ ∃ r' < w.nrank, (w.pc r').entered w.nrank < t + 1 := by
  have hg : (w.aborted || w.nrank ≤ r) = false := by simp [ha, hr]
  unfold step at h
  simp only [hg, Bool.false_eq_true, if_false] at h
  cases hpc : w.pc r with
  | loop t => simp only [hpc] at h; split_ifs at h
  | opened t =>
    simp only [hpc, writeParticleDataToAsciiFile] at h
    cases hf : fileOpens r <;> simp [hf] at h
  | written t => simp [hpc] at h
  | closed t => simp [hpc] at h
  | waiting t =>
    simp only [hpc, ite_eq_right_iff, reduceCtorEq, imp_false] at h
    simpa using h
  | returned => exact .inl rfl
  | escaped t => exact .inr (.inl ⟨t, rfl⟩)

/-- Run the ranks in the order a schedule names them. -/
def runSchedule (fileOpens : Nat → Bool) : World → List Nat → Option (List Event × World)
  | w, [] => some ([], w)
  | w, r :: rs =>
    match step fileOpens w r with
    | none => none
    | some (e, w') =>
      match runSchedule fileOpens w' rs with
      | none => none
      | some (tr, w'') => some (e :: tr, w'')

/-- A schedule run from a reachable world extends the run. -/
theorem Run.append_runSchedule {fileOpens : Nat → Bool} {nrank : Nat} :
    ∀ {tr : List Event} {w : World} (rs : List Nat) {tr' : List Event} {w' : World},
      Run fileOpens nrank tr w → runSchedule fileOpens w rs = some (tr', w') →
      Run fileOpens nrank (tr ++ tr') w'
  | tr, w, [], tr', w', hrun, h => by
    simp only [runSchedule, Option.some.injEq, Prod.mk.injEq] at h
    obtain ⟨rfl, rfl⟩ := h
    simpa using hrun
  | tr, w, r :: rs, tr', w', hrun, h => by
    cases hs : step fileOpens w r with
    | none => simp [runSchedule, hs] at h
    | some ew =>
      obtain ⟨e, w₁⟩ := ew
      cases hr : runSchedule fileOpens w₁ rs with
      | none => simp [runSchedule, hs, hr] at h
      | some tw =>
        obtain ⟨tr₁, w₂⟩ := tw
        simp only [runSchedule, hs, hr, Option.some.injEq, Prod.mk.injEq] at h
        obtain ⟨rfl, rfl⟩ := h
        simpa using Run.append_runSchedule rs (hrun.snoc hs) hr

/-! ## Serialisation -/

/-- Positions a rank whose write fails can be in: never past the write of its own turn. -/
def PcFailed (r : Nat) : Pc → Prop
  | .loop t => t ≤ r
  | .opened _ | .escaped _ => True
  | .waiting t => t < r
  | .written _ | .closed _ | .returned => False

/-- A rank whose write fails stays before its own barrier in every run. -/
theorem Run.pcFailed {fileOpens : Nat → Bool} {nrank : Nat} {tr : List Event} {w : World}
    (h : Run fileOpens nrank tr w) {r : Nat} (hr : r < nrank) (hfail : fileOpens r = false) :
    PcFailed r (w.pc r) := by
  induction h with
  | init => simp [World.pc_init hr, PcFailed]
  | @snoc tr w w' r' e hrun hs ih =>
    have hinv := hrun.inv
    obtain ⟨_, hr', p, hm, rfl⟩ := step_move hs
    rw [World.pc_set hr']
    split
    · subst r'
      cases hm with
      | openFile hpc _ => trivial
      | enter hpc _ hne => rw [hpc] at ih; simp only [PcFailed] at ih ⊢; omega
      | exit hpc hle => rw [hpc] at ih; simp only [PcFailed] at ih; omega
      | write hpc hf => simp [hf] at hfail
      | escape hpc _ => trivial
      | close hpc => rw [hpc] at ih; exact ih.elim
      | enterOwn hpc => rw [hpc] at ih; exact ih.elim
      | leave hpc _ => rw [hpc] at ih; simp only [PcFailed] at ih ⊢; omega
    · exact ih

/-- When any rank's write fails, `MPI_Abort` is never called and no rank ever returns: every
rank stays in the turns up to the failing one. A world where no rank can move then has every
rank left by an exception or waiting in a barrier. -/
theorem dumpParticleDataToAsciiFile_never_completes {fileOpens : Nat → Bool} {nrank r : Nat}
    (hr : r < nrank) (hfail : fileOpens r = false) {tr : List Event} {w : World}
    (hrun : Run fileOpens nrank tr w) :
    w.aborted = false ∧ (∀ r' < nrank, (w.pc r').turn nrank ≤ r) ∧
    ((∀ r', step fileOpens w r' = none) →
      ∀ r' < nrank, (∃ t, w.pc r' = .escaped t) ∨ ∃ t, w.pc r' = .waiting t) := by
  have hinv := hrun.inv
  have hfailed := hrun.pcFailed hr hfail
  have hent : (w.pc r).entered nrank ≤ r := by
    cases hp : w.pc r <;> rw [hp] at hfailed <;> simp only [PcFailed] at hfailed <;>
      simp only [Pc.entered] <;> (try omega)
    all_goals
      have := hinv.pcOk r hr
      rw [hp] at this
      simp only [PcOk] at this
      omega
  have hturn : ∀ r' < nrank, (w.pc r').turn nrank ≤ r :=
    fun r' hr' => (hinv.sync r' hr' r hr).trans hent
  refine ⟨hinv.not_aborted, hturn, fun hstuck r' hr' => ?_⟩
  rcases step_eq_none_cases (hstuck r') hinv.not_aborted (hinv.nrank_eq ▸ hr') with
    h | h | ⟨t, ht, -⟩
  · have := hturn r' hr'
    rw [h, Pc.turn] at this
    omega
  · exact .inl h
  · exact .inr ⟨t, ht⟩

/-- Two ranks; the file cannot be opened on rank 1. -/
def rankOneFails (r : Nat) : Bool :=
  r != 1

/-- Rank 0 writes, both ranks pass the first barrier, rank 0 enters the second, and rank 1's
write raises. -/
def strandedEvents : List Event :=
  [.openFile 0 true, .write 0, .close 0, .enterBarrier 0 0, .enterBarrier 1 0,
    .leaveBarrier 0 0, .leaveBarrier 1 0, .enterBarrier 0 1, .openFile 1 false,
    .escape 1 .fileNotOpened]

/-- The run that strands rank 0, as a case of the general statement. -/
theorem rankOneFails_never_completes :
    1 < 2 ∧ rankOneFails 1 = false ∧
    Run rankOneFails 2 strandedEvents ⟨[.waiting 1, .escaped 1], false⟩ ∧
    (World.aborted ⟨[.waiting 1, .escaped 1], false⟩ = false ∧
      (∀ r' < 2, (World.pc ⟨[.waiting 1, .escaped 1], false⟩ r').turn 2 ≤ 1) ∧
      ((∀ r', step rankOneFails ⟨[.waiting 1, .escaped 1], false⟩ r' = none) →
        ∀ r' < 2, (∃ t, World.pc ⟨[.waiting 1, .escaped 1], false⟩ r' = .escaped t) ∨
          ∃ t, World.pc ⟨[.waiting 1, .escaped 1], false⟩ r' = .waiting t)) := by
  have hsched : runSchedule rankOneFails (World.init 2) [0, 0, 0, 0, 1, 0, 1, 0, 1, 1] =
      some (strandedEvents, ⟨[.waiting 1, .escaped 1], false⟩) := rfl
  have hrun : Run rankOneFails 2 strandedEvents ⟨[.waiting 1, .escaped 1], false⟩ := by
    simpa using Run.append_runSchedule _ Run.init hsched
  exact ⟨by decide, rfl, hrun, dumpParticleDataToAsciiFile_never_completes (by decide) rfl hrun⟩

/-- On two ranks with rank 1's file not opening, the `FileNotOpenedException` passes the `catch`
for `MPIFileNotOpenedException`: rank 1 leaves the loop, rank 0 waits in the barrier of turn 1,
which rank 1 never enters, no rank can move, and `MPI_Abort` is not called. -/
theorem dumpParticleDataToAsciiFile_strands_rank_zero :
    Run rankOneFails 2 strandedEvents ⟨[.waiting 1, .escaped 1], false⟩ ∧
    ∀ r, step rankOneFails ⟨[.waiting 1, .escaped 1], false⟩ r = none := by
  have hsched : runSchedule rankOneFails (World.init 2) [0, 0, 0, 0, 1, 0, 1, 0, 1, 1] =
      some (strandedEvents, ⟨[.waiting 1, .escaped 1], false⟩) := rfl
  refine ⟨by simpa using Run.append_runSchedule _ Run.init hsched, fun r => ?_⟩
  match r with
  | 0 => rfl
  | 1 => rfl
  | r + 2 => simp [step, World.nrank]

end SphExa.Writer
