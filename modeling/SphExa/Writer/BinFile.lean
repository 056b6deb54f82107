import SphExa.Writer.TurnLoop

/-!
# The binary and checkpoint dumps

`SqPatchFileWriter` prints a banner, writes, and ends the process with `exit(EXIT_FAILURE)`
when the write raises `FileNotOpenedException`; its checkpoint dump always exits.

`SqPatchMPIFileWriter` runs its dumps on every rank. A rank whose binary write raises
`MPIFileNotOpenedException`, and every rank of a checkpoint dump, runs
`if (d.rank == 0) fprintf(stderr, ...)` and then `MPI_Abort(d.comm, code)`, which ends every
rank of the job. Nothing orders the ranks between a failure and an abort, so another rank's
abort can end the job before rank 0 has printed. The two methods are one machine here, run
with each rank's reaction to the body of the method.

The writes, `fileutils::writeParticleDataToBinFileWithMPI` and the exceptions' `what()`, are
not part of the sources; they are parameters.
-/

namespace SphExa.Writer

/-! ## The sequential writer -/

namespace SqPatchFileWriter

/-- How a call of the sequential writer ends. -/
inductive Outcome where
  /-- It returned. -/
  | returned
  /-- `exit(status)` ended the process. -/
  | exited (status : Int)
  /-- An exception left the call. -/
  | raised (e : IoException)
  deriving DecidableEq, Repr

/-- What one call of the sequential writer prints, and how it ends. -/
structure Call where
  /-- The lines of `printf`. -/
  stdout : List String
  /-- The lines of `fprintf(stderr, ...)`. -/
  stderr : List String
  /-- How the call ends. -/
  outcome : Outcome
  deriving DecidableEq, Repr

/-- The two particle dumps of `SqPatchFileWriter`: print `banner` and the path, write, and end
the process with `exit(EXIT_FAILURE)` after an `ERROR` line when the write raises
`FileNotOpenedException`, `what` being the exceptions' `what()`. -/
def dumpWith (banner : String) (what : IoException → String) (path : String)
    (write : Except IoException Unit) : Call :=
  let stdout := [banner ++ path ++ "\n"]
  match write with
  | .ok () => ⟨stdout, [], .returned⟩
  | .error .fileNotOpened =>
    ⟨stdout, ["ERROR: " ++ what .fileNotOpened ++ ". Terminating\n"], .exited 1⟩
  | .error e => ⟨stdout, [], .raised e⟩

/-- `SqPatchFileWriter::dumpParticleDataToBinFile`, `write` being what
`fileutils::writeParticleDataToBinFile` does. -/
def dumpParticleDataToBinFile (what : IoException → String) (path : String)
    (write : Except IoException Unit) : Call :=
  dumpWith "Dumping particles data to file at path: " what path write

/-- `SqPatchFileWriter::dumpParticleDataToAsciiFile`. -/
def dumpParticleDataToAsciiFile (what : IoException → String) (path : String) (fileOpens : Bool) :
    Call :=
  dumpWith "Dumping particles data to ASCII file at path: " what path
    (writeParticleDataToAsciiFile fileOpens)

/-- `SqPatchFileWriter::dumpCheckpointDataToBinFile`. -/
def dumpCheckpointDataToBinFile : Call :=
  ⟨[], ["Warning: dumping checkpoint is not implemented in SqPatchFileWriter, exiting...\n"],
    .exited 1⟩

/-- A particle dump prints its banner, then returns exactly when the write returns; a
`FileNotOpenedException` ends the process with status `1` after one `ERROR` line, and only an
exception of another type leaves the call. -/
theorem dumpWith_spec (banner : String) (what : IoException → String) (path : String)
    (write : Except IoException Unit) :
    (dumpWith banner what path write).stdout = [banner ++ path ++ "\n"] ∧
      ((dumpWith banner what path write).outcome = .returned ↔ write = .ok ()) ∧
      ((dumpWith banner what path write).outcome = .exited 1 ↔
        write = .error .fileNotOpened) ∧
      (dumpWith banner what path write).stderr.length ≤ 1 ∧
      (dumpWith banner what path write).outcome ≠ .raised .fileNotOpened := by
  rcases write with (_ | _) | ⟨⟩ <;> simp [dumpWith]

end SqPatchFileWriter

/-! ## The MPI writer: the ranks up to `MPI_Abort` -/

namespace Abort

/-- How a rank leaves the body of the method: it returns, an exception leaves it, or it
reaches `if (d.rank == 0) fprintf(stderr, msg); MPI_Abort(d.comm, code);`. -/
inductive Reaction where
  /-- The body returned. -/
  | returns
  /-- An exception the method does not catch left the body. -/
  | escapes (e : IoException)
  /-- On to `MPI_Abort(d.comm, code)`, rank 0 printing `msg` first. -/
  | aborts (code : Int) (msg : String)
  deriving DecidableEq, Repr

/-- What rank 0 prints on its way to `MPI_Abort`. -/
def Reaction.report : Reaction → List String
  | .aborts _ msg => [msg]
  | .returns | .escapes _ => []

/-- Where one rank is. -/
inductive Pc where
  /-- At the call. -/
  | start
  /-- The body failed: rank 0 prints `msg`, then `MPI_Abort(d.comm, code)`. -/
  | failing (code : Int) (msg : String)
  /-- Rank 0 has printed; `MPI_Abort(d.comm, code)` next. -/
  | reported (code : Int)
  /-- The method returned. -/
  | returned
  /-- An exception left the method. -/
  | escaped (e : IoException)
  deriving DecidableEq, Repr

/-- Whether rank 0 has printed. -/
def Pc.isReported : Pc → Bool
  | .reported _ => true
  | _ => false

/-- All ranks of one call. -/
structure World where
  /-- Each rank's position, indexed by `d.rank`. -/
  ranks : List Pc
  /-- The lines written to `stderr`, oldest first. -/
  stderr : List String
  /-- `MPI_Abort` was called with this code: every rank of the job is gone. -/
  abortCode : Option Int
  deriving DecidableEq, Repr

namespace World

/-- Every rank at the call. -/
def init (nrank : Nat) : World :=
  ⟨List.replicate nrank .start, [], none⟩

/-- `d.nrank`. -/
def nrank (w : World) : Nat :=
  w.ranks.length

/-- The position of rank `r`. -/
def pc (w : World) (r : Nat) : Pc :=
  w.ranks.getD r .returned

/-- Rank `r` moves to `p`. -/
def set (w : World) (r : Nat) (p : Pc) : World :=
  { w with ranks := w.ranks.set r p }

/-- `fprintf(stderr, line)`. -/
def print (w : World) (line : String) : World :=
  { w with stderr := w.stderr ++ [line] }

/-- `MPI_Abort(d.comm, code)`. -/
def abort (w : World) (code : Int) : World :=
  { w with abortCode := some code }

@[simp] theorem nrank_init (nrank : Nat) : (init nrank).nrank = nrank := by
  simp [init, World.nrank]

@[simp] theorem pc_init {nrank r : Nat} (hr : r < nrank) : (init nrank).pc r = .start := by
  simp [init, pc, hr]

@[simp] theorem stderr_init (nrank : Nat) : (init nrank).stderr = [] :=
  rfl

@[simp] theorem abortCode_init (nrank : Nat) : (init nrank).abortCode = none :=
  rfl

@[simp] theorem nrank_set (w : World) (r : Nat) (p : Pc) : (w.set r p).nrank = w.nrank := by
  simp [set, World.nrank]

@[simp] theorem stderr_set (w : World) (r : Nat) (p : Pc) : (w.set r p).stderr = w.stderr :=
  rfl

@[simp] theorem abortCode_set (w : World) (r : Nat) (p : Pc) :
    (w.set r p).abortCode = w.abortCode :=
  rfl

@[simp] theorem nrank_print (w : World) (line : String) : (w.print line).nrank = w.nrank :=
  rfl

@[simp] theorem pc_print (w : World) (line : String) : (w.print line).pc = w.pc :=
  rfl

@[simp] theorem stderr_print (w : World) (line : String) :
    (w.print line).stderr = w.stderr ++ [line] :=
  rfl

@[simp] theorem abortCode_print (w : World) (line : String) :
    (w.print line).abortCode = w.abortCode :=
  rfl

@[simp] theorem nrank_abort (w : World) (code : Int) : (w.abort code).nrank = w.nrank :=
  rfl

@[simp] theorem pc_abort (w : World) (code : Int) : (w.abort code).pc = w.pc :=
  rfl

@[simp] theorem stderr_abort (w : World) (code : Int) : (w.abort code).stderr = w.stderr :=
  rfl

@[simp] theorem abortCode_abort (w : World) (code : Int) : (w.abort code).abortCode = some code :=
  rfl

/-- Moving rank `r` leaves every other rank where it is. -/
theorem pc_set {w : World} {r : Nat} (hr : r < w.nrank) (p : Pc) (r' : Nat) :
    (w.set r p).pc r' = if r' = r then p else w.pc r' := by
  have hr' : r < w.ranks.length := hr
  by_cases h : r' = r
  · subst h
    simp [set, pc, List.getElem?_set, hr']
  · simp [set, pc, List.getElem?_set, Ne.symm h, h]

end World

/-- One step of rank `r`, `react r` being how its body ends: the next world, or `none` when
the rank cannot move. -/
def step (react : Nat → Reaction) (w : World) (r : Nat) : Option World :=
  if w.abortCode.isSome || w.nrank ≤ r then none else
  match w.pc r with
  | .start =>
    match react r with
    | .returns => some (w.set r .returned)
    | .escapes e => some (w.set r (.escaped e))
    | .aborts code msg => some (w.set r (.failing code msg))
  | .failing code msg =>
    if r = 0 then some ((w.set r (.reported code)).print msg) else some (w.abort code)
  | .reported code => some (w.abort code)
  | .returned | .escaped _ => none

/-- The runs of one call on `nrank` ranks: the ranks in the order they moved, and the world
they lead to. -/
inductive Run (react : Nat → Reaction) (nrank : Nat) : List Nat → World → Prop
  | init : Run react nrank [] (World.init nrank)
  | snoc {sched : List Nat} {w w' : World} {r : Nat} :
      Run react nrank sched w → step react w r = some w' → Run react nrank (sched ++ [r]) w'

/-- No rank can move: the call is over on every rank. -/
def Finished (react : Nat → Reaction) (w : World) : Prop :=
  ∀ r, step react w r = none

/-- What a step of rank `r` can do, each move with its guard. -/
inductive Move (react : Nat → Reaction) (w : World) (r : Nat) : World → Prop
  /-- The body returned. -/
  | returns : w.pc r = .start → react r = .returns → Move react w r (w.set r .returned)
  /-- An exception left the body. -/
  | escapes {e : IoException} : w.pc r = .start → react r = .escapes e →
      Move react w r (w.set r (.escaped e))
  /-- The body failed. -/
  | fails {code : Int} {msg : String} : w.pc r = .start → react r = .aborts code msg →
      Move react w r (w.set r (.failing code msg))
  /-- Rank 0 prints. -/
  | report {code : Int} {msg : String} : w.pc r = .failing code msg → r = 0 →
      Move react w r ((w.set r (.reported code)).print msg)
  /-- Any other rank aborts without printing. -/
  | abortFailing {code : Int} {msg : String} : w.pc r = .failing code msg → r ≠ 0 →
      Move react w r (w.abort code)
  /-- Rank 0 aborts after printing. -/
  | abortReported {code : Int} : w.pc r = .reported code →
      Move react w r (w.abort code)

/-- Only a rank of a world that has not aborted moves. -/
theorem step_guard {react : Nat → Reaction} {w w' : World} {r : Nat}
    (h : step react w r = some w') : w.abortCode = none ∧ r < w.nrank := by
  cases ha : w.abortCode <;> by_cases hr : r < w.nrank <;> simp_all [step]

/-- Every step is a move of one rank of a world that has not aborted. -/
theorem step_move {react : Nat → Reaction} {w w' : World} {r : Nat}
    (h : step react w r = some w') : w.abortCode = none ∧ r < w.nrank ∧ Move react w r w' := by
  obtain ⟨ha, hr⟩ := step_guard h
  refine ⟨ha, hr, ?_⟩
  simp only [step, ha, Option.isSome_none, Bool.false_or, decide_eq_true_eq, not_le.2 hr,
    if_false] at h
  cases hpc : w.pc r with
  | start =>
    cases hre : react r with
    | returns => simp only [hpc, hre, Option.some_inj] at h; exact h ▸ .returns hpc hre
    | escapes e => simp only [hpc, hre, Option.some_inj] at h; exact h ▸ .escapes hpc hre
    | aborts code msg => simp only [hpc, hre, Option.some_inj] at h; exact h ▸ .fails hpc hre
  | failing code msg =>
    simp only [hpc] at h
    split_ifs at h with h0
    · exact Option.some_inj.1 h ▸ .report hpc h0
    · exact Option.some_inj.1 h ▸ .abortFailing hpc h0
  | reported code => simp only [hpc, Option.some_inj] at h; exact h ▸ .abortReported hpc
  | returned => simp [hpc] at h
  | escaped e => simp [hpc] at h

/-- A rank of a world that has not aborted can move unless it has returned or escaped. -/
theorem step_eq_none {react : Nat → Reaction} {w : World} {r : Nat}
    (h : step react w r = none) (ha : w.abortCode = none) (hr : r < w.nrank) :
    w.pc r = .returned ∨ ∃ e, w.pc r = .escaped e := by
  simp only [step, ha, Option.isSome_none, Bool.false_or, decide_eq_true_eq, not_le.2 hr,
    if_false] at h
  cases hpc : w.pc r with
  | start => rw [hpc] at h; cases hre : react r <;> simp [hre] at h
  | failing code msg => rw [hpc] at h; split_ifs at h
  | reported code => simp [hpc] at h
  | returned => exact .inl rfl
  | escaped e => exact .inr ⟨e, rfl⟩

/-! ## The invariant -/

/-- The positions rank `r` can be at, given how its body ends. -/
def PcOk (react : Nat → Reaction) (r : Nat) : Pc → Prop
  | .start => True
  | .failing code msg => react r = .aborts code msg
  | .reported code => r = 0 ∧ ∃ msg, react r = .aborts code msg
  | .returned => react r = .returns
  | .escaped e => react r = .escapes e

/-- What holds in every world a run reaches. -/
structure Inv (react : Nat → Reaction) (nrank : Nat) (w : World) : Prop where
  nrank_eq : w.nrank = nrank
  pcOk : ∀ r < nrank, PcOk react r (w.pc r)
  /-- `stderr` holds rank 0's line once rank 0 has printed, and nothing else. -/
  stderr_eq : w.stderr = if (w.pc 0).isReported then (react 0).report else []
  /-- The rank that aborted is still where it called `MPI_Abort`. -/
  aborter : ∀ c, w.abortCode = some c →
    ∃ r < nrank, w.pc r = .reported c ∨ r ≠ 0 ∧ ∃ msg, w.pc r = .failing c msg

/-- The call starts in the invariant. -/
theorem inv_init (react : Nat → Reaction) (nrank : Nat) :
    Inv react nrank (World.init nrank) where
  nrank_eq := World.nrank_init nrank
  pcOk r hr := by rw [World.pc_init hr]; trivial
  stderr_eq := by
    rcases Nat.eq_zero_or_pos nrank with rfl | hn
    · rfl
    · rw [World.pc_init hn]; rfl
  aborter c h := nomatch h

/-- A move to a position that is not `reported` keeps the invariant while nothing aborts. -/
theorem Inv.set {react : Nat → Reaction} {nrank : Nat} {w : World} {r : Nat} {p : Pc}
    (hinv : Inv react nrank w) (ha : w.abortCode = none) (hr : r < nrank)
    (hpc : (w.pc r).isReported = false) (hp : p.isReported = false) (hok : PcOk react r p) :
    Inv react nrank (w.set r p) where
  nrank_eq := by rw [World.nrank_set, hinv.nrank_eq]
  pcOk r' hr' := by
    rw [World.pc_set (hinv.nrank_eq ▸ hr)]
    split
    · subst r'; exact hok
    · exact hinv.pcOk r' hr'
  stderr_eq := by
    rw [World.stderr_set, hinv.stderr_eq, World.pc_set (hinv.nrank_eq ▸ hr)]
    by_cases h0 : 0 = r
    · subst h0; rw [if_pos rfl, hpc, hp]
    · rw [if_neg h0]
  aborter c h := by rw [World.abortCode_set, ha] at h; exact nomatch h

/-- Every step keeps the invariant. -/
theorem Inv.after_step {react : Nat → Reaction} {nrank : Nat} {w w' : World} {r : Nat}
    (hinv : Inv react nrank w) (hs : step react w r = some w') : Inv react nrank w' := by
  obtain ⟨ha, hr, hm⟩ := step_move hs
  have hrn : r < nrank := hinv.nrank_eq ▸ hr
  have hok := hinv.pcOk r hrn
  cases hm with
  | returns hpc hre => exact hinv.set ha hrn (by rw [hpc]; rfl) rfl hre
  | escapes hpc hre => exact hinv.set ha hrn (by rw [hpc]; rfl) rfl hre
  | fails hpc hre => exact hinv.set ha hrn (by rw [hpc]; rfl) rfl hre
  | @report code msg hpc h0 =>
    subst h0
    rw [hpc] at hok
    have hs := hinv.stderr_eq
    rw [hpc] at hs
    refine ⟨by simp [hinv.nrank_eq], fun r' hr' => ?_, ?_, fun c h => by simp [ha] at h⟩
    · rw [World.pc_print, World.pc_set hr]
      split
      · subst r'; exact ⟨rfl, msg, hok⟩
      · exact hinv.pcOk r' hr'
    · have hre : react 0 = .aborts code msg := hok
      rw [World.stderr_print, World.stderr_set, World.pc_print, World.pc_set hr, if_pos rfl, hs]
      simp [Pc.isReported, hre, Reaction.report]
  | @abortFailing code msg hpc h0 =>
    exact ⟨hinv.nrank_eq, hinv.pcOk, hinv.stderr_eq,
      fun c h => ⟨r, hrn, .inr ⟨h0, msg, Option.some_inj.1 h ▸ hpc⟩⟩⟩
  | @abortReported code hpc =>
    exact ⟨hinv.nrank_eq, hinv.pcOk, hinv.stderr_eq,
      fun c h => ⟨r, hrn, .inl (Option.some_inj.1 h ▸ hpc)⟩⟩

/-- Every world a run reaches satisfies the invariant. -/
theorem Run.inv {react : Nat → Reaction} {nrank : Nat} {sched : List Nat} {w : World}
    (h : Run react nrank sched w) : Inv react nrank w := by
  induction h with
  | init => exact inv_init react nrank
  | snoc _ hs ih => exact ih.after_step hs

/-- Only rank 0 prints, at most once, and only its own failure. -/
theorem Inv.stderr_cases {react : Nat → Reaction} {nrank : Nat} {w : World}
    (hinv : Inv react nrank w) :
    w.stderr = [] ∨ ∃ code msg, react 0 = .aborts code msg ∧ w.stderr = [msg] := by
  rw [hinv.stderr_eq]
  split
  · cases react 0 with
    | aborts code msg => exact .inr ⟨code, msg, rfl, rfl⟩
    | returns | escapes _ => exact .inl rfl
  · exact .inl rfl

/-- The code of an abort is the code of a rank whose body failed. -/
theorem Inv.aborts_of_abortCode {react : Nat → Reaction} {nrank : Nat} {w : World} {c : Int}
    (hinv : Inv react nrank w) (h : w.abortCode = some c) :
    ∃ r < nrank, ∃ msg, react r = .aborts c msg := by
  obtain ⟨r, hr, hpc⟩ := hinv.aborter c h
  have hok := hinv.pcOk r hr
  rcases hpc with hpc | ⟨_, msg, hpc⟩
  · rw [hpc] at hok; exact ⟨r, hr, hok.2⟩
  · rw [hpc] at hok; exact ⟨r, hr, msg, hok⟩

/-- On one rank the only abort is rank 0's, after it has printed. -/
theorem Inv.stderr_of_one_rank {react : Nat → Reaction} {w : World} {c : Int}
    (hinv : Inv react 1 w) (hc : w.abortCode = some c) : w.stderr = (react 0).report := by
  obtain ⟨r, hr, hpc⟩ := hinv.aborter c hc
  obtain rfl : r = 0 := Nat.lt_one_iff.1 hr
  rcases hpc with hpc | ⟨h0, -⟩
  · rw [hinv.stderr_eq, hpc]
    rfl
  · exact absurd rfl h0

/-! ## Where a run ends -/

/-- In a finished world that has not aborted, every rank has returned or escaped, as its body
dictates. -/
theorem Inv.finished_of_abortCode_none {react : Nat → Reaction} {nrank : Nat} {w : World}
    (hinv : Inv react nrank w) (hfin : Finished react w) (ha : w.abortCode = none) :
    ∀ r < nrank, (react r = .returns ∧ w.pc r = .returned) ∨
      ∃ e, react r = .escapes e ∧ w.pc r = .escaped e := by
  intro r hr
  have hok := hinv.pcOk r hr
  rcases step_eq_none (hfin r) ha (hinv.nrank_eq ▸ hr) with hpc | ⟨e, hpc⟩
  · rw [hpc] at hok; exact .inl ⟨hok, hpc⟩
  · rw [hpc] at hok; exact .inr ⟨e, hok, hpc⟩

/-- Every finished run of a call ends in one of two ways. It aborts, with the code of a rank
whose body failed, exactly when some rank's body fails. Otherwise every rank has returned or
escaped as its body dictates, and nothing has been printed. -/
theorem Run.finished_outcome {react : Nat → Reaction} {nrank : Nat} {sched : List Nat}
    {w : World} (hrun : Run react nrank sched w) (hfin : Finished react w) :
    (w.abortCode.isSome ↔ ∃ r < nrank, ∃ code msg, react r = .aborts code msg) ∧
      (∀ c, w.abortCode = some c → ∃ r < nrank, ∃ msg, react r = .aborts c msg) ∧
      (w.abortCode = none → w.stderr = [] ∧ ∀ r < nrank, (react r = .returns ∧
        w.pc r = .returned) ∨ ∃ e, react r = .escapes e ∧ w.pc r = .escaped e) := by
  have hinv := hrun.inv
  have hnone (ha : w.abortCode = none) := hinv.finished_of_abortCode_none hfin ha
  refine ⟨⟨fun h => ?_, fun ⟨r, hr, code, msg, hre⟩ => ?_⟩,
    fun c h => hinv.aborts_of_abortCode h, fun ha => ⟨?_, hnone ha⟩⟩
  · obtain ⟨c, hc⟩ := Option.isSome_iff_exists.1 h
    obtain ⟨r, hr, msg, hre⟩ := hinv.aborts_of_abortCode hc
    exact ⟨r, hr, c, msg, hre⟩
  · cases ha : w.abortCode with
    | some c => rfl
    | none => rcases hnone ha r hr with ⟨h, _⟩ | ⟨e, h, _⟩ <;> rw [hre] at h <;> cases h
  · rcases hinv.stderr_cases with h | ⟨code, msg, hre, _⟩
    · exact h
    · rcases Nat.eq_zero_or_pos nrank with rfl | hn
      · have hnil : w.ranks = [] := List.length_eq_zero.1 hinv.nrank_eq
        rw [hinv.stderr_eq, World.pc, hnil]
        rfl
      · rcases hnone ha 0 hn with ⟨h, _⟩ | ⟨e, h, _⟩ <;> rw [hre] at h <;> cases h

/-- When every rank's body fails with the same code, a finished run has aborted with that code
exactly when there is a rank. -/
theorem Run.abortCode_of_forall_aborts {react : Nat → Reaction} {nrank : Nat}
    {sched : List Nat} {w : World} {c : Int} (hall : ∀ r, ∃ msg, react r = .aborts c msg)
    (hrun : Run react nrank sched w) (hfin : Finished react w) :
    w.abortCode = some c ↔ 0 < nrank := by
  obtain ⟨h1, h2, -⟩ := hrun.finished_outcome hfin
  refine ⟨fun hc => ?_, fun hn => ?_⟩
  · obtain ⟨r, hr, -⟩ := h2 _ hc
    exact Nat.lt_of_le_of_lt (Nat.zero_le r) hr
  · obtain ⟨msg, hre⟩ := hall 0
    obtain ⟨c', hc⟩ := Option.isSome_iff_exists.1 (h1.2 ⟨0, hn, _, _, hre⟩)
    obtain ⟨r, -, _, hre'⟩ := h2 c' hc
    obtain ⟨_, hr⟩ := hall r
    rw [hc, (Reaction.aborts.inj (hre'.symm.trans hr)).1]

/-- A failing rank other than 0 can end the job at once: it fails and aborts before any other
rank moves, and nothing is printed. -/
theorem Run.silent_abort {react : Nat → Reaction} {nrank r : Nat} {code : Int} {msg : String}
    (hr0 : r ≠ 0) (hr : r < nrank) (hre : react r = .aborts code msg) :
    ∃ w, Run react nrank [r, r] w ∧ Finished react w ∧ w.stderr = [] ∧ w.abortCode = some code := by
  have hr' : r < (World.init nrank).nrank := by rwa [World.nrank_init]
  have h1 : step react (World.init nrank) r =
      some ((World.init nrank).set r (.failing code msg)) := by
    simp [step, World.pc_init hr, hre, hr]
  have h2 : step react ((World.init nrank).set r (.failing code msg)) r =
      some (((World.init nrank).set r (.failing code msg)).abort code) := by
    simp [step, World.pc_set hr', hr0, hr]
  exact ⟨_, (Run.init.snoc h1).snoc h2, fun _ => by simp [step], rfl, rfl⟩

end Abort

/-! ## The MPI writer's methods -/

namespace SqPatchMPIFileWriter

/-- `SqPatchMPIFileWriter::dumpParticleDataToBinFile` on rank `r`, `write r` being what
`fileutils::writeParticleDataToBinFileWithMPI` does there: `catch (MPIFileNotOpenedException &ex)`
leads to `MPI_Abort(d.comm, ex.mpierr)`, rank 0 printing the `ERROR` line first. -/
def dumpParticleDataToBinFile (what : IoException → String) (write : Nat → Except IoException Unit)
    (r : Nat) : Abort.Reaction :=
  match write r with
  | .ok () => .returns
  | .error (.mpiFileNotOpened mpierr) =>
    .aborts mpierr ("ERROR: " ++ what (.mpiFileNotOpened mpierr) ++ ". Terminating\n")
  | .error e => .escapes e

/-- `SqPatchMPIFileWriter::dumpCheckpointDataToBinFile`: every rank goes to
`MPI_Abort(d.comm, MPI_ERR_OTHER)`, rank 0 printing the warning first. -/
def dumpCheckpointDataToBinFile (mpiErrOther : Int) (_r : Nat) : Abort.Reaction :=
  .aborts mpiErrOther
    "Warning: dumping checkpoint is not implemented in SqPatchMPIFileWriter, exiting...\n"

/-- The binary dump's ranks fail exactly when their write raises `MPIFileNotOpenedException`. -/
theorem dumpParticleDataToBinFile_eq_aborts {what : IoException → String}
    {write : Nat → Except IoException Unit} {r : Nat} {code : Int} {msg : String} :
    dumpParticleDataToBinFile what write r = .aborts code msg ↔
      write r = .error (.mpiFileNotOpened code) ∧
        msg = "ERROR: " ++ what (.mpiFileNotOpened code) ++ ". Terminating\n" := by
  unfold dumpParticleDataToBinFile
  rcases write r with (_ | mpierr) | ⟨⟩
  · simp
  · simp only [Abort.Reaction.aborts.injEq, Except.error.injEq, IoException.mpiFileNotOpened.injEq]
    exact ⟨fun ⟨h1, h2⟩ => ⟨h1, h1 ▸ h2.symm⟩, fun ⟨h1, h2⟩ => ⟨h1, h1 ▸ h2.symm⟩⟩
  · simp

/-- The binary dump's ranks return exactly when their write returns. -/
theorem dumpParticleDataToBinFile_eq_returns {what : IoException → String}
    {write : Nat → Except IoException Unit} {r : Nat} :
    dumpParticleDataToBinFile what write r = .returns ↔ write r = .ok () := by
  unfold dumpParticleDataToBinFile
  rcases write r with (_ | _) | ⟨⟩ <;> simp

/-- An exception leaves a rank of the binary dump only when its write raises it. -/
theorem write_eq_of_dumpParticleDataToBinFile_eq_escapes {what : IoException → String}
    {write : Nat → Except IoException Unit} {r : Nat} {e : IoException}
    (h : dumpParticleDataToBinFile what write r = .escapes e) : write r = .error e := by
  unfold dumpParticleDataToBinFile at h
  rcases hw : write r with (_ | _) | ⟨⟩ <;> simp only [hw, Abort.Reaction.escapes.injEq,
    reduceCtorEq] at h
  rw [h]

/-- Every finished run of the binary dump, over any interleaving of the ranks, aborts exactly
when some rank's write raises `MPIFileNotOpenedException`, and then with the `mpierr` of such
a rank. Otherwise every rank has returned or left by its write's exception, and nothing has
been printed. -/
theorem dumpParticleDataToBinFile_outcome (what : IoException → String)
    (write : Nat → Except IoException Unit) {nrank : Nat} {sched : List Nat} {w : Abort.World}
    (hrun : Abort.Run (dumpParticleDataToBinFile what write) nrank sched w)
    (hfin : Abort.Finished (dumpParticleDataToBinFile what write) w) :
    (w.abortCode.isSome ↔ ∃ r < nrank, ∃ mpierr, write r = .error (.mpiFileNotOpened mpierr)) ∧
      (∀ c, w.abortCode = some c → ∃ r < nrank, write r = .error (.mpiFileNotOpened c)) ∧
      (w.abortCode = none → w.stderr = [] ∧
        ∀ r < nrank, (write r = .ok () ∧ w.pc r = .returned) ∨
          ∃ e, write r = .error e ∧ w.pc r = .escaped e) := by
  obtain ⟨h1, h2, h3⟩ := hrun.finished_outcome hfin
  refine ⟨h1.trans ⟨fun ⟨r, hr, c, _, h⟩ => ⟨r, hr, c, (dumpParticleDataToBinFile_eq_aborts.1 h).1⟩,
    fun ⟨r, hr, c, h⟩ => ⟨r, hr, c, _, dumpParticleDataToBinFile_eq_aborts.2 ⟨h, rfl⟩⟩⟩,
    fun c hc => ?_, fun ha => ⟨(h3 ha).1, fun r hr => ?_⟩⟩
  · obtain ⟨r, hr, _, h⟩ := h2 c hc
    exact ⟨r, hr, (dumpParticleDataToBinFile_eq_aborts.1 h).1⟩
  · rcases (h3 ha).2 r hr with ⟨h, hpc⟩ | ⟨e, h, hpc⟩
    · exact .inl ⟨dumpParticleDataToBinFile_eq_returns.1 h, hpc⟩
    · exact .inr ⟨e, write_eq_of_dumpParticleDataToBinFile_eq_escapes h, hpc⟩

/-- Rank 1 of two cannot open the file; rank 0 can. -/
def secondRankFails (r : Nat) : Except IoException Unit :=
  if r = 1 then .error (.mpiFileNotOpened 5) else .ok ()

/-- Rank 0 returns, then rank 1 fails and aborts with its `mpierr`; nothing is printed. -/
theorem secondRankFails_outcome :
    Abort.Run (dumpParticleDataToBinFile (fun _ => "no file") secondRankFails) 2 [0, 1, 1]
        ⟨[.returned, .failing 5 ("ERROR: " ++ "no file" ++ ". Terminating\n")], [], some 5⟩ ∧
      Abort.Finished (dumpParticleDataToBinFile (fun _ => "no file") secondRankFails)
        ⟨[.returned, .failing 5 ("ERROR: " ++ "no file" ++ ". Terminating\n")], [], some 5⟩ ∧
      ((some 5 : Option Int).isSome ↔
        ∃ r < 2, ∃ mpierr, secondRankFails r = .error (.mpiFileNotOpened mpierr)) ∧
      (∀ c, (some 5 : Option Int) = some c →
        ∃ r < 2, secondRankFails r = .error (.mpiFileNotOpened c)) ∧
      ((some 5 : Option Int) = none → ([] : List String) = [] ∧
        ∀ r < 2, (secondRankFails r = .ok () ∧
          Abort.World.pc ⟨[.returned, .failing 5 ("ERROR: " ++ "no file" ++ ". Terminating\n")],
            [], some 5⟩ r = .returned) ∨
          ∃ e, secondRankFails r = .error e ∧
            Abort.World.pc ⟨[.returned, .failing 5 ("ERROR: " ++ "no file" ++ ". Terminating\n")],
              [], some 5⟩ r = .escaped e) :=
  have hrun : Abort.Run (dumpParticleDataToBinFile (fun _ => "no file") secondRankFails) 2
      ([] ++ [0] ++ [1] ++ [1]) ⟨[.returned, .failing 5 ("ERROR: " ++ "no file" ++ ". Terminating\n")], [], some 5⟩ :=
    Abort.Run.snoc (Abort.Run.snoc (Abort.Run.snoc Abort.Run.init rfl) rfl) rfl
  have hfin : Abort.Finished (dumpParticleDataToBinFile (fun _ => "no file") secondRankFails)
      ⟨[.returned, .failing 5 ("ERROR: " ++ "no file" ++ ". Terminating\n")], [], some 5⟩ :=
    fun _ => rfl
  ⟨hrun, hfin, dumpParticleDataToBinFile_outcome _ _ hrun hfin⟩

/-- Only rank 0 prints: at most one line, the `ERROR` line of its own write. A rank other
than 0 whose write raises `MPIFileNotOpenedException` can end the job with nothing printed. -/
theorem dumpParticleDataToBinFile_report (what : IoException → String)
    (write : Nat → Except IoException Unit) (nrank : Nat) :
    (∀ sched w, Abort.Run (dumpParticleDataToBinFile what write) nrank sched w →
      w.stderr = [] ∨ ∃ mpierr, write 0 = .error (.mpiFileNotOpened mpierr) ∧
        w.stderr = ["ERROR: " ++ what (.mpiFileNotOpened mpierr) ++ ". Terminating\n"]) ∧
    ∀ r mpierr, r ≠ 0 → r < nrank → write r = .error (.mpiFileNotOpened mpierr) →
      ∃ w, Abort.Run (dumpParticleDataToBinFile what write) nrank [r, r] w ∧
        Abort.Finished (dumpParticleDataToBinFile what write) w ∧ w.stderr = [] ∧
          w.abortCode = some mpierr := by
  refine ⟨fun sched w hrun => ?_, fun r mpierr hr0 hr hw =>
    Abort.Run.silent_abort hr0 hr (dumpParticleDataToBinFile_eq_aborts.2 ⟨hw, rfl⟩)⟩
  rcases hrun.inv.stderr_cases with h | ⟨code, msg, hre, h⟩
  · exact .inl h
  · obtain ⟨hw, rfl⟩ := dumpParticleDataToBinFile_eq_aborts.1 hre
    exact .inr ⟨code, hw, h⟩

/-- A checkpoint dump never returns: every finished run on at least one rank aborts with
`MPI_ERR_OTHER`. The warning is printed in every finished run exactly when there is one rank;
with more, another rank's abort can end the job before rank 0 prints. -/
theorem dumpCheckpointDataToBinFile_outcome (mpiErrOther : Int) (nrank : Nat) :
    (∀ sched w, Abort.Run (dumpCheckpointDataToBinFile mpiErrOther) nrank sched w →
      Abort.Finished (dumpCheckpointDataToBinFile mpiErrOther) w →
        (w.abortCode = some mpiErrOther ↔ 0 < nrank)) ∧
    ((∀ sched w, Abort.Run (dumpCheckpointDataToBinFile mpiErrOther) nrank sched w →
      Abort.Finished (dumpCheckpointDataToBinFile mpiErrOther) w →
        w.stderr =
          ["Warning: dumping checkpoint is not implemented in SqPatchMPIFileWriter, exiting...\n"]) ↔
      nrank = 1) := by
  have habort : ∀ sched w, Abort.Run (dumpCheckpointDataToBinFile mpiErrOther) nrank sched w →
      Abort.Finished (dumpCheckpointDataToBinFile mpiErrOther) w →
        (w.abortCode = some mpiErrOther ↔ 0 < nrank) :=
    fun _ _ => Abort.Run.abortCode_of_forall_aborts fun _ => ⟨_, rfl⟩
  refine ⟨habort, fun hall => ?_, ?_⟩
  · by_contra h1
    rcases Nat.lt_or_gt_of_ne h1 with h0 | h2
    · have hfin : Abort.Finished (dumpCheckpointDataToBinFile mpiErrOther) (Abort.World.init nrank) :=
        fun r => by simp [Abort.step, show nrank = 0 by omega]
      exact List.cons_ne_nil _ _ (hall _ _ Abort.Run.init hfin).symm
    · have hre : dumpCheckpointDataToBinFile mpiErrOther 1 = .aborts mpiErrOther _ := rfl
      obtain ⟨w, hrun, hfin, hs, -⟩ := Abort.Run.silent_abort Nat.one_ne_zero h2 hre
      exact List.cons_ne_nil _ _ ((hall _ w hrun hfin).symm.trans hs)
  · rintro rfl sched w hrun hfin
    exact hrun.inv.stderr_of_one_rank ((habort sched w hrun hfin).2 Nat.one_pos)

end SqPatchMPIFileWriter

end SphExa.Writer
