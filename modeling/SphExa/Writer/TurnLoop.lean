import Mathlib.Data.List.Basic

/-!
# The ranks of the MPI ASCII writer

`SqPatchMPIFileWriter::dumpParticleDataToAsciiFile` serialises the ranks'
writes to one file: in turn `turn`, the rank with `d.rank == turn` opens the
file (truncating it on rank 0, appending otherwise), writes, closes and enters
`MPI_Barrier`; every other rank only enters the barrier. Each rank is a program
counter; a world holds them all, indexed by rank, and one step moves one rank.
A rank leaves the barrier of a turn only once every rank has entered it.

`fileutils::writeParticleDataToAsciiFile` is not part of the sources; what it
raises when the file cannot be opened is taken from its sequential caller.
-/

namespace SphExa.Writer

/-- The exceptions of the file writers. -/
inductive IoException where
  /-- `FileNotOpenedException`. -/
  | fileNotOpened
  /-- `MPIFileNotOpenedException`, carrying the MPI error code `mpierr`. -/
  | mpiFileNotOpened (mpierr : Int)
  deriving DecidableEq, Repr

/-- Modelled from the spec: `fileutils::writeParticleDataToAsciiFile` is not under src/ and
the spec leaves file I/O to an external collaborator. It writes when the file can be opened
and raises `FileNotOpenedException` otherwise, the type that
`SqPatchFileWriter::dumpParticleDataToAsciiFile` catches around this same call. -/
def writeParticleDataToAsciiFile (fileOpens : Bool) : Except IoException Unit :=
  if fileOpens then .ok () else .error .fileNotOpened

/-- Where one rank is in `SqPatchMPIFileWriter::dumpParticleDataToAsciiFile`. -/
inductive Pc where
  /-- At the loop test, `turn` being the loop variable. -/
  | loop (turn : Nat)
  /-- In its own turn: `dump.open` done, the `try` block next. -/
  | opened (turn : Nat)
  /-- The write returned; `dump.close()` next. -/
  | written (turn : Nat)
  /-- `dump.close()` done; `MPI_Barrier` next. -/
  | closed (turn : Nat)
  /-- Inside the `MPI_Barrier` of this turn. -/
  | waiting (turn : Nat)
  /-- The loop ended and the function returned. -/
  | returned
  /-- An exception left the function during this turn. -/
  | escaped (turn : Nat)
  deriving DecidableEq, Repr

namespace Pc

/-- The barriers a rank has entered. -/
def entered (nrank : Nat) : Pc → Nat
  | loop t | opened t | written t | closed t | escaped t => t
  | waiting t => t + 1
  | returned => nrank

/-- The barriers a rank has left: the turn it is in. -/
def turn (nrank : Nat) : Pc → Nat
  | loop t | opened t | written t | closed t | waiting t | escaped t => t
  | returned => nrank

end Pc

/-- What the run observes: the file operations of the writer, the barrier calls, and how
each rank leaves the function. -/
inductive Event where
  /-- `dump.open(path)` (`truncate`) or `dump.open(path, std::ios_base::app)`. -/
  | openFile (rank : Nat) (truncate : Bool)
  /-- `fileutils::writeParticleDataToAsciiFile` returned. -/
  | write (rank : Nat)
  /-- `dump.close()`. -/
  | close (rank : Nat)
  /-- The rank enters the barrier of a turn. -/
  | enterBarrier (rank turn : Nat)
  /-- The rank leaves the barrier of a turn. -/
  | leaveBarrier (rank turn : Nat)
  /-- The loop ended and the function returned. -/
  | exit (rank : Nat)
  /-- An exception left the function. -/
  | escape (rank : Nat) (e : IoException)
  /-- `MPI_Abort(d.comm, errorcode)`. -/
  | abort (rank : Nat) (errorcode : Int)
  deriving DecidableEq, Repr

/-- All ranks of one call of the writer. -/
structure World where
  /-- Each rank's position, indexed by `d.rank`; there are `d.nrank` of them. -/
  ranks : List Pc
  /-- `MPI_Abort` was called: every rank of the run is gone. -/
  aborted : Bool
  deriving DecidableEq, Repr

namespace World

/-- Every rank at the loop test with `turn = 0`. -/
def init (nrank : Nat) : World :=
  ⟨List.replicate nrank (.loop 0), false⟩

/-- `d.nrank`. -/
def nrank (w : World) : Nat :=
  w.ranks.length

/-- The position of rank `r`. -/
def pc (w : World) (r : Nat) : Pc :=
  w.ranks.getD r .returned

/-- Rank `r` moves to `p`. -/
def set (w : World) (r : Nat) (p : Pc) : World :=
  { w with ranks := w.ranks.set r p }

@[simp] theorem nrank_init (nrank : Nat) : (init nrank).nrank = nrank := by
  simp [init, World.nrank]

@[simp] theorem pc_init {nrank r : Nat} (hr : r < nrank) : (init nrank).pc r = .loop 0 := by
  simp [init, pc, hr]

@[simp] theorem nrank_set (w : World) (r : Nat) (p : Pc) : (w.set r p).nrank = w.nrank := by
  simp [set, World.nrank]

@[simp] theorem aborted_set (w : World) (r : Nat) (p : Pc) : (w.set r p).aborted = w.aborted :=
  rfl

theorem pc_set {w : World} {r : Nat} (hr : r < w.nrank) (p : Pc) (r' : Nat) :
    (w.set r p).pc r' = if r' = r then p else w.pc r' := by
  have hr' : r < w.ranks.length := hr
  by_cases h : r' = r
  · subst h
    simp [set, pc, List.getElem?_set, hr']
  · simp [set, pc, List.getElem?_set, Ne.symm h, h]

end World

/-- One step of rank `r`, `fileOpens r` telling whether its write finds the file: the event
and the next world, or `none` when the rank cannot move. -/
def step (fileOpens : Nat → Bool) (w : World) (r : Nat) : Option (Event × World) :=
  if w.aborted || w.nrank ≤ r then none else
  match w.pc r with
  | .loop turn =>
    if turn < w.nrank then
      if turn = r then some (.openFile r (r == 0), w.set r (.opened turn))
      else some (.enterBarrier r turn, w.set r (.waiting turn))
    else some (.exit r, w.set r .returned)
  | .opened turn =>
    match writeParticleDataToAsciiFile (fileOpens r) with
    | .ok () => some (.write r, w.set r (.written turn))
    | .error (.mpiFileNotOpened mpierr) => some (.abort r mpierr, { w with aborted := true })
    | .error e => some (.escape r e, w.set r (.escaped turn))
  | .written turn => some (.close r, w.set r (.closed turn))
  | .closed turn => some (.enterBarrier r turn, w.set r (.waiting turn))
  | .waiting turn =>
    if (List.range w.nrank).all fun r' => turn + 1 ≤ (w.pc r').entered w.nrank then
      some (.leaveBarrier r turn, w.set r (.loop (turn + 1)))
    else none
  | .returned | .escaped _ => none

/-- The runs of one call on `nrank` ranks: the events so far and the world they lead to. -/
inductive Run (fileOpens : Nat → Bool) (nrank : Nat) : List Event → World → Prop
  | init : Run fileOpens nrank [] (World.init nrank)
  | snoc {tr : List Event} {w w' : World} {r : Nat} {e : Event} :
      Run fileOpens nrank tr w → step fileOpens w r = some (e, w') →
      Run fileOpens nrank (tr ++ [e]) w'

/-- What a step of rank `r` can do, each move with its guard. -/
inductive Move (fileOpens : Nat → Bool) (w : World) (r : Nat) : Event → Pc → Prop
  /-- `turn == d.rank`: open the file. -/
  | openFile : w.pc r = .loop r → r < w.nrank → Move fileOpens w r (.openFile r (r == 0)) (.opened r)
  /-- Another rank's turn: enter the barrier. -/
  | enter {t : Nat} : w.pc r = .loop t → t < w.nrank → t ≠ r →
      Move fileOpens w r (.enterBarrier r t) (.waiting t)
  /-- The loop test fails: return. -/
  | exit {t : Nat} : w.pc r = .loop t → w.nrank ≤ t → Move fileOpens w r (.exit r) .returned
  /-- The write finds the file. -/
  | write {t : Nat} : w.pc r = .opened t → fileOpens r = true →
      Move fileOpens w r (.write r) (.written t)
  /-- The write raises `FileNotOpenedException`, which the `catch` does not handle. -/
  | escape {t : Nat} : w.pc r = .opened t → fileOpens r = false →
      Move fileOpens w r (.escape r .fileNotOpened) (.escaped t)
  /-- `dump.close()`. -/
  | close {t : Nat} : w.pc r = .written t → Move fileOpens w r (.close r) (.closed t)
  /-- After its own write, the rank enters the barrier. -/
  | enterOwn {t : Nat} : w.pc r = .closed t → Move fileOpens w r (.enterBarrier r t) (.waiting t)
  /-- Every rank has entered the barrier: leave it. -/
  | leave {t : Nat} : w.pc r = .waiting t →
      (∀ r' < w.nrank, t + 1 ≤ (w.pc r').entered w.nrank) →
      Move fileOpens w r (.leaveBarrier r t) (.loop (t + 1))

/-- Every step is a move of one rank, which changes that rank alone and never aborts: the
write never raises what the `catch` handles. -/
theorem step_move {fileOpens : Nat → Bool} {w w' : World} {r : Nat} {e : Event}
    (h : step fileOpens w r = some (e, w')) :
    w.aborted = false ∧ r < w.nrank ∧ ∃ p, Move fileOpens w r e p ∧ w' = w.set r p := by
  unfold step at h
  by_cases hg : (w.aborted || w.nrank ≤ r) = true
  · simp [hg] at h
  · have ha : w.aborted = false := by simp at hg; exact hg.1
    have hr : r < w.nrank := by simp at hg; exact hg.2
    refine ⟨ha, hr, ?_⟩
    simp only [hg, Bool.false_eq_true, if_false] at h
    cases hpc : w.pc r with
    | loop t =>
      simp only [hpc] at h
      by_cases ht : t < w.nrank
      · by_cases htr : t = r
        · subst htr
          simp only [ht, if_true, Option.some.injEq, Prod.mk.injEq] at h
          exact ⟨_, h.1 ▸ .openFile hpc ht, h.2.symm⟩
        · simp only [ht, htr, if_true, if_false, Option.some.injEq, Prod.mk.injEq] at h
          exact ⟨_, h.1 ▸ .enter hpc ht htr, h.2.symm⟩
      · simp only [ht, if_false, Option.some.injEq, Prod.mk.injEq] at h
        exact ⟨_, h.1 ▸ .exit hpc (Nat.le_of_not_lt ht), h.2.symm⟩
    | opened t =>
      cases hf : fileOpens r
      · simp only [hpc, hf, writeParticleDataToAsciiFile, Bool.false_eq_true, if_false,
          Option.some.injEq, Prod.mk.injEq] at h
        exact ⟨_, h.1 ▸ .escape hpc hf, h.2.symm⟩
      · simp only [hpc, hf, writeParticleDataToAsciiFile, if_true, Option.some.injEq,
          Prod.mk.injEq] at h
        exact ⟨_, h.1 ▸ .write hpc hf, h.2.symm⟩
    | written t =>
      simp only [hpc, Option.some.injEq, Prod.mk.injEq] at h
      exact ⟨_, h.1 ▸ .close hpc, h.2.symm⟩
    | closed t =>
      simp only [hpc, Option.some.injEq, Prod.mk.injEq] at h
      exact ⟨_, h.1 ▸ .enterOwn hpc, h.2.symm⟩
    | waiting t =>
      simp only [hpc] at h
      by_cases hall : ((List.range w.nrank).all fun r' => t + 1 ≤ (w.pc r').entered w.nrank) = true
      · simp only [hall, if_true, Option.some.injEq, Prod.mk.injEq] at h
        have hall' : ∀ r' < w.nrank, t + 1 ≤ (w.pc r').entered w.nrank := by
          simpa using hall
        exact ⟨_, h.1 ▸ .leave hpc hall', h.2.symm⟩
      · simp [hall] at h
    | returned => simp [hpc] at h
    | escaped t => simp [hpc] at h

end SphExa.Writer
