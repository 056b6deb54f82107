import Mathlib.Algebra.Order.BigOperators.Group.Finset
import SphExa.Writer.Invariant

/-!
# Serialised writes and matched barriers

Two measures of a world, each tied to the run by one lemma per move: the file
operations the ranks have done, laid out rank by rank, and the turns of the
barriers each rank has entered. The synchronisation invariant makes the first a
prefix of the rank-ordered sequence and the second `0, 1, ...` for every rank.
-/

namespace SphExa.Writer

/-! ## List facts -/

/-- Changing the block of index `r` by appending `x`, all later blocks being empty, appends
`x` to the whole. -/
theorem flatMap_range_append {β : Type} {f g : Nat → List β} (r : Nat) {x : List β}
    (hsame : ∀ i, i ≠ r → g i = f i) (hr : g r = f r ++ x) :
    ∀ n, r < n → (∀ i < n, r < i → f i = []) →
      (List.range n).flatMap g = (List.range n).flatMap f ++ x
  | 0, h, _ => absurd h (Nat.not_lt_zero r)
  | m + 1, h, hlater => by
    rw [List.range_succ, List.flatMap_append, List.flatMap_append]
    by_cases hm : m = r
    · subst hm
      rw [List.flatMap_congr fun i hi => hsame i (Nat.ne_of_lt (List.mem_range.mp hi))]
      simp [hr]
    · have hlt : r < m := by omega
      have hf : f m = [] := hlater m (Nat.lt_succ_self m) hlt
      rw [flatMap_range_append r hsame hr m hlt fun i hi => hlater i (Nat.lt_succ_of_lt hi)]
      simp [hsame m hm, hf]

/-- Whether an event touches the shared file. -/
def Event.onFile : Event → Bool
  | .openFile .. | .write _ | .close _ => true
  | _ => false

/-- Rank `r`'s operations on the file in its own turn. -/
def fileTurn (r : Nat) : List Event :=
  [.openFile r (r == 0), .write r, .close r]

/-- The file operations in rank order: rank 0 truncates, every later rank appends, and each
rank's open, write and close come before the next rank's. -/
def serialFileOps (nrank : Nat) : List Event :=
  (List.range nrank).flatMap fileTurn

/-- How many of its file operations rank `r` has done at position `p`. -/
def Pc.fileOps (r : Nat) : Pc → Nat
  | .loop t => if r < t then 3 else 0
  | .opened _ | .escaped _ => 1
  | .written _ => 2
  | .closed _ | .returned => 3
  | .waiting t => if r ≤ t then 3 else 0

/-- The file operations the ranks of `w` have done, rank by rank. -/
def fileLog (nrank : Nat) (w : World) : List Event :=
  (List.range nrank).flatMap fun r => (fileTurn r).take ((w.pc r).fileOps r)

/-- A rank that has touched the file is in its own turn or later. -/
theorem Pc.le_turn_of_fileOps_pos {nrank r : Nat} {p : Pc} (hr : r < nrank)
    (hok : PcOk nrank r p) (h : 0 < p.fileOps r) : r ≤ p.turn nrank := by
  cases p <;> simp only [PcOk, Pc.fileOps, Pc.turn] at hok h ⊢ <;> (try split at h) <;> omega

/-- What one move does to the file operations: an event off the file leaves the rank's count,
an event on it is the rank's next operation, made while it has entered exactly `r` barriers. -/
theorem Move.fileOps {fileOpens : Nat → Bool} {nrank : Nat} {w : World} {r : Nat} {e : Event}
    {p : Pc} (hinv : Inv fileOpens nrank w) (hr : r < nrank) (hm : Move fileOpens w r e p) :
    (e.onFile = false ∧ p.fileOps r = (w.pc r).fileOps r) ∨
      (e.onFile = true ∧ p.fileOps r = (w.pc r).fileOps r + 1 ∧
        (fileTurn r)[(w.pc r).fileOps r]? = some e ∧ (w.pc r).entered nrank = r) := by
  have hok := hinv.pcOk r hr
  cases hm with
  | openFile hpc _ => right; simp [hpc, Pc.fileOps, Event.onFile, fileTurn, Pc.entered]
  | enter hpc _ hne =>
    left
    simp only [hpc, Pc.fileOps, Event.onFile, true_and]
    split_ifs <;> omega
  | exit hpc hle =>
    left
    have := hinv.nrank_eq
    simp only [hpc, Pc.fileOps, Event.onFile, true_and]
    split_ifs <;> omega
  | write hpc _ =>
    rw [hpc] at hok
    obtain ⟨rfl, _⟩ := hok
    right; simp [hpc, Pc.fileOps, Event.onFile, fileTurn, Pc.entered]
  | escape hpc _ => left; simp [hpc, Pc.fileOps, Event.onFile]
  | close hpc =>
    rw [hpc] at hok
    obtain ⟨rfl, _⟩ := hok
    right; simp [hpc, Pc.fileOps, Event.onFile, fileTurn, Pc.entered]
  | enterOwn hpc =>
    rw [hpc] at hok
    obtain ⟨rfl, _⟩ := hok
    left; simp [hpc, Pc.fileOps, Event.onFile]
  | leave hpc _ =>
    left
    simp only [hpc, Pc.fileOps, Event.onFile, true_and]
    split_ifs <;> omega

/-- The file operations of a run are those its ranks have done, rank by rank. -/
theorem Run.filter_onFile {fileOpens : Nat → Bool} {nrank : Nat} {tr : List Event} {w : World}
    (h : Run fileOpens nrank tr w) : tr.filter Event.onFile = fileLog nrank w := by
  induction h with
  | init =>
    refine (List.flatMap_eq_nil_iff.mpr fun i hi => ?_).symm
    simp [World.pc_init (List.mem_range.mp hi), Pc.fileOps]
  | @snoc tr w w' r e hrun hs ih =>
    have hinv := hrun.inv
    obtain ⟨_, hr, p, hm, rfl⟩ := step_move hs
    have hrn : r < nrank := hinv.nrank_eq ▸ hr
    have hpc := World.pc_set hr p
    rw [List.filter_append, ih]
    rcases hm.fileOps hinv hrn with ⟨hoff, hops⟩ | ⟨hon, hops, he, hent⟩
    · simp only [List.filter_singleton, hoff, cond_false, List.append_nil, fileLog]
      symm
      refine List.flatMap_congr fun i _ => ?_
      rw [hpc]
      split
      · subst i; rw [hops]
      · rfl
    · simp only [List.filter_singleton, hon, cond_true, fileLog]
      symm
      refine flatMap_range_append r (fun i hi => ?_) ?_ nrank hrn fun i hi hri => ?_
      · rw [hpc, if_neg hi]
      · rw [hpc, if_pos rfl, hops, List.take_succ, he]
        rfl
      · have hzero : (w.pc i).fileOps i = 0 := by
          by_contra hne
          have hle := (Pc.le_turn_of_fileOps_pos hi (hinv.pcOk i hi)
            (Nat.pos_of_ne_zero hne)).trans (hinv.sync i hi r hrn)
          omega
        simp [hzero]

/-- The turns of the barriers rank `r` enters, in the order of the run. -/
def barrierTurns (r : Nat) (tr : List Event) : List Nat :=
  tr.filterMap fun e => match e with
    | .enterBarrier r' t => if r' = r then some t else none
    | _ => none

/-- What one move does to the barriers: the mover enters the barrier of the turn its count
has reached, or its count stays and the event enters no barrier. -/
theorem Move.entered {fileOpens : Nat → Bool} {nrank : Nat} {w : World} {r : Nat} {e : Event}
    {p : Pc} (hinv : Inv fileOpens nrank w) (hr : r < nrank) (hm : Move fileOpens w r e p) :
    (∃ t, e = .enterBarrier r t ∧ (w.pc r).entered nrank = t ∧ p.entered nrank = t + 1) ∨
      ((∀ r' t, e ≠ .enterBarrier r' t) ∧ p.entered nrank = (w.pc r).entered nrank) := by
  have hok := hinv.pcOk r hr
  cases hm with
  | openFile hpc _ => right; simp [hpc, Pc.entered]
  | enter hpc _ _ => left; simp [hpc, Pc.entered]
  | exit hpc hle =>
    right
    rw [hpc] at hok
    simp only [PcOk] at hok
    have := hinv.nrank_eq
    simp only [hpc, Pc.entered, ne_eq, reduceCtorEq, not_false_eq_true, implies_true, true_and]
    omega
  | write hpc _ => right; simp [hpc, Pc.entered]
  | escape hpc _ => right; simp [hpc, Pc.entered]
  | close hpc => right; simp [hpc, Pc.entered]
  | enterOwn hpc => left; simp [hpc, Pc.entered]
  | leave hpc _ => right; simp [hpc, Pc.entered]

/-- In every run, each rank has entered the barriers of turns `0, 1, ...` in order, one for
each barrier its position counts. -/
theorem Run.barrierTurns_eq {fileOpens : Nat → Bool} {nrank : Nat} {tr : List Event} {w : World}
    (h : Run fileOpens nrank tr w) :
    ∀ r < nrank, barrierTurns r tr = List.range ((w.pc r).entered nrank) := by
  induction h with
  | init => intro r hr; simp [barrierTurns, World.pc_init hr, Pc.entered]
  | @snoc tr w w' r e hrun hs ih =>
    have hinv := hrun.inv
    obtain ⟨_, hr, p, hm, rfl⟩ := step_move hs
    have hrn : r < nrank := hinv.nrank_eq ▸ hr
    intro a ha
    rw [barrierTurns, List.filterMap_append, ← barrierTurns, ih a ha, World.pc_set hr]
    rcases hm.entered hinv hrn with ⟨t, rfl, hold, hnew⟩ | ⟨hnot, hsame⟩
    · by_cases hab : a = r
      · subst a
        simp [hold, hnew, List.range_succ]
      · simp [hab, Ne.symm hab]
    · have hnil : ∀ r', (match e with
          | .enterBarrier r'' t => if r'' = r' then some t else none
          | _ => none) = none := by
        intro r'
        cases e with
        | enterBarrier r'' t => exact absurd rfl (hnot r'' t)
        | _ => rfl
      simp only [List.filterMap_cons, hnil, List.filterMap_nil, List.append_nil]
      split
      · subst a; rw [hsame]
      · rfl

end SphExa.Writer
