import SphExa.Writer.TurnLoop

/-!
# The invariant of the MPI writer's runs

Every reachable world keeps the ranks in step: no rank has left more barriers
than any rank has entered. A rank writes only in its own turn, so this
synchronisation orders the writes by rank. The step lemma is proved once per
move of `Move`; the run lemma follows by induction on the run.
-/

namespace SphExa.Writer

/-- The positions rank `r` can be in on `nrank` ranks: the file is touched only in the
rank's own turn. -/
def PcOk (nrank r : Nat) : Pc → Prop
  | .loop t => t ≤ nrank
  | .opened t | .written t | .closed t | .escaped t => t = r ∧ r < nrank
  | .waiting t => t < nrank
  | .returned => True

/-- The invariant of every reachable world. -/
structure Inv (fileOpens : Nat → Bool) (nrank : Nat) (w : World) : Prop where
  /-- The number of ranks is fixed. -/
  nrank_eq : w.nrank = nrank
  /-- `MPI_Abort` is never reached. -/
  not_aborted : w.aborted = false
  /-- Every rank is in a position of its own. -/
  pcOk : ∀ r < nrank, PcOk nrank r (w.pc r)
  /-- No rank is past a barrier that another rank has not entered. -/
  sync : ∀ r < nrank, ∀ r' < nrank, (w.pc r).turn nrank ≤ (w.pc r').entered nrank
  /-- Only a rank whose write fails leaves by an exception. -/
  escaped : ∀ r < nrank, ∀ t, w.pc r = .escaped t → fileOpens r = false

theorem inv_init (fileOpens : Nat → Bool) (nrank : Nat) :
    Inv fileOpens nrank (World.init nrank) where
  nrank_eq := World.nrank_init nrank
  not_aborted := rfl
  pcOk r hr := by simp [World.pc_init hr, PcOk]
  sync r hr r' hr' := by simp [World.pc_init hr, World.pc_init hr', Pc.turn, Pc.entered]
  escaped r hr t h := by simp [World.pc_init hr] at h

section Step

variable {fileOpens : Nat → Bool} {nrank : Nat} {w : World} {r : Nat} {e : Event} {p : Pc}

/-- What one move does to the moving rank: its new position is one of its own, it enters
no fewer barriers, and it reaches a later turn only past barriers every rank has entered. -/
theorem Move.bounds (hinv : Inv fileOpens nrank w) (hr : r < nrank)
    (hm : Move fileOpens w r e p) :
    PcOk nrank r p ∧ (w.pc r).entered nrank ≤ p.entered nrank ∧
      (p.turn nrank ≤ (w.pc r).turn nrank ∨
        ∀ r' < nrank, p.turn nrank ≤ (w.pc r').entered nrank) ∧
      (∀ t, p = .escaped t → fileOpens r = false) := by
  have hok := hinv.pcOk r hr
  rw [← hinv.nrank_eq] at hr
  cases hm with
  | openFile hpc hlt =>
    rw [hpc] at hok ⊢
    exact ⟨⟨rfl, hinv.nrank_eq ▸ hlt⟩, le_rfl, .inl le_rfl, by simp⟩
  | enter hpc hlt _ =>
    rw [hpc] at hok ⊢
    exact ⟨hinv.nrank_eq ▸ hlt, Nat.le_succ _, .inl le_rfl, by simp⟩
  | exit hpc hle =>
    rw [hpc] at hok ⊢
    simp only [PcOk] at hok
    have ht : _ = nrank := le_antisymm hok (hinv.nrank_eq ▸ hle)
    subst ht
    exact ⟨trivial, le_rfl, .inl le_rfl, by simp⟩
  | write hpc _ =>
    rw [hpc] at hok ⊢
    exact ⟨hok, le_rfl, .inl le_rfl, by simp⟩
  | escape hpc hf =>
    rw [hpc] at hok ⊢
    exact ⟨hok, le_rfl, .inl le_rfl, fun _ _ => hf⟩
  | close hpc =>
    rw [hpc] at hok ⊢
    exact ⟨hok, le_rfl, .inl le_rfl, by simp⟩
  | enterOwn hpc =>
    rw [hpc] at hok ⊢
    obtain ⟨rfl, hlt⟩ := hok
    exact ⟨hlt, Nat.le_succ _, .inl le_rfl, by simp⟩
  | leave hpc hall =>
    rw [hpc] at hok ⊢
    exact ⟨hok, le_rfl, .inr fun r' hr' => hinv.nrank_eq ▸ hall r' (hinv.nrank_eq ▸ hr'),
      by simp⟩

/-- The step lemma: every step keeps the invariant. -/
theorem Inv.of_step (hinv : Inv fileOpens nrank w) {w' : World}
    (h : step fileOpens w r = some (e, w')) : Inv fileOpens nrank w' := by
  obtain ⟨ha, hr, p, hm, rfl⟩ := step_move h
  have hrn : r < nrank := hinv.nrank_eq ▸ hr
  obtain ⟨hok, hent, hturn, hesc⟩ := hm.bounds hinv hrn
  have hpc := World.pc_set hr p
  refine ⟨by simp [hinv.nrank_eq], by simp [ha], fun a ha' => ?_, fun a ha' b hb => ?_,
    fun a ha' t => ?_⟩
  · rw [hpc]
    split
    · subst a; exact hok
    · exact hinv.pcOk a ha'
  · rw [hpc, hpc]
    have hle : ((w.set r p).pc b).entered nrank ≥ (w.pc b).entered nrank := by
      rw [hpc]; split
      · subst b; exact hent
      · exact le_rfl
    by_cases hab : a = r
    · subst a
      simp only [if_true]
      rcases hturn with hturn | hturn
      · exact le_trans hturn (le_trans (hinv.sync r hrn b hb) (by rw [← hpc]; exact hle))
      · exact le_trans (hturn b hb) (by rw [← hpc]; exact hle)
    · simp only [hab, if_false]
      exact le_trans (hinv.sync a ha' b hb) (by rw [← hpc]; exact hle)
  · rw [hpc]
    split
    · subst a; exact hesc t
    · exact hinv.escaped a ha' t

end Step

/-- The run lemma: every reachable world satisfies the invariant. -/
theorem Run.inv {fileOpens : Nat → Bool} {nrank : Nat} {tr : List Event} {w : World}
    (h : Run fileOpens nrank tr w) : Inv fileOpens nrank w := by
  induction h with
  | init => exact inv_init fileOpens nrank
  | snoc _ hs ih => exact ih.of_step hs

end SphExa.Writer
