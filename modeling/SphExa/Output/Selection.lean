import SphExa.Output.Loop

/-!
# Positions of selected particles

`getSelectedParticleIndexes` finds the id column by name among the requested
output fields and searches the rank's whole id buffer for the first occurrence
of each selected id. The buffer holds owned particles and halo copies alike,
and the search never sees the owned range, although the function is documented to
return positions "in local domain": a selected particle is found at its first
position in the buffer, owned or not.
-/

namespace SphExa

variable {T : Type}

/-- The field index of the column named `"id"`:
`outputFieldIndices[find(outputFieldNames, "id") - begin]`. -/
def FieldData.idColumn (d : FieldData T) : Nat :=
  d.outputFieldIndices.getD (d.outputFieldNames.indexOf "id") 0

/-- The positions pushed by the `for_each` over the selected ids: the first occurrence of
each one in the id buffer, skipped when `find` reaches the end. -/
def firstOccurrences (localParticleIds selParticlesIds : List UInt64) : List Nat :=
  selParticlesIds.filterMap fun selParticleId =>
    let selParticleIndex := localParticleIds.indexOf selParticleId
    if selParticleIndex < localParticleIds.length then some selParticleIndex else none

/-- `Propagator::getSelectedParticleIndexes`. -/
def getSelectedParticleIndexes (selParticlesIds : List UInt64) (hydroSimData : FieldData T) :
    Except Exception (List Nat) := do
  let localParticleIds ← (hydroSimData.fieldPointer hydroSimData.idColumn).getUInt64
  pure (firstOccurrences localParticleIds selParticlesIds)

/-- The search keeps the selected ids present in the buffer, in selection order, each at
its first occurrence. -/
theorem firstOccurrences_eq (ids sel : List UInt64) :
    firstOccurrences ids sel = (sel.filter (· ∈ ids)).map ids.indexOf := by
  induction sel with
  | nil => rfl
  | cons s sel ih =>
    by_cases hs : s ∈ ids
    · simp [firstOccurrences, List.indexOf_lt_length.mpr hs, hs] at ih ⊢
      exact ih
    · have hn : ¬ ids.indexOf s < ids.length := fun h => hs (List.indexOf_lt_length.mp h)
      simp [firstOccurrences, hn, hs] at ih ⊢
      exact ih

/-- Reading the buffer at the returned positions gives back the selected ids found. -/
theorem filterMap_getElem?_firstOccurrences (ids sel : List UInt64) :
    (firstOccurrences ids sel).filterMap (ids[·]?) = sel.filter (· ∈ ids) := by
  rw [firstOccurrences_eq]
  induction sel with
  | nil => rfl
  | cons s sel ih => by_cases hs : s ∈ ids <;> simp [List.filter_cons, hs, ih]

/-- With the id column read as `ids`, the selection runs without exception and returns the
first occurrences. -/
theorem getSelectedParticleIndexes_eq (sel : List UInt64) {d : FieldData T} {ids : List UInt64}
    (hids : d.fieldPointer d.idColumn = .uint64 ids) :
    getSelectedParticleIndexes sel d = .ok (firstOccurrences ids sel) := by
  simp only [getSelectedParticleIndexes, hids, FieldVariant.getUInt64]
  rfl

/-- A rank whose id buffer holds particle `7` twice: a stale copy at position `0` and the
owned one at position `1`, the owned range being `[1, 2)`. -/
def staleCopyHydro : FieldData Int :=
  ⟨[⟨"id", true, .uint64 [7, 7]⟩], [0], ["id"]⟩

/-- Selecting `7` on that rank returns the stale position `0`, outside the owned range
`[1, 2)`, and not the owned position `1`: the search runs over the whole buffer. -/
theorem getSelectedParticleIndexes_outside_owned_range :
    ∃ positions, getSelectedParticleIndexes [7] staleCopyHydro = .ok positions ∧
      (∃ p ∈ positions, ¬ (1 ≤ p ∧ p < 2)) ∧ 1 ∉ positions :=
  ⟨[0], rfl, ⟨0, List.mem_singleton_self 0, by decide⟩, by decide⟩

/-! ## The id column of the selected output -/

/-- On positions inside every allocated field, the selected output is the closed form of the
full loop with each payload read at the positions. -/
theorem outputSelParticlesAllocatedFields_eq_afterIterations {d : FieldData T}
    {positions : List Nat} (hpar : d.outputFieldNames.length = d.outputFieldIndices.length)
    (hpos : ∀ i, d.isAllocated i = true → ∀ p ∈ positions, p < (d.fieldPointer i).length) :
    outputSelParticlesAllocatedFields positions d =
      .ok ((afterIterations d id 0).calls.map (WriteCall.select positions)) := by
  have hinit : OutputState.init d = (OutputState.init d).selectCalls positions := rfl
  rw [outputSelParticlesAllocatedFields, hinit, outputLoop_gather d positions hpos,
    outputLoop_init d .ok id hpar fun _ _ _ => rfl]
  rfl

/-- The call of the position named `"id"`, read at the selected positions. -/
theorem idCall_mem {d : FieldData T} (positions : List Nat)
    (hid : "id" ∈ d.outputFieldNames)
    (hpar : d.outputFieldNames.length = d.outputFieldIndices.length)
    (halloc : d.isAllocated d.idColumn = true) :
    ⟨"id", (d.fieldPointer d.idColumn).select positions, d.outputFieldIndices.indexOf d.idColumn⟩ ∈
      (afterIterations d id 0).calls.map (WriteCall.select positions) := by
  have hj : d.outputFieldNames.indexOf "id" < d.outputFieldNames.length :=
    List.indexOf_lt_length.mpr hid
  have hkey : d.outputFieldNames.getD (d.outputFieldNames.indexOf "id") "" = "id" := by
    rw [List.getD_eq_getElem _ _ hj, List.getElem_indexOf hj]
  refine List.mem_map.mpr ⟨requestedCall d id (d.outputFieldNames.indexOf "id"), ?_, ?_⟩
  · refine List.mem_map_of_mem _ (List.mem_filter.mpr ⟨?_, halloc⟩)
    simpa [List.mem_range'] using hpar ▸ hj
  · simp only [requestedCall, WriteCall.select, hkey]
    rfl

/-- With `"id"` among the requested names, alongside their indices, the selection returns, in
selection order, the first occurrence of each selected id present in the buffer; each returned
position holds its selected id, and on a dataset whose allocated fields all have the buffer's
length the selected output raises nothing and writes as its `"id"` column exactly the selected
ids present, in selection order. -/
theorem getSelectedParticleIndexes_selects_present_ids (sel : List UInt64) (d : FieldData T)
    (ids : List UInt64) (hid : "id" ∈ d.outputFieldNames)
    (hpar : d.outputFieldNames.length = d.outputFieldIndices.length)
    (hids : d.fieldPointer d.idColumn = .uint64 ids)
    (hlen : ∀ i, d.isAllocated i = true → (d.fieldPointer i).length = ids.length) :
    getSelectedParticleIndexes sel d = .ok ((sel.filter (· ∈ ids)).map ids.indexOf) ∧
    ((sel.filter (· ∈ ids)).map ids.indexOf).map (ids[·]?) = (sel.filter (· ∈ ids)).map some ∧
    ∃ calls, outputSelParticlesAllocatedFields ((sel.filter (· ∈ ids)).map ids.indexOf) d =
        .ok calls ∧
      (d.isAllocated d.idColumn = true →
        ⟨"id", .uint64 (sel.filter (· ∈ ids)), d.outputFieldIndices.indexOf d.idColumn⟩ ∈ calls) := by
  have hpos : ∀ i, d.isAllocated i = true →
      ∀ p ∈ (sel.filter (· ∈ ids)).map ids.indexOf, p < (d.fieldPointer i).length := by
    intro i hi p hp
    obtain ⟨s, hs, rfl⟩ := List.mem_map.mp hp
    rw [hlen i hi]
    exact List.indexOf_lt_length.mpr (by simpa using (List.mem_filter.mp hs).2)
  refine ⟨firstOccurrences_eq ids sel ▸ getSelectedParticleIndexes_eq sel hids, ?_,
    _, outputSelParticlesAllocatedFields_eq_afterIterations hpar hpos, fun halloc => ?_⟩
  · rw [List.map_map]
    apply List.map_congr_left
    intro s hs
    exact List.getElem?_indexOf (by simpa using (List.mem_filter.mp hs).2)
  · have hsel : (FieldVariant.uint64 ids : FieldVariant T).select
        ((sel.filter (· ∈ ids)).map ids.indexOf) = .uint64 (sel.filter (· ∈ ids)) := by
      rw [FieldVariant.select, ← firstOccurrences_eq, filterMap_getElem?_firstOccurrences]
    have hm := idCall_mem ((sel.filter (· ∈ ids)).map ids.indexOf) hid hpar halloc
    rwa [hids, hsel] at hm

/-- A rank holding particles `10` and `20`, both fields allocated. -/
def twoParticleHydro : FieldData Int :=
  ⟨[⟨"x", true, .real [1, 2]⟩, ⟨"id", true, .uint64 [10, 20]⟩], [0, 1], ["x", "id"]⟩

/-- Selecting `20`, `30` and `20` on that rank. -/
theorem twoParticleHydro_selects_present_ids :
    "id" ∈ twoParticleHydro.outputFieldNames ∧
    twoParticleHydro.outputFieldNames.length = twoParticleHydro.outputFieldIndices.length ∧
    twoParticleHydro.fieldPointer twoParticleHydro.idColumn = .uint64 [10, 20] ∧
    (∀ i, twoParticleHydro.isAllocated i = true →
      (twoParticleHydro.fieldPointer i).length = [(10 : UInt64), 20].length) ∧
    (getSelectedParticleIndexes [20, 30, 20] twoParticleHydro =
      .ok (([(20 : UInt64), 30, 20].filter (· ∈ [(10 : UInt64), 20])).map
        [(10 : UInt64), 20].indexOf) ∧
    (([(20 : UInt64), 30, 20].filter (· ∈ [(10 : UInt64), 20])).map
        [(10 : UInt64), 20].indexOf).map ([(10 : UInt64), 20][·]?) =
      ([(20 : UInt64), 30, 20].filter (· ∈ [(10 : UInt64), 20])).map some ∧
    ∃ calls, outputSelParticlesAllocatedFields
        (([(20 : UInt64), 30, 20].filter (· ∈ [(10 : UInt64), 20])).map
          [(10 : UInt64), 20].indexOf) twoParticleHydro = .ok calls ∧
      (twoParticleHydro.isAllocated twoParticleHydro.idColumn = true →
        ⟨"id", .uint64 ([(20 : UInt64), 30, 20].filter (· ∈ [(10 : UInt64), 20])),
          twoParticleHydro.outputFieldIndices.indexOf twoParticleHydro.idColumn⟩ ∈ calls)) := by
  have hid : "id" ∈ twoParticleHydro.outputFieldNames := by decide
  have hpar : twoParticleHydro.outputFieldNames.length =
      twoParticleHydro.outputFieldIndices.length := rfl
  have hids : twoParticleHydro.fieldPointer twoParticleHydro.idColumn = .uint64 [10, 20] := rfl
  have hlen : ∀ i, twoParticleHydro.isAllocated i = true →
      (twoParticleHydro.fieldPointer i).length = [(10 : UInt64), 20].length := by
    intro i hi
    match i, hi with
    | 0, _ => rfl
    | 1, _ => rfl
  exact ⟨hid, hpar, hids, hlen,
    getSelectedParticleIndexes_selects_present_ids [20, 30, 20] twoParticleHydro [10, 20]
      hid hpar hids hlen⟩

end SphExa
