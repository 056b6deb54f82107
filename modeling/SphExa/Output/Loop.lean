import Mathlib.Data.List.Nodup
import SphExa.Output.Fields

/-!
# The reverse output loop of the propagator

`outputAllocatedFields` and `outputSelParticlesAllocatedFields` run one loop:
from the last requested field down to the first, every allocated field is
written and erased from the working copies `indicesDone` and `namesDone`. The
two copies differ only in the payload the visitor hands to `writeField`, so the
loop is one definition with the payload as its parameter. After the loop,
`outputAllocatedFields` prints on rank 0 a warning about what is left over.

The run lemma `outputLoop_afterIterations` gives the state of the loop after
every iteration in closed form: erasing at the current index never disturbs the
indices still to be visited.
-/

namespace SphExa

variable {T : Type}

/-- The loop's working state: the copies `indicesDone`, `namesDone` and the
`writeField` calls issued so far. -/
structure OutputState (T : Type) where
  /-- The requested field indices not yet written. -/
  indicesDone : List Nat
  /-- Their names. -/
  namesDone : List String
  /-- The `writeField` calls in the order they were made. -/
  calls : List (WriteCall T)
  deriving DecidableEq, Repr

/-- The state before the first iteration: copies of the requested indices and names. -/
def OutputState.init (d : FieldData T) : OutputState T :=
  ⟨d.outputFieldIndices, d.outputFieldNames, []⟩

/-- One iteration at index `i`. `payload` is what the visitor passes to `writeField`:
the whole field in `outputAllocatedFields`, its gathered copy in
`outputSelParticlesAllocatedFields`. -/
def outputStep (d : FieldData T) (payload : FieldVariant T → Except Exception (FieldVariant T))
    (i : Nat) (s : OutputState T) : Except Exception (OutputState T) := do
  let fidx := s.indicesDone.getD i 0
  if d.isAllocated fidx then
    let column := d.outputFieldIndices.indexOf fidx
    let field ← payload (d.fieldPointer fidx)
    pure ⟨s.indicesDone.eraseIdx i, s.namesDone.eraseIdx i,
      s.calls ++ [⟨s.namesDone.getD i "", field, column⟩]⟩
  else
    pure s

/-- `for (int i = int(indicesDone.size()) - 1; i >= 0; --i)`: `outputLoop d payload k`
runs the iterations `k - 1` down to `0`. -/
def outputLoop (d : FieldData T) (payload : FieldVariant T → Except Exception (FieldVariant T)) :
    Nat → OutputState T → Except Exception (OutputState T)
  | 0, s => .ok s
  | k + 1, s => outputStep d payload k s >>= outputLoop d payload k

/-- The warning printed on rank 0: `fieldNames[fidx]` followed by a comma for `fidx`
from `0` to `indicesDone.size() - 2`, then `fieldNames[indicesDone.back()]`. -/
def warningLine (d : FieldData T) (indicesDone : List Nat) : String :=
  "WARNING: the following fields are not in use and therefore not output: " ++
    String.join ((List.range (indicesDone.length - 1)).map fun fidx => d.fieldName fidx ++ ",") ++
    d.fieldName (indicesDone.getLastD 0) ++ "\n"

/-- The `output` lambda of `outputAllocatedFields` for one dataset: the loop with the whole
field as payload, then the warning if a requested field is left and the writer is rank 0. -/
def output (writerRank : Int) (d : FieldData T) :
    Except Exception (List (WriteCall T) × Option String) := do
  let s ← outputLoop d .ok d.outputFieldIndices.length (.init d)
  pure (s.calls,
    if !s.indicesDone.isEmpty && writerRank == 0 then some (warningLine d s.indicesDone) else none)

/-- `Propagator::outputAllocatedFields`: the hydro pass, then the chemistry pass; the
`writeField` calls in order and the warnings printed. -/
def outputAllocatedFields (writerRank : Int) (simData : SimulationData T) :
    Except Exception (List (WriteCall T) × List String) := do
  let (hydroCalls, hydroWarning) ← output writerRank simData.hydro
  let (chemCalls, chemWarning) ← output writerRank simData.chem
  pure (hydroCalls ++ chemCalls, hydroWarning.toList ++ chemWarning.toList)

/-- `Propagator::outputSelParticlesAllocatedFields`: the same loop over the hydro dataset,
with each field gathered at the selected positions as payload. -/
def outputSelParticlesAllocatedFields (selectedParticlesPositions : List Nat)
    (hydroSimData : FieldData T) : Except Exception (List (WriteCall T)) :=
  OutputState.calls <$> outputLoop hydroSimData (·.gather selectedParticlesPositions)
    hydroSimData.outputFieldIndices.length (.init hydroSimData)

/-- `Propagator::saveSelParticlesFields`: the selected output, then a timer step. -/
def saveSelParticlesFields (selectedParticlesPositions : List Nat) (hydroSimData : FieldData T) :
    Except Exception (List (WriteCall T)) :=
  outputSelParticlesAllocatedFields selectedParticlesPositions hydroSimData

/-! ## List facts for erasing at the current index -/

theorem take_succ_append {α : Type} {l : List α} {k : Nat} (hk : k < l.length)
    (r : List α) (x : α) : l.take (k + 1) ++ r = l.take k ++ (l.getD k x :: r) := by
  rw [← List.take_concat_get l k hk, List.concat_eq_append, List.getD_eq_getElem l x hk,
    List.append_assoc]
  rfl

theorem getD_take_succ_append {α : Type} {l : List α} {k : Nat} (hk : k < l.length)
    (r : List α) (x : α) : (l.take (k + 1) ++ r).getD k x = l.getD k x := by
  have hlen : (l.take k).length = k := List.length_take_of_le hk.le
  rw [take_succ_append hk r x, List.getD_append_right _ _ _ _ (by omega), hlen, Nat.sub_self]
  rfl

theorem eraseIdx_take_succ_append {α : Type} {l : List α} {k : Nat} (hk : k < l.length)
    (r : List α) : (l.take (k + 1) ++ r).eraseIdx k = l.take k ++ r := by
  obtain ⟨x⟩ : Nonempty α := ⟨l.get ⟨k, hk⟩⟩
  have hlen : (l.take k).length = k := List.length_take_of_le hk.le
  rw [take_succ_append hk r x, List.eraseIdx_append_of_length_le hlen.le, hlen, Nat.sub_self]
  rfl

/-! ## The loop in closed form -/

/-- The field index requested at position `j`. -/
def FieldData.requested (d : FieldData T) (j : Nat) : Nat :=
  d.outputFieldIndices.getD j 0

/-- Whether the field requested at position `j` is allocated. -/
def FieldData.allocatedAt (d : FieldData T) (j : Nat) : Bool :=
  d.isAllocated (d.requested j)

/-- The call the loop makes for position `j` when the payload of a field `f` is `g f`. -/
def requestedCall (d : FieldData T) (g : FieldVariant T → FieldVariant T) (j : Nat) :
    WriteCall T :=
  ⟨d.outputFieldNames.getD j "", g (d.fieldPointer (d.requested j)),
    d.outputFieldIndices.indexOf (d.requested j)⟩

/-- The loop state once the iterations from the last one down to `k` have run: the
positions below `k` untouched, the unallocated ones from `k` on kept, and one call per
allocated position from `k` on, the highest first. -/
def afterIterations (d : FieldData T) (g : FieldVariant T → FieldVariant T) (k : Nat) :
    OutputState T :=
  let left := (List.range' k (d.outputFieldIndices.length - k)).filter (! d.allocatedAt ·)
  ⟨d.outputFieldIndices.take k ++ left.map d.requested,
    d.outputFieldNames.take k ++ left.map (d.outputFieldNames.getD · ""),
    ((List.range' k (d.outputFieldIndices.length - k)).reverse.filter d.allocatedAt).map
      (requestedCall d g)⟩

section ClosedForm

variable (d : FieldData T) (payload : FieldVariant T → Except Exception (FieldVariant T))
  (g : FieldVariant T → FieldVariant T)

theorem range'_succ_sub {k n : Nat} (hk : k < n) :
    List.range' k (n - k) = k :: List.range' (k + 1) (n - (k + 1)) := by
  rw [show n - k = n - (k + 1) + 1 by omega, List.range'_succ]

/-- One iteration moves the closed form from `k + 1` to `k`. -/
theorem outputStep_afterIterations
    (hpar : d.outputFieldNames.length = d.outputFieldIndices.length)
    {k : Nat} (hk : k < d.outputFieldIndices.length)
    (hpay : d.allocatedAt k = true →
      payload (d.fieldPointer (d.requested k)) = .ok (g (d.fieldPointer (d.requested k)))) :
    outputStep d payload k (afterIterations d g (k + 1)) = .ok (afterIterations d g k) := by
  have hkN : k < d.outputFieldNames.length := hpar ▸ hk
  have hfidx : (afterIterations d g (k + 1)).indicesDone.getD k 0 = d.requested k :=
    getD_take_succ_append hk _ 0
  have hname : (afterIterations d g (k + 1)).namesDone.getD k "" = d.outputFieldNames.getD k "" :=
    getD_take_succ_append hkN _ ""
  simp only [outputStep, hfidx, hname]
  by_cases ha : d.allocatedAt k = true
  · have ha' : d.isAllocated (d.requested k) = true := ha
    simp only [ha', if_true, hpay ha]
    simp only [afterIterations, range'_succ_sub hk, List.filter_cons, ha, Bool.not_true,
      List.reverse_cons, List.filter_append, List.map_append, eraseIdx_take_succ_append hk,
      eraseIdx_take_succ_append hkN]
    rfl
  · have ha' : d.isAllocated (d.requested k) = false := by simpa using ha
    simp only [ha', Bool.false_eq_true, if_false]
    simp only [afterIterations, range'_succ_sub hk, List.filter_cons, ha, Bool.false_eq_true,
      Bool.not_false, if_true, if_false, List.reverse_cons, List.filter_append, List.map_cons,
      List.filter_nil, List.append_nil, take_succ_append hk _ 0, take_succ_append hkN _ ""]
    rfl

/-- The run lemma: from the closed form at `k`, the remaining iterations reach the closed
form at `0`. -/
theorem outputLoop_afterIterations
    (hpar : d.outputFieldNames.length = d.outputFieldIndices.length)
    (hpay : ∀ j < d.outputFieldIndices.length, d.allocatedAt j = true →
      payload (d.fieldPointer (d.requested j)) = .ok (g (d.fieldPointer (d.requested j)))) :
    ∀ k ≤ d.outputFieldIndices.length,
      outputLoop d payload k (afterIterations d g k) = .ok (afterIterations d g 0)
  | 0, _ => rfl
  | k + 1, hk => by
    rw [outputLoop, outputStep_afterIterations d payload g hpar hk (hpay k hk)]
    exact outputLoop_afterIterations hpar hpay k (Nat.le_of_succ_le hk)

/-- Before the first iteration the closed form is the initial state. -/
theorem afterIterations_length
    (hpar : d.outputFieldNames.length = d.outputFieldIndices.length) :
    afterIterations d g d.outputFieldIndices.length = OutputState.init d := by
  simp [afterIterations, OutputState.init, ← hpar]

/-- The whole loop, from the initial copies, ends in the closed form at `0`. -/
theorem outputLoop_init
    (hpar : d.outputFieldNames.length = d.outputFieldIndices.length)
    (hpay : ∀ j < d.outputFieldIndices.length, d.allocatedAt j = true →
      payload (d.fieldPointer (d.requested j)) = .ok (g (d.fieldPointer (d.requested j)))) :
    outputLoop d payload d.outputFieldIndices.length (.init d) = .ok (afterIterations d g 0) := by
  rw [← afterIterations_length d g hpar]
  exact outputLoop_afterIterations d payload g hpar hpay _ le_rfl

end ClosedForm

/-- With distinct requested indices and their names alongside, the loop of
`outputAllocatedFields` writes each allocated requested field once, from the last position
to the first, under its own name and with its position as column, and leaves exactly the
unallocated requested fields, in order and each with its own name. -/
theorem outputLoop_writes_allocated_fields (d : FieldData T)
    (hnodup : d.outputFieldIndices.Nodup)
    (hpar : d.outputFieldNames.length = d.outputFieldIndices.length) :
    outputLoop d .ok d.outputFieldIndices.length (.init d) = .ok
      ⟨((List.range d.outputFieldIndices.length).filter (! d.allocatedAt ·)).map d.requested,
        ((List.range d.outputFieldIndices.length).filter (! d.allocatedAt ·)).map
          (d.outputFieldNames.getD · ""),
        ((List.range d.outputFieldIndices.length).reverse.filter d.allocatedAt).map fun j =>
          ⟨d.outputFieldNames.getD j "", d.fieldPointer (d.requested j), j⟩⟩ := by
  rw [outputLoop_init d .ok id hpar fun _ _ _ => rfl]
  simp only [afterIterations, List.take_zero, List.nil_append, Nat.sub_zero,
    ← List.range_eq_range', Except.ok.injEq, OutputState.mk.injEq, true_and]
  apply List.map_congr_left
  intro j hj
  have hjn : j < d.outputFieldIndices.length := by simpa using (List.mem_filter.mp hj).1
  have hcol : d.outputFieldIndices.indexOf (d.requested j) = j := by
    rw [FieldData.requested, List.getD_eq_getElem _ _ hjn]
    exact List.indexOf_getElem hnodup j hjn
  simp only [requestedCall, hcol, id]

/-- Three requested fields `x`, `y`, `z`, of which `y` is not allocated. -/
def mixedFields : FieldData Int :=
  ⟨[⟨"x", true, .real [1]⟩, ⟨"y", false, .real []⟩, ⟨"z", true, .real [3]⟩], [0, 1, 2],
    ["x", "y", "z"]⟩

/-- The loop of `outputAllocatedFields` on those fields. -/
theorem mixedFields_writes_allocated_fields :
    mixedFields.outputFieldIndices.Nodup ∧
    mixedFields.outputFieldNames.length = mixedFields.outputFieldIndices.length ∧
    outputLoop mixedFields .ok mixedFields.outputFieldIndices.length (.init mixedFields) = .ok
      ⟨((List.range mixedFields.outputFieldIndices.length).filter
          (! mixedFields.allocatedAt ·)).map mixedFields.requested,
        ((List.range mixedFields.outputFieldIndices.length).filter
          (! mixedFields.allocatedAt ·)).map (mixedFields.outputFieldNames.getD · ""),
        ((List.range mixedFields.outputFieldIndices.length).reverse.filter
          mixedFields.allocatedAt).map fun j =>
          ⟨mixedFields.outputFieldNames.getD j "", mixedFields.fieldPointer (mixedFields.requested j),
            j⟩⟩ :=
  ⟨by decide, rfl, outputLoop_writes_allocated_fields mixedFields (by decide) rfl⟩

/-! ## The selected-particle output refines the full output -/

/-- The full loop's state with every payload read at the selected positions. -/
def OutputState.selectCalls (positions : List Nat) (s : OutputState T) : OutputState T :=
  { s with calls := s.calls.map (WriteCall.select positions) }

section Refinement

variable (d : FieldData T) (positions : List Nat)

/-- One iteration of the selected loop is the full one with its payload gathered. -/
theorem outputStep_gather
    (hpos : ∀ i, d.isAllocated i = true → ∀ p ∈ positions, p < (d.fieldPointer i).length)
    (i : Nat) (s : OutputState T) :
    outputStep d (·.gather positions) i (s.selectCalls positions) =
      (outputStep d .ok i s).map (·.selectCalls positions) := by
  by_cases ha : d.isAllocated (s.indicesDone.getD i 0) = true
  · have hg := (d.fieldPointer (s.indicesDone.getD i 0)).gather_eq_ok positions (hpos _ ha)
    simp only [outputStep, OutputState.selectCalls, ha, if_true, hg]
    simp [Except.map, WriteCall.select, OutputState.selectCalls]
  · simp only [outputStep, OutputState.selectCalls, ha, Bool.false_eq_true, if_false]
    rfl

/-- The full loop never raises. -/
theorem outputLoop_ok : ∀ (k : Nat) (s : OutputState T), ∃ s', outputLoop d .ok k s = .ok s'
  | 0, s => ⟨s, rfl⟩
  | k + 1, s => by
    by_cases ha : d.isAllocated (s.indicesDone.getD k 0) = true
    · simp only [outputLoop, outputStep, ha, if_true]
      exact outputLoop_ok k _
    · simp only [outputLoop, outputStep, ha, Bool.false_eq_true, if_false]
      exact outputLoop_ok k s

/-- The run lemma of the refinement: the two loops stay in step over all iterations. -/
theorem outputLoop_gather
    (hpos : ∀ i, d.isAllocated i = true → ∀ p ∈ positions, p < (d.fieldPointer i).length) :
    ∀ (k : Nat) (s : OutputState T), outputLoop d (·.gather positions) k (s.selectCalls positions) =
      (outputLoop d .ok k s).map (·.selectCalls positions)
  | 0, _ => rfl
  | k + 1, s => by
    by_cases ha : d.isAllocated (s.indicesDone.getD k 0) = true
    · have hs := outputStep_gather d positions hpos k s
      simp only [outputStep, ha, if_true] at hs
      simp only [outputLoop, outputStep, OutputState.selectCalls, ha, if_true] at hs ⊢
      rw [hs]
      exact outputLoop_gather hpos k _
    · simp only [outputLoop, outputStep, OutputState.selectCalls, ha, Bool.false_eq_true, if_false]
      exact outputLoop_gather hpos k s

/-- A gathered payload keeps every call at one value per selected position. -/
theorem outputStep_gather_lengths {k : Nat} {s t : OutputState T}
    (hs : ∀ c ∈ s.calls, c.field.length = positions.length)
    (h : outputStep d (·.gather positions) k s = .ok t) :
    ∀ c ∈ t.calls, c.field.length = positions.length := by
  by_cases ha : d.isAllocated (s.indicesDone.getD k 0) = true
  · simp only [outputStep, ha, if_true] at h
    cases hg : (d.fieldPointer (s.indicesDone.getD k 0)).gather positions with
    | error e => simp only [hg, bind, Except.bind] at h; cases h
    | ok f =>
      simp only [hg] at h
      cases h
      intro c hc
      rcases List.mem_append.mp hc with hc | hc
      · exact hs c hc
      · rw [List.mem_singleton.mp hc]
        exact FieldVariant.length_of_gather hg
  · simp only [outputStep, ha, Bool.false_eq_true, if_false] at h
    cases h
    exact hs

/-- Every call of the selected loop carries one value per selected position. -/
theorem outputLoop_gather_lengths :
    ∀ (k : Nat) (s s' : OutputState T), (∀ c ∈ s.calls, c.field.length = positions.length) →
      outputLoop d (·.gather positions) k s = .ok s' →
      ∀ c ∈ s'.calls, c.field.length = positions.length
  | 0, s, s', hs, h => by cases h; exact hs
  | k + 1, s, s', hs, h => by
    simp only [outputLoop] at h
    cases hstep : outputStep d (·.gather positions) k s with
    | error e => simp [hstep] at h; cases h
    | ok t =>
      simp only [hstep] at h
      exact outputLoop_gather_lengths k t s' (outputStep_gather_lengths d positions hs hstep) h

end Refinement

/-- On positions below the length of every allocated field, the selected-particle output
issues the `writeField` calls of the hydro pass of `outputAllocatedFields`, with the same
keys and columns in the same order, each payload the full field read at the positions;
every payload it writes holds one value per position. -/
theorem outputSelParticlesAllocatedFields_refines_output (writerRank : Int) (d : FieldData T)
    (positions : List Nat)
    (hpos : ∀ i, d.isAllocated i = true → ∀ p ∈ positions, p < (d.fieldPointer i).length) :
    outputSelParticlesAllocatedFields positions d =
      (fun r => r.1.map (WriteCall.select positions)) <$> output writerRank d ∧
    ∀ calls, outputSelParticlesAllocatedFields positions d = .ok calls →
      ∀ c ∈ calls, c.field.length = positions.length := by
  have hinit : OutputState.init d = (OutputState.init d).selectCalls positions := rfl
  constructor
  · obtain ⟨s, hs⟩ := outputLoop_ok d d.outputFieldIndices.length (.init d)
    rw [outputSelParticlesAllocatedFields, hinit, outputLoop_gather d positions hpos, hs]
    simp only [output, hs]
    rfl
  · intro calls h
    simp only [outputSelParticlesAllocatedFields] at h
    cases hl : outputLoop d (·.gather positions) d.outputFieldIndices.length (.init d) with
    | error e => simp [hl] at h
    | ok s =>
      simp only [hl] at h
      cases h
      exact outputLoop_gather_lengths d positions _ _ s (by simp [OutputState.init]) hl

/-- The selected output of the first particle of those fields. -/
theorem mixedFields_refines_output :
    (∀ i, mixedFields.isAllocated i = true → ∀ p ∈ [0], p < (mixedFields.fieldPointer i).length) ∧
    (outputSelParticlesAllocatedFields [0] mixedFields =
      (fun r => r.1.map (WriteCall.select [0])) <$> output 0 mixedFields ∧
    ∀ calls, outputSelParticlesAllocatedFields [0] mixedFields = .ok calls →
      ∀ c ∈ calls, c.field.length = [0].length) := by
  have hpos : ∀ i, mixedFields.isAllocated i = true →
      ∀ p ∈ [0], p < (mixedFields.fieldPointer i).length := by
    intro i hi p hp
    rw [List.mem_singleton.mp hp]
    match i, hi with
    | 0, _ => decide
    | 2, _ => decide
  exact ⟨hpos, outputSelParticlesAllocatedFields_refines_output 0 mixedFields [0] hpos⟩

/-! ## The selected output's exception -/

section Exception

variable (d : FieldData T) (payload : FieldVariant T → Except Exception (FieldVariant T))
  (g : FieldVariant T → FieldVariant T)

/-- An iteration at an allocated position whose payload raises ends with that exception. -/
theorem outputStep_afterIterations_error {k : Nat} (hk : k < d.outputFieldIndices.length)
    (ha : d.allocatedAt k = true) {e : Exception}
    (he : payload (d.fieldPointer (d.requested k)) = .error e) :
    outputStep d payload k (afterIterations d g (k + 1)) = .error e := by
  have hfidx : (afterIterations d g (k + 1)).indicesDone.getD k 0 = d.requested k :=
    getD_take_succ_append hk _ 0
  have ha' : d.isAllocated (d.requested k) = true := ha
  simp only [outputStep, hfidx, ha', if_true, he]
  rfl

/-- The run lemma of the exception: when each allocated payload either succeeds or raises `e`,
and one below `k` raises, the iterations from `k` down raise `e`. -/
theorem outputLoop_afterIterations_error
    (hpar : d.outputFieldNames.length = d.outputFieldIndices.length) {e : Exception}
    (hpay : ∀ j < d.outputFieldIndices.length, d.allocatedAt j = true →
      payload (d.fieldPointer (d.requested j)) = .ok (g (d.fieldPointer (d.requested j))) ∨
        payload (d.fieldPointer (d.requested j)) = .error e) :
    ∀ k ≤ d.outputFieldIndices.length, (∃ j < k, d.allocatedAt j = true ∧
        payload (d.fieldPointer (d.requested j)) = .error e) →
      outputLoop d payload k (afterIterations d g k) = .error e
  | 0, _, ⟨j, hj, _⟩ => absurd hj (Nat.not_lt_zero j)
  | k + 1, hk, ⟨j, hj, ha, he⟩ => by
    by_cases hbad : d.allocatedAt k = true ∧ payload (d.fieldPointer (d.requested k)) = .error e
    · rw [outputLoop, outputStep_afterIterations_error d payload g hk hbad.1 hbad.2]
      rfl
    · have hok : d.allocatedAt k = true →
          payload (d.fieldPointer (d.requested k)) = .ok (g (d.fieldPointer (d.requested k))) :=
        fun hak => (hpay k hk hak).resolve_right fun h => hbad ⟨hak, h⟩
      have hjk : j < k := by
        rcases Nat.lt_succ_iff_lt_or_eq.1 hj with h | rfl
        · exact h
        · exact absurd ⟨ha, he⟩ hbad
      rw [outputLoop, outputStep_afterIterations d payload g hpar hk hok]
      exact outputLoop_afterIterations_error hpar hpay k (by omega) ⟨j, hjk, ha, he⟩

end Exception

/-- `outputSelParticlesAllocatedFields` raises nothing but `std::out_of_range`, and raises it
exactly when some selected position is past the end of an allocated requested field. -/
theorem outputSelParticlesAllocatedFields_raises_iff (positions : List Nat) (d : FieldData T)
    (hpar : d.outputFieldNames.length = d.outputFieldIndices.length) :
    (∀ e, outputSelParticlesAllocatedFields positions d = .error e → e = .outOfRange) ∧
    (outputSelParticlesAllocatedFields positions d = .error .outOfRange ↔
      ∃ j < d.outputFieldIndices.length, d.allocatedAt j = true ∧
        ∃ p ∈ positions, (d.fieldPointer (d.requested j)).length ≤ p) := by
  by_cases hbad : ∃ j < d.outputFieldIndices.length, d.allocatedAt j = true ∧
      ∃ p ∈ positions, (d.fieldPointer (d.requested j)).length ≤ p
  · have herr : outputLoop d (·.gather positions) d.outputFieldIndices.length (.init d) =
        .error .outOfRange := by
      rw [← afterIterations_length d (·.select positions) hpar]
      obtain ⟨j, hj, ha, hp⟩ := hbad
      exact outputLoop_afterIterations_error d _ _ hpar
        (fun _ _ _ => FieldVariant.gather_eq_ok_or_error _ _) _ le_rfl
        ⟨j, hj, ha, FieldVariant.gather_eq_error _ _ hp⟩
    simp only [outputSelParticlesAllocatedFields, herr]
    exact ⟨fun e h => (Except.error.inj h).symm, iff_of_true rfl hbad⟩
  · have hok : outputLoop d (·.gather positions) d.outputFieldIndices.length (.init d) =
        .ok (afterIterations d (·.select positions) 0) := by
      refine outputLoop_init d _ _ hpar fun j hj ha => FieldVariant.gather_eq_ok _ _ ?_
      intro p hp
      by_contra hle
      exact hbad ⟨j, hj, ha, p, hp, Nat.le_of_not_lt hle⟩
    have hres : outputSelParticlesAllocatedFields positions d =
        .ok (afterIterations d (·.select positions) 0).calls := by
      simp only [outputSelParticlesAllocatedFields, hok]
      rfl
    rw [hres]
    exact ⟨fun _ h => (nomatch h), iff_of_false (fun h => nomatch h) hbad⟩

/-- Two allocated fields `x` and `y`, `x` holding one particle and `y` two. -/
def unevenFields : FieldData Int :=
  ⟨[⟨"x", true, .real [1]⟩, ⟨"y", true, .real [2, 3]⟩], [0, 1], ["x", "y"]⟩

/-- Selecting the second particle of those fields raises, `x` being too short. -/
theorem unevenFields_raises_iff :
    unevenFields.outputFieldNames.length = unevenFields.outputFieldIndices.length ∧
    ((∀ e, outputSelParticlesAllocatedFields [1] unevenFields = .error e → e = .outOfRange) ∧
    (outputSelParticlesAllocatedFields [1] unevenFields = .error .outOfRange ↔
      ∃ j < unevenFields.outputFieldIndices.length, unevenFields.allocatedAt j = true ∧
        ∃ p ∈ [1], (unevenFields.fieldPointer (unevenFields.requested j)).length ≤ p)) :=
  ⟨rfl, outputSelParticlesAllocatedFields_raises_iff [1] unevenFields rfl⟩

/-! ## The leftover warning -/

/-- Three fields `x`, `y`, `z` with only `x` allocated, and `y`, `z` requested. -/
def leftoverFields : SimulationData Int :=
  ⟨⟨[⟨"x", true, .real []⟩, ⟨"y", false, .real []⟩, ⟨"z", false, .real []⟩], [1, 2], ["y", "z"]⟩,
    ⟨[], [], []⟩⟩

/-- The warning prints `fieldNames[0]` where the first leftover index is `1`: it names the
allocated, unrequested `x` and omits the leftover `y`. -/
theorem outputAllocatedFields_warning_names_allocated_field :
    outputAllocatedFields 0 leftoverFields = .ok ([],
      ["WARNING: the following fields are not in use and therefore not output: x,z\n"]) := by
  rfl

end SphExa
