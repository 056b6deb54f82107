import Mathlib.Data.List.Basic
import Mathlib.Data.List.GetD

/-!
# Particle field tables and writer calls

The part of a particle dataset that the propagator's output functions read:
the field table behind `fieldNames`, `isAllocated` and `data()`, and the
requested output columns `outputFieldIndices` and `outputFieldNames`. A field
pointer is a tagged vector. The only exceptions on these paths are
`std::out_of_range` from `vector::at` and `std::bad_variant_access` from
`std::get`; an index past the field table, undefined behaviour in the source,
reads as an unallocated, unnamed, empty field.
-/

namespace SphExa

/-- The exceptions raised on the output paths. -/
inductive Exception where
  /-- `std::out_of_range`, from `std::vector::at` past the end. -/
  | outOfRange
  /-- `std::bad_variant_access`, from `std::get` on another alternative. -/
  | badVariantAccess
  deriving DecidableEq, Repr

/-- What a field pointer of `data()` points to. -/
inductive FieldVariant (T : Type) where
  /-- A `FieldVector<T>` of the dataset's real type. -/
  | real (v : List T)
  /-- A `FieldVector<uint64_t>`, the type of the particle `id` field. -/
  | uint64 (v : List UInt64)
  deriving DecidableEq, Repr

/-- `std::vector::at`: the element at `p`, or `std::out_of_range` past the end. -/
def vectorAt {α : Type} (v : List α) (p : Nat) : Except Exception α :=
  match v[p]? with
  | some x => .ok x
  | none => .error .outOfRange

/-- The `for_each` over the positions that pushes `field->at(p)` for each one in order;
the first position out of range ends it with `out_of_range`. -/
def vectorAtEach {α : Type} (v : List α) : List Nat → Except Exception (List α)
  | [] => .ok []
  | p :: ps => do
    let x ← vectorAt v p
    let xs ← vectorAtEach v ps
    pure (x :: xs)

/-- Reading every position of a vector through `at` succeeds once all are in range. -/
theorem vectorAtEach_of_lt {α : Type} (v : List α) :
    ∀ positions : List Nat, (∀ p ∈ positions, p < v.length) →
      vectorAtEach v positions = .ok (positions.filterMap (v[·]?))
  | [], _ => rfl
  | p :: ps, h => by
    have hp : v[p]? = some (v.get ⟨p, h p (List.mem_cons_self p ps)⟩) := by simp
    have ih := vectorAtEach_of_lt v ps fun q hq => h q (List.mem_cons_of_mem p hq)
    simp only [vectorAtEach, vectorAt, hp, ih, List.filterMap_cons]
    rfl

/-- Reading a vector through `at` raises `out_of_range` once one position is past its end. -/
theorem vectorAtEach_of_le {α : Type} (v : List α) :
    ∀ positions : List Nat, (∃ p ∈ positions, v.length ≤ p) →
      vectorAtEach v positions = .error .outOfRange
  | [], ⟨p, hp, _⟩ => absurd hp (List.not_mem_nil p)
  | p :: ps, ⟨q, hq, hle⟩ => by
    by_cases hp : p < v.length
    · have hq' : q ∈ ps := (List.mem_cons.mp hq).resolve_left fun h => by omega
      have hx : v[p]? = some (v.get ⟨p, hp⟩) := by simp
      simp only [vectorAtEach, vectorAt, hx, vectorAtEach_of_le v ps ⟨q, hq', hle⟩]
      rfl
    · simp only [vectorAtEach, vectorAt, List.getElem?_eq_none (Nat.le_of_not_lt hp)]
      rfl

/-- A successful `at` loop returns one value per position. -/
theorem length_of_vectorAtEach {α : Type} (v : List α) :
    ∀ (positions : List Nat) (out : List α),
      vectorAtEach v positions = .ok out → out.length = positions.length
  | [], out, h => by cases h; rfl
  | p :: ps, out, h => by
    cases hp : vectorAt v p with
    | error e => simp [vectorAtEach, hp] at h; cases h
    | ok x =>
      cases hps : vectorAtEach v ps with
      | error e => simp [vectorAtEach, hp, hps] at h; cases h
      | ok xs =>
        simp only [vectorAtEach, hp, hps] at h
        cases h
        simpa using length_of_vectorAtEach v ps xs hps

namespace FieldVariant

variable {T : Type}

/-- The number of particles a field holds. -/
def length : FieldVariant T → Nat
  | real v => v.length
  | uint64 v => v.length

/-- `std::get<ParticleIndexVectorType*>`: the id vector, or `bad_variant_access`. -/
def getUInt64 : FieldVariant T → Except Exception (List UInt64)
  | uint64 v => .ok v
  | real _ => .error .badVariantAccess

/-- The selected-particle copy of a field: `field->at(p)` pushed for each position in order. -/
def gather (positions : List Nat) : FieldVariant T → Except Exception (FieldVariant T)
  | real v => real <$> vectorAtEach v positions
  | uint64 v => uint64 <$> vectorAtEach v positions

/-- The field read at the given positions, `field[positions[0]], field[positions[1]], ...`. -/
def select (positions : List Nat) : FieldVariant T → FieldVariant T
  | real v => real (positions.filterMap (v[·]?))
  | uint64 v => uint64 (positions.filterMap (v[·]?))

/-- Gathering at positions inside the field is the plain read, with no exception. -/
theorem gather_eq_ok (positions : List Nat) (f : FieldVariant T)
    (h : ∀ p ∈ positions, p < f.length) : f.gather positions = .ok (f.select positions) := by
  cases f with
  | real v => simp only [gather, select, vectorAtEach_of_lt v positions h]; rfl
  | uint64 v => simp only [gather, select, vectorAtEach_of_lt v positions h]; rfl

/-- Gathering at a position past the field's end raises `out_of_range`. -/
theorem gather_eq_error (positions : List Nat) (f : FieldVariant T)
    (h : ∃ p ∈ positions, f.length ≤ p) : f.gather positions = .error .outOfRange := by
  cases f with
  | real v => simp only [gather, vectorAtEach_of_le v positions h]; rfl
  | uint64 v => simp only [gather, vectorAtEach_of_le v positions h]; rfl

/-- Gathering either reads every selected position or raises `out_of_range`. -/
theorem gather_eq_ok_or_error (positions : List Nat) (f : FieldVariant T) :
    f.gather positions = .ok (f.select positions) ∨ f.gather positions = .error .outOfRange := by
  by_cases hin : ∀ p ∈ positions, p < f.length
  · exact .inl (gather_eq_ok positions f hin)
  · push_neg at hin
    exact .inr (gather_eq_error positions f hin)

/-- A gathered field holds exactly one value per selected position. -/
theorem length_of_gather {positions : List Nat} {f g : FieldVariant T}
    (h : f.gather positions = .ok g) : g.length = positions.length := by
  cases f with
  | real v =>
    cases hv : vectorAtEach v positions with
    | error e => simp [gather, hv] at h
    | ok out =>
      simp only [gather, hv] at h
      cases h
      exact length_of_vectorAtEach v positions out hv
  | uint64 v =>
    cases hv : vectorAtEach v positions with
    | error e => simp [gather, hv] at h
    | ok out =>
      simp only [gather, hv] at h
      cases h
      exact length_of_vectorAtEach v positions out hv

end FieldVariant

/-- One entry of a dataset's field table: its name in `fieldNames`, whether it is
allocated, and its pointer in `data()`. -/
structure FieldSlot (T : Type) where
  /-- `fieldNames[i]`. -/
  name : String
  /-- `isAllocated(i)`. -/
  allocated : Bool
  /-- `data()[i]`. -/
  pointer : FieldVariant T
  deriving DecidableEq, Repr

/-- The part of `HydroData` and `ChemData` that the output functions read. -/
structure FieldData (T : Type) where
  /-- The dataset's fields, in the order of `fieldNames` and `data()`. -/
  fields : List (FieldSlot T)
  /-- `outputFieldIndices`: the requested fields, as positions in `fields`. -/
  outputFieldIndices : List Nat
  /-- `outputFieldNames`: the requested fields' names, meant parallel to the indices. -/
  outputFieldNames : List String
  deriving DecidableEq, Repr

namespace FieldData

variable {T : Type}

/-- `fieldNames[i]`. -/
def fieldName (d : FieldData T) (i : Nat) : String :=
  (d.fields[i]?.map FieldSlot.name).getD ""

/-- `isAllocated(i)`. -/
def isAllocated (d : FieldData T) (i : Nat) : Bool :=
  (d.fields[i]?.map FieldSlot.allocated).getD false

/-- `data()[i]`. -/
def fieldPointer (d : FieldData T) (i : Nat) : FieldVariant T :=
  (d.fields[i]?.map FieldSlot.pointer).getD (.real [])

end FieldData

/-- One `IFileWriter::writeField(key, field, column)` call. -/
structure WriteCall (T : Type) where
  /-- The column's name. -/
  key : String
  /-- The values handed over by `field->data()`. -/
  field : FieldVariant T
  /-- The column number. -/
  column : Nat
  deriving DecidableEq, Repr

/-- The same call with its payload read at the selected positions. -/
def WriteCall.select {T : Type} (positions : List Nat) (c : WriteCall T) : WriteCall T :=
  { c with field := c.field.select positions }

/-- The two datasets `outputAllocatedFields` writes, hydro first. -/
structure SimulationData (T : Type) where
  /-- `simData.hydro`. -/
  hydro : FieldData T
  /-- `simData.chem`. -/
  chem : FieldData T
  deriving DecidableEq, Repr

end SphExa
