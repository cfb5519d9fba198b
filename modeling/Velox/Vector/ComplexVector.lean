import Mathlib

-- `ArrayVectorBase::copyRangesImpl` (`velox/vector/ComplexVector.cpp`), the copy into an array
-- or a map vector, over flat sources and flat `int64_t` children. A child is held through a
-- `VectorPtr`; the vectors live in a store by place, with the `use_count()` of each, so that a
-- child two vectors hold is one place, and a copy-on-write moves the writer to a new place.

namespace Velox

structure CopyRange where
  sourceIndex : Nat
  targetIndex : Nat
  count : Nat
deriving DecidableEq, Repr

/-- `applyToEachRow(ranges, func)`: the pairs `(targetIndex, sourceIndex)` in the order the loop
    visits them. -/
def CopyRange.rows (ranges : List CopyRange) : List (Nat × Nat) :=
  ranges.flatMap fun range =>
    (List.range range.count).map fun i => (range.targetIndex + i, range.sourceIndex + i)

structure FlatVector where
  rows : List (Option Int)
deriving DecidableEq, Repr

namespace FlatVector

def size (vector : FlatVector) : Nat := vector.rows.length

/-- `resize(newSize)`: the new rows are not null and hold a value the code leaves unspecified,
    zero here. -/
def resize (vector : FlatVector) (newSize : Nat) : FlatVector :=
  ⟨vector.rows.take newSize ++ List.replicate (newSize - vector.rows.length) (some 0)⟩

def copyRanges (target source : FlatVector) (ranges : List CopyRange) : FlatVector :=
  (CopyRange.rows ranges).foldl
    (fun vector (targetIndex, sourceIndex) =>
      ⟨vector.rows.set targetIndex (source.rows.getD sourceIndex none)⟩)
    target

def copy (target source : FlatVector) (targetIndex sourceIndex count : Nat) : FlatVector :=
  target.copyRanges source [⟨sourceIndex, targetIndex, count⟩]

end FlatVector

structure VectorStore where
  places : List (FlatVector × Nat)
deriving DecidableEq, Repr

namespace VectorStore

def get (store : VectorStore) (place : Nat) : FlatVector := (store.places.getD place (⟨[]⟩, 0)).1

def useCount (store : VectorStore) (place : Nat) : Nat := (store.places.getD place (⟨[]⟩, 0)).2

def update (store : VectorStore) (place : Nat) (f : FlatVector → FlatVector) : VectorStore :=
  ⟨store.places.modify place fun (vector, uses) => (f vector, uses)⟩

/-- `BaseVector::ensureWritable(SelectivityVector::empty(), type, pool, result)` for a flat
    `result`: kept in place when `result` is its only holder, otherwise replaced by a copy in a
    new place, which `result` then holds alone. The place `result` holds afterwards. -/
def ensureWritable (store : VectorStore) (place : Nat) : VectorStore × Nat :=
  if store.useCount place = 1 then (store, place)
  else
    (⟨store.places.modify place (fun (vector, uses) => (vector, uses - 1)) ++
        [(store.get place, 1)]⟩,
      store.places.length)

end VectorStore

/-- An `ArrayVector` or a `MapVector`: per-row nulls, offsets and sizes, and the places of its
    children, `elements_` of an array or `values_` and `keys_` of a map. -/
structure ArrayVectorBase where
  nulls : List Bool
  offsets : List Nat
  sizes : List Nat
  values : Nat
  keys : Option Nat
deriving DecidableEq, Repr

namespace ArrayVectorBase

def isNullAt (vector : ArrayVectorBase) (row : Nat) : Bool := vector.nulls.getD row false

def mayHaveNulls (vector : ArrayVectorBase) : Bool := vector.nulls.any id

def setNull (vector : ArrayVectorBase) (row : Nat) (isNull : Bool) : ArrayVectorBase :=
  { vector with nulls := vector.nulls.set row isNull }

/-- `ensureWritable` on the keys of a map and on the elements of an array, as
    `copyRangesImpl` calls it. -/
def ensureChildWritable (store : VectorStore) (target : ArrayVectorBase) :
    VectorStore × ArrayVectorBase :=
  match target.keys with
  | some keys =>
    let (store, keys) := store.ensureWritable keys
    (store, { target with keys := some keys })
  | none =>
    let (store, values) := store.ensureWritable target.values
    (store, { target with values := values })

/-- The child copies of a copy: `values` (and `keys`, for a map) resized to `childSize`, then
    written from the source's children over `outRanges`. -/
def copyChildren (store : VectorStore) (target source : ArrayVectorBase) (childSize : Nat)
    (outRanges : List CopyRange) : VectorStore :=
  let store := store.update target.values (·.resize childSize)
  let store := store.update target.values
    (·.copyRanges (store.get source.values) outRanges)
  match target.keys, source.keys with
  | some keys, some sourceKeys =>
    let store := store.update keys (·.resize childSize)
    store.update keys (·.copyRanges (store.get sourceKeys) outRanges)
  | _, _ => store

/-- One row of the general path: the target row's null flag, offset and size, the element run
    to copy (merged into the last one where it continues it) and the new child size. -/
def copyRow (source : ArrayVectorBase) (setNotNulls : Bool)
    (state : ArrayVectorBase × List CopyRange × Nat) (row : Nat × Nat) :
    ArrayVectorBase × List CopyRange × Nat :=
  let (target, outRanges, childSize) := state
  let (targetIndex, sourceIndex) := row
  if source.isNullAt sourceIndex then (target.setNull targetIndex true, outRanges, childSize)
  else
    let target := if setNotNulls then target.setNull targetIndex false else target
    let copySize := source.sizes.getD sourceIndex 0
    let copyOffset := source.offsets.getD sourceIndex 0
    let outRanges :=
      if copySize > 0 then
        match outRanges.getLast? with
        | some last =>
          -- If we're copying two adjacent ranges, merge them.
          if last.sourceIndex + last.count = copyOffset then
            outRanges.dropLast ++ [{ last with count := last.count + copySize }]
          else outRanges ++ [⟨copyOffset, childSize, copySize⟩]
        | none => outRanges ++ [⟨copyOffset, childSize, copySize⟩]
      else outRanges
    let target := { target with
      offsets := target.offsets.set targetIndex childSize
      sizes := target.sizes.set targetIndex copySize }
    (target, outRanges, childSize + copySize)

/-- `ArrayVectorBase::copyRangesImpl(source, ranges, targetValues, targetKeys)` from a flat
    source of the same kind. -/
def copyRangesImpl (store : VectorStore) (target source : ArrayVectorBase)
    (ranges : List CopyRange) : VectorStore × ArrayVectorBase :=
  let (store, target) := ensureChildWritable store target
  let setNotNulls := target.mayHaveNulls || source.mayHaveNulls
  let childSize := (store.get target.values).size
  match ranges with
  | [range] =>
    if range.count = 1 then
      -- Fast path if we're just copying a single array.
      if source.isNullAt range.sourceIndex then (store, target.setNull range.targetIndex true)
      else
        let target := if setNotNulls then target.setNull range.targetIndex false else target
        let copySize := source.sizes.getD range.sourceIndex 0
        let target := { target with
          offsets := target.offsets.set range.targetIndex childSize
          sizes := target.sizes.set range.targetIndex copySize }
        if copySize > 0 then
          let copyOffset := source.offsets.getD range.sourceIndex 0
          (copyChildren store target source (childSize + copySize)
            [⟨copyOffset, childSize, copySize⟩], target)
        else (store, target)
    else
      let (target, outRanges, childSize) :=
        (CopyRange.rows ranges).foldl (copyRow source setNotNulls) (target, [], childSize)
      (copyChildren store target source childSize outRanges, target)
  | _ =>
    let (target, outRanges, childSize) :=
      (CopyRange.rows ranges).foldl (copyRow source setNotNulls) (target, [], childSize)
    (copyChildren store target source childSize outRanges, target)

end ArrayVectorBase

namespace VectorStore

theorem get_update_of_ne (store : VectorStore) {place other : Nat} (f : FlatVector → FlatVector)
    (ne : other ≠ place) : (store.update place f).get other = store.get other := by
  simp [get, update, List.getD_eq_getElem?_getD, Ne.symm ne]

theorem useCount_update (store : VectorStore) (place other : Nat) (f : FlatVector → FlatVector) :
    (store.update place f).useCount other = store.useCount other := by
  simp only [useCount, update, List.getD_eq_getElem?_getD, List.getElem?_modify]
  by_cases same : place = other
  · subst same
    cases store.places[place]? <;> simp
  · simp [same]

theorem useCount_ensureWritable (store : VectorStore) (place : Nat) :
    (store.ensureWritable place).1.useCount (store.ensureWritable place).2 = 1 := by
  unfold ensureWritable
  split
  · assumption
  · simp [useCount, List.getD_eq_getElem?_getD]

theorem get_ensureWritable_of_ne (store : VectorStore) {place other : Nat}
    (ne : other ≠ (store.ensureWritable place).2) :
    (store.ensureWritable place).1.get other = store.get other := by
  unfold ensureWritable at ne ⊢
  split
  · rfl
  · rename_i shared
    simp only [if_neg shared] at ne
    simp only [get, List.getD_eq_getElem?_getD]
    by_cases inside : other < store.places.length
    · rw [List.getElem?_append_left (by simpa using inside), List.getElem?_modify]
      by_cases same : place = other
      · subst same
        cases store.places[place]? <;> simp
      · simp [same]
    · -- past the appended place both sides read the default
      have outside : store.places.length + 1 ≤ other := by omega
      rw [List.getElem?_eq_none (by simp; omega), List.getElem?_eq_none (by omega)]

end VectorStore

namespace ArrayVectorBase

theorem values_copyRow (source : ArrayVectorBase) (setNotNulls : Bool)
    (state : ArrayVectorBase × List CopyRange × Nat) (row : Nat × Nat) :
    (copyRow source setNotNulls state row).1.values = state.1.values ∧
      (copyRow source setNotNulls state row).1.keys = state.1.keys := by
  obtain ⟨target, outRanges, childSize⟩ := state
  obtain ⟨targetIndex, sourceIndex⟩ := row
  simp only [copyRow]
  split_ifs <;> simp [setNull]

theorem values_foldl_copyRow (source : ArrayVectorBase) (setNotNulls : Bool) :
    ∀ (rows : List (Nat × Nat)) (state : ArrayVectorBase × List CopyRange × Nat),
      (rows.foldl (copyRow source setNotNulls) state).1.values = state.1.values ∧
        (rows.foldl (copyRow source setNotNulls) state).1.keys = state.1.keys := by
  intro rows
  induction rows with
  | nil => intro state; exact ⟨rfl, rfl⟩
  | cons row rows ih =>
    intro state
    obtain ⟨values, keys⟩ := values_copyRow source setNotNulls state row
    obtain ⟨values', keys'⟩ := ih (copyRow source setNotNulls state row)
    exact ⟨values'.trans values, keys'.trans keys⟩

theorem get_copyChildren_of_ne (store : VectorStore) {target : ArrayVectorBase}
    (source : ArrayVectorBase) (childSize : Nat) (outRanges : List CopyRange)
    (array : target.keys = none) {other : Nat} (ne : other ≠ target.values) :
    (copyChildren store target source childSize outRanges).get other = store.get other := by
  unfold copyChildren
  rw [array]
  simp only
  rw [VectorStore.get_update_of_ne _ _ ne, VectorStore.get_update_of_ne _ _ ne]

theorem useCount_copyChildren (store : VectorStore) (target source : ArrayVectorBase)
    (childSize : Nat) (outRanges : List CopyRange) (place : Nat) :
    (copyChildren store target source childSize outRanges).useCount place =
      store.useCount place := by
  unfold copyChildren
  split <;> simp only [VectorStore.useCount_update]

theorem copyRangesImpl_cases (store : VectorStore) (target source : ArrayVectorBase)
    (ranges : List CopyRange) :
    ∃ (written : ArrayVectorBase) (childSize : Nat) (outRanges : List CopyRange),
      written.values = (ensureChildWritable store target).2.values ∧
      written.keys = (ensureChildWritable store target).2.keys ∧
      (copyRangesImpl store target source ranges = ((ensureChildWritable store target).1, written) ∨
        copyRangesImpl store target source ranges =
          (copyChildren (ensureChildWritable store target).1 written source childSize outRanges,
            written)) := by
  unfold copyRangesImpl
  generalize ensureChildWritable store target = written
  obtain ⟨store1, target1⟩ := written
  simp only
  split
  · split
    · split
      · exact ⟨_, 0, [], by simp [setNull], by simp [setNull], Or.inl rfl⟩
      · split
        · exact ⟨_, _, _, by split <;> simp [setNull], by split <;> simp [setNull], Or.inr rfl⟩
        · exact ⟨_, 0, [], by split <;> simp [setNull], by split <;> simp [setNull], Or.inl rfl⟩
    · obtain ⟨values, keys⟩ := values_foldl_copyRow source _ _ (target1, [], _)
      exact ⟨_, _, _, values, keys, Or.inr rfl⟩
  · -- the general path: rows' flags from the fold, then the children
    obtain ⟨values, keys⟩ := values_foldl_copyRow source _ _ (target1, [], _)
    exact ⟨_, _, _, values, keys, Or.inr rfl⟩

/-- A copy into an array makes its elements writable first: afterwards the array holds its
    elements alone, and no other place of the store has changed. -/
theorem copyRangesImpl_array_frame (store : VectorStore) {target : ArrayVectorBase}
    (source : ArrayVectorBase) (ranges : List CopyRange) (array : target.keys = none) :
    (copyRangesImpl store target source ranges).1.useCount
        (copyRangesImpl store target source ranges).2.values = 1 ∧
      ∀ place, place ≠ (copyRangesImpl store target source ranges).2.values →
        (copyRangesImpl store target source ranges).1.get place = store.get place := by
  have written : ensureChildWritable store target =
      ((store.ensureWritable target.values).1,
        { target with values := (store.ensureWritable target.values).2 }) := by
    simp [ensureChildWritable, array]
  obtain ⟨w, childSize, outRanges, values, keys, result⟩ :=
    copyRangesImpl_cases store target source ranges
  rw [written] at values keys result
  simp only at values keys
  rcases result with same | copied
  · -- nothing copied: the store is the one `ensureWritable` left
    rw [same]
    refine ⟨?_, fun place ne => ?_⟩
    · rw [values]
      exact VectorStore.useCount_ensureWritable store target.values
    · rw [values] at ne
      exact VectorStore.get_ensureWritable_of_ne store ne
  · -- the children copied into the place `ensureWritable` left the array holding
    rw [copied]
    refine ⟨?_, fun place ne => ?_⟩
    · rw [useCount_copyChildren, values]
      exact VectorStore.useCount_ensureWritable store target.values
    · have other : place ≠ (store.ensureWritable target.values).2 := values ▸ ne
      rw [get_copyChildren_of_ne _ _ _ _ (keys.trans array) ne,
        VectorStore.get_ensureWritable_of_ne store other]

def sharedElementsStore : VectorStore := ⟨[(⟨[some 10]⟩, 2), (⟨[some 20]⟩, 1)]⟩

theorem array_copy_keeps_shared_elements :
    (⟨[false], [0], [1], 0, none⟩ : ArrayVectorBase).keys = none ∧
      (copyRangesImpl sharedElementsStore ⟨[false], [0], [1], 0, none⟩ ⟨[false], [0], [1], 1, none⟩
          [⟨0, 0, 1⟩]).1.useCount
        (copyRangesImpl sharedElementsStore ⟨[false], [0], [1], 0, none⟩
          ⟨[false], [0], [1], 1, none⟩ [⟨0, 0, 1⟩]).2.values = 1 ∧
      ∀ place, place ≠ (copyRangesImpl sharedElementsStore ⟨[false], [0], [1], 0, none⟩
          ⟨[false], [0], [1], 1, none⟩ [⟨0, 0, 1⟩]).2.values →
        (copyRangesImpl sharedElementsStore ⟨[false], [0], [1], 0, none⟩
          ⟨[false], [0], [1], 1, none⟩ [⟨0, 0, 1⟩]).1.get place = sharedElementsStore.get place :=
  ⟨rfl, copyRangesImpl_array_frame sharedElementsStore _ _ rfl⟩

/-- Two maps over one values child, in place 1, as a map built over another map's values is:
    `sharingMap` with keys in place 0 and `targetMap` with keys in place 2; `sourceMap` has its
    keys in place 3 and its values in place 4. Every map has one row of one entry. -/
def sharedValuesStore : VectorStore :=
  ⟨[(⟨[some 1]⟩, 1), (⟨[some 10]⟩, 2), (⟨[some 5]⟩, 1), (⟨[some 2]⟩, 1), (⟨[some 20]⟩, 1)]⟩

def sharingMap : ArrayVectorBase := ⟨[false], [0], [1], 1, some 0⟩

def targetMap : ArrayVectorBase := ⟨[false], [0], [1], 1, some 2⟩

def sourceMap : ArrayVectorBase := ⟨[false], [0], [1], 4, some 3⟩

/-- `targetMap.copy(sourceMap, 0, 0, 1)` makes only the keys writable: the values child, which
    `sharingMap` still holds, grows by the copied entry. -/
theorem copyRanges_writes_shared_map_values :
    sharedValuesStore.useCount sharingMap.values = 2 ∧
      (copyRangesImpl sharedValuesStore targetMap sourceMap [⟨0, 0, 1⟩]).2.values =
        sharingMap.values ∧
      sharedValuesStore.get sharingMap.values = ⟨[some 10]⟩ ∧
      (copyRangesImpl sharedValuesStore targetMap sourceMap [⟨0, 0, 1⟩]).1.get sharingMap.values =
        ⟨[some 10, some 20]⟩ := by
  decide

end ArrayVectorBase

end Velox
