import Mathlib

/-!
# Finite maps and row indexes

The hash maps and hash sets of the source are extensional ordered maps: two maps
with the same lookups are equal, and lookups compute. A row index is a map from
keys to sets of values that keeps no empty row, the shape of every secondary index
of the program.
-/
namespace VisaService.Lib

open Std (TransOrd LawfulEqOrd)

abbrev HashMap (K V : Type) [Ord K] : Type := Std.ExtTreeMap K V compare

abbrev HashSet (K : Type) [Ord K] : Type := Std.ExtTreeSet K compare

section Maps

variable {K V : Type} [Ord K] [TransOrd K] [LawfulEqOrd K]

variable {key other : K} {table : HashMap K V}

omit [LawfulEqOrd K] in
theorem HashMap.mem_of_get {value : V} (found : table[key]? = some value) : key ∈ table := by
  rw [Std.ExtTreeMap.mem_iff_isSome_getElem?, found]
  rfl

omit [LawfulEqOrd K] in
theorem HashMap.get_of_mem (member : key ∈ table) :
    ∃ value, table[key]? = some value :=
  Option.isSome_iff_exists.mp (Std.ExtTreeMap.mem_iff_isSome_getElem?.mp member)

theorem HashMap.get_insert [DecidableEq K] (table : HashMap K V) (key other : K) (value : V) :
    (table.insert key value)[other]? = if key = other then some value else table[other]? := by
  simp [Std.ExtTreeMap.getElem?_insert]

theorem HashMap.get_erase [DecidableEq K] (table : HashMap K V) (key other : K) :
    (table.erase key)[other]? = if key = other then none else table[other]? := by
  simp [Std.ExtTreeMap.getElem?_erase]

theorem HashMap.of_get_insert [DecidableEq K] {value found : V}
    (isFound : (table.insert key value)[other]? = some found) :
    other = key ∧ found = value ∨ key ≠ other ∧ table[other]? = some found := by
  rw [HashMap.get_insert] at isFound
  split at isFound
  next same => exact .inl ⟨same.symm, (Option.some.inj isFound).symm⟩
  next differs => exact .inr ⟨differs, isFound⟩

theorem HashMap.of_get_erase [DecidableEq K] {found : V}
    (isFound : (table.erase key)[other]? = some found) :
    key ≠ other ∧ table[other]? = some found := by
  rw [HashMap.get_erase] at isFound
  split at isFound
  · cases isFound
  next differs => exact ⟨differs, isFound⟩

theorem HashMap.mem_erase :
    other ∈ table.erase key ↔ other ∈ table ∧ other ≠ key := by
  rw [Std.ExtTreeMap.mem_erase, ne_eq, Std.compare_eq_iff_eq, and_comm, eq_comm]

theorem HashMap.erase_of_not_mem (absent : key ∉ table) :
    table.erase key = table := by
  refine Std.ExtTreeMap.ext_getElem? fun other => ?_
  by_cases same : compare key other = .eq
  · rw [← Std.compare_eq_iff_eq.mp same, Std.ExtTreeMap.getElem?_erase_self]
    exact (Std.ExtTreeMap.getElem?_eq_none absent).symm
  · rw [Std.ExtTreeMap.getElem?_erase, if_neg same]

theorem HashMap.get_alter [DecidableEq K] (table : HashMap K V) (key other : K)
    (change : Option V → Option V) :
    (table.alter key change)[other]? =
      if key = other then change table[key]? else table[other]? := by
  simp [Std.ExtTreeMap.getElem?_alter]

theorem HashMap.get_modify [DecidableEq K] (table : HashMap K V) (key other : K)
    (change : V → V) :
    (table.modify key change)[other]? =
      if key = other then table[key]?.map change else table[other]? := by
  simp [Std.ExtTreeMap.getElem?_modify]

theorem HashSet.mem_insert {items : HashSet K} :
    other ∈ items.insert key ↔ other = key ∨ other ∈ items := by
  rw [Std.ExtTreeSet.mem_insert, Std.compare_eq_iff_eq, eq_comm]

theorem HashSet.mem_erase {items : HashSet K} :
    other ∈ items.erase key ↔ other ∈ items ∧ other ≠ key := by
  rw [Std.ExtTreeSet.mem_erase, ne_eq, Std.compare_eq_iff_eq, and_comm, eq_comm]

end Maps

/-- An order in which a hash set may be iterated; the standard library leaves it open. -/
structure SetOrder (K : Type) [Ord K] [TransOrd K] where
  list : HashSet K → List K
  perm : ∀ items, (list items).Perm items.toList

namespace SetOrder

variable {K : Type} [Ord K] [TransOrd K]

/-- Items in their own order. -/
def ascending : SetOrder K := ⟨fun items => items.toList, fun _ => .refl _⟩

theorem mem_list [LawfulEqOrd K] (order : SetOrder K) {items : HashSet K} {item : K} :
    item ∈ order.list items ↔ item ∈ items := by
  rw [(order.perm items).mem_iff, Std.ExtTreeSet.mem_toList]

theorem nodup_list [LawfulEqOrd K] (order : SetOrder K) (items : HashSet K) :
    (order.list items).Nodup := by
  refine (order.perm items).nodup_iff.mpr ?_
  exact Std.ExtTreeSet.distinct_toList.imp fun differs same => differs (Std.compare_eq_iff_eq.mpr same)

end SetOrder

/-- Key to set of values. -/
abbrev Rows (K V : Type) [Ord K] [Ord V] : Type := HashMap K (HashSet V)

namespace Rows

variable {K V : Type} [Ord K] [TransOrd K] [LawfulEqOrd K] [Ord V] [TransOrd V] [LawfulEqOrd V]

def Holds (index : Rows K V) (key : K) (value : V) : Prop :=
  ∃ row : HashSet V, index[key]? = some row ∧ value ∈ row

omit [LawfulEqOrd K] [LawfulEqOrd V] in
theorem mem_row {index : Rows K V} {key : K} {value : V} :
    value ∈ index[key]?.getD ∅ ↔ index.Holds key value := by
  cases found : index[key]? <;> simp [Holds, found]

omit [LawfulEqOrd K] in
theorem mem_list {index : Rows K V} {key : K} {value : V} :
    value ∈ (index[key]?.map Std.ExtTreeSet.toList).getD [] ↔ index.Holds key value := by
  cases found : index[key]? <;> simp [Holds, found]

instance (index : Rows K V) (key : K) (value : V) : Decidable (index.Holds key value) :=
  decidable_of_iff _ mem_row

omit [LawfulEqOrd K] [LawfulEqOrd V] in
theorem not_holds_of_not_mem {index : Rows K V} {key : K} (absent : key ∉ index) (value : V) :
    ¬ index.Holds key value := by
  rintro ⟨row, found, -⟩
  exact absent (HashMap.mem_of_get found)

/-- No row is present but empty. -/
def NoEmptyRow (index : Rows K V) : Prop :=
  ∀ (key : K) (row : HashSet V), index[key]? = some row → ∃ value : V, value ∈ row

/-- `entry(key).or_default().insert(value)`. -/
def add (index : Rows K V) (key : K) (value : V) : Rows K V :=
  index.alter key fun row => some ((row.getD ∅).insert value)

/-- Drop `value` from the row of `key`, and the row when it empties. -/
def drop (index : Rows K V) (key : K) (value : V) : Rows K V :=
  index.alter key fun row => row.bind fun row =>
    if (row.erase value).isEmpty then none else some (row.erase value)

def addAll (index : Rows K V) (keys : List K) (value : V) : Rows K V :=
  keys.foldl (fun index key => index.add key value) index

def dropAll (index : Rows K V) (keys : List K) (value : V) : Rows K V :=
  keys.foldl (fun index key => index.drop key value) index

omit [LawfulEqOrd K] [LawfulEqOrd V] in
theorem not_holds_empty (key : K) (value : V) : ¬ (∅ : Rows K V).Holds key value := by
  simp [Holds]

omit [LawfulEqOrd K] [LawfulEqOrd V] in
theorem noEmptyRow_empty : (∅ : Rows K V).NoEmptyRow := by
  simp [NoEmptyRow]

section Lookup

variable [DecidableEq K]

theorem holds_add (index : Rows K V) (key other : K) (value item : V) :
    (index.add key value).Holds other item ↔
      (other = key ∧ item = value) ∨ index.Holds other item := by
  simp only [Holds, add, HashMap.get_alter]
  by_cases same : key = other
  · subst same
    cases found : index[key]? <;> simp [eq_comm (a := item)]
  · simp [same, Ne.symm (Ne.intro same)]

theorem holds_drop (index : Rows K V) (key other : K) (value item : V) :
    (index.drop key value).Holds other item ↔
      index.Holds other item ∧ ¬ (other = key ∧ item = value) := by
  simp only [Holds, drop, HashMap.get_alter]
  by_cases same : key = other
  · subst same
    cases found : index[key]? with
    | none => simp
    | some row =>
      by_cases emptied : (row.erase value).isEmpty
      · have gone : item ∉ row.erase value := by
          rw [Std.ExtTreeSet.isEmpty_iff.mp emptied]
          exact Std.ExtTreeSet.not_mem_empty
        simp only [Std.ExtTreeSet.mem_erase] at gone
        simp
        grind
      · simp
        grind
  · simp [same, Ne.symm (Ne.intro same)]

variable {index : Rows K V}

omit [LawfulEqOrd V] in
theorem holds_erase {key other : K} {value : V} :
    Holds (index.erase key) other value ↔ other ≠ key ∧ index.Holds other value := by
  simp only [Holds, HashMap.get_erase]
  by_cases same : key = other
  · simp [same]
  · simp [same, Ne.symm (Ne.intro same)]

theorem noEmptyRow_add (full : index.NoEmptyRow) (key : K) (value : V) :
    (index.add key value).NoEmptyRow := by
  intro other row found
  simp only [add, HashMap.get_alter] at found
  split at found
  · cases found
    exact ⟨value, by simp⟩
  · exact full other row found

theorem noEmptyRow_drop (full : index.NoEmptyRow) (key : K) (value : V) :
    (index.drop key value).NoEmptyRow := by
  intro other row found
  simp only [drop, HashMap.get_alter] at found
  split at found
  · obtain ⟨old, -, kept⟩ := Option.bind_eq_some_iff.mp found
    split at kept
    · cases kept
    next nonempty =>
      cases kept
      by_contra none
      simp only [not_exists] at none
      exact nonempty (Std.ExtTreeSet.isEmpty_iff.mpr
        (Std.ExtTreeSet.ext_mem fun item => by simp [none item]))
  · exact full other row found

theorem holds_addAll (index : Rows K V) (keys : List K) (other : K) (value item : V) :
    (index.addAll keys value).Holds other item ↔
      (other ∈ keys ∧ item = value) ∨ index.Holds other item := by
  induction keys generalizing index with
  | nil => simp [addAll]
  | cons key rest ih =>
    have tail := ih (index.add key value)
    simp only [addAll, List.foldl_cons, List.mem_cons] at tail ⊢
    rw [tail, holds_add]
    tauto

theorem holds_dropAll (index : Rows K V) (keys : List K) (other : K) (value item : V) :
    (index.dropAll keys value).Holds other item ↔
      index.Holds other item ∧ ¬ (other ∈ keys ∧ item = value) := by
  induction keys generalizing index with
  | nil => simp [dropAll]
  | cons key rest ih =>
    have tail := ih (index.drop key value)
    simp only [dropAll, List.foldl_cons, List.mem_cons] at tail ⊢
    rw [tail, holds_drop]
    tauto

theorem noEmptyRow_addAll (full : index.NoEmptyRow) (keys : List K) (value : V) :
    (index.addAll keys value).NoEmptyRow := by
  induction keys generalizing index with
  | nil => exact full
  | cons key rest ih => exact ih (noEmptyRow_add full key value)

theorem noEmptyRow_dropAll (full : index.NoEmptyRow) (keys : List K) (value : V) :
    (index.dropAll keys value).NoEmptyRow := by
  induction keys generalizing index with
  | nil => exact full
  | cons key rest ih => exact ih (noEmptyRow_drop full key value)

end Lookup

end Rows

end VisaService.Lib
