/-
  Names with values, in the order in which the names first came.

  1. **Program**: a `NameMap` is a list of pairs.  `insert` exchanges the value of a known name
     without moving it and puts a new name at the end; `erase` takes a name out and keeps the order
     of the others.

  2. **Specification**: `get?` is the view of the map.  `insert` and `erase` have one equation each
     for the name they touch and one for every other name, and `keys_insert` says where a name
     stands.
-/

namespace ViewSheet

/-- Values under names, ordered by first insertion. -/
structure NameMap (ν : Type) where
  entries : List (String × ν)
deriving DecidableEq, Repr

namespace NameMap

variable {ν : Type}

/-! ## Programs -/

/-- The value of the first pair with this name. -/
def find (name : String) : List (String × ν) → Option ν
  | [] => none
  | (n, v) :: rest => if n = name then some v else find name rest

/-- Exchanges the value of a known name, or appends a new one. -/
def put (name : String) (value : ν) : List (String × ν) → List (String × ν)
  | [] => [(name, value)]
  | (n, v) :: rest => if n = name then (n, value) :: rest else (n, v) :: put name value rest

/-- No names. -/
def empty : NameMap ν := ⟨[]⟩

/-- The value under a name. -/
def get? (m : NameMap ν) (name : String) : Option ν := find name m.entries

/-- Whether there is a value under the name. -/
def contains (m : NameMap ν) (name : String) : Bool := (m.get? name).isSome

/-- The map with this value under the name. -/
def insert (m : NameMap ν) (name : String) (value : ν) : NameMap ν := ⟨put name value m.entries⟩

/-- The map without the name. -/
def erase (m : NameMap ν) (name : String) : NameMap ν := ⟨m.entries.filter (·.1 ≠ name)⟩

/-- The names in their order. -/
def keys (m : NameMap ν) : List String := m.entries.map (·.1)

/-- The values in the order of their names. -/
def values (m : NameMap ν) : List ν := m.entries.map (·.2)

/-- How many names there are. -/
def size (m : NameMap ν) : Nat := m.entries.length

/-- Inserts pairs from left to right, so that of two values for one name the later stays. -/
def ofList (pairs : List (String × ν)) : NameMap ν :=
  pairs.foldl (fun m (n, v) => m.insert n v) empty

/-- Equality that does not look at the order of the names. -/
def sameBy (same : ν → ν → Bool) (a b : NameMap ν) : Bool :=
  a.size == b.size && a.entries.all fun (n, v) =>
    match b.get? n with
    | some w => same v w
    | none => false

/-! ## The view through `get?` -/

@[simp] theorem get?_empty (name : String) : (empty : NameMap ν).get? name = none := rfl

@[simp] theorem get?_insert_self (m : NameMap ν) (name : String) (value : ν) :
    (m.insert name value).get? name = some value := by
  obtain ⟨es⟩ := m
  simp only [get?, insert]
  induction es with
  | nil => simp [put, find]
  | cons p rest ih =>
    obtain ⟨n, v⟩ := p
    by_cases h : n = name <;> simp [put, find, h, ih]

theorem get?_insert_of_ne (m : NameMap ν) {name other : String} (value : ν) (h : other ≠ name) :
    (m.insert name value).get? other = m.get? other := by
  obtain ⟨es⟩ := m
  simp only [get?, insert]
  induction es with
  | nil => simp [put, find, Ne.symm h]
  | cons p rest ih =>
    obtain ⟨n, v⟩ := p
    by_cases hn : n = name
    · simp [put, find, hn, Ne.symm h]
    · by_cases ho : n = other
      · subst ho
        simp [put, find, hn]
      · simp [put, find, hn, ho, ih]

theorem get?_erase_self (m : NameMap ν) (name : String) : (m.erase name).get? name = none := by
  obtain ⟨es⟩ := m
  simp only [get?, erase]
  induction es with
  | nil => rfl
  | cons p rest ih =>
    obtain ⟨n, v⟩ := p
    by_cases h : n = name <;> simp [find, h] <;> simpa using ih

theorem get?_erase_of_ne (m : NameMap ν) {name other : String} (h : other ≠ name) :
    (m.erase name).get? other = m.get? other := by
  obtain ⟨es⟩ := m
  simp only [get?, erase]
  induction es with
  | nil => rfl
  | cons p rest ih =>
    obtain ⟨n, v⟩ := p
    by_cases hn : n = name
    · simpa [find, hn, Ne.symm h] using ih
    · by_cases ho : n = other
      · subst ho
        simp [find, hn]
      · simpa [find, hn, ho] using ih

/-! ## Order and size -/

theorem keys_insert (m : NameMap ν) (name : String) (value : ν) :
    (m.insert name value).keys = if name ∈ m.keys then m.keys else m.keys ++ [name] := by
  obtain ⟨es⟩ := m
  simp only [keys, insert]
  induction es with
  | nil => simp [put]
  | cons p rest ih =>
    obtain ⟨n, v⟩ := p
    by_cases hn : n = name
    · simp [put, hn]
    · by_cases hr : name ∈ rest.map (·.1)
      · simp only [hr, if_true] at ih
        simp [put, hn, ih, Ne.symm hn, hr]
      · simp only [hr, if_false] at ih
        simp [put, hn, ih, Ne.symm hn, hr]

theorem size_erase_lt (m : NameMap ν) {name : String} {value : ν}
    (h : m.get? name = some value) : (m.erase name).size < m.size := by
  obtain ⟨es⟩ := m
  simp only [get?, erase, size] at *
  induction es with
  | nil => simp [find] at h
  | cons p rest ih =>
    obtain ⟨n, v⟩ := p
    by_cases hn : n = name
    · simp only [hn, ne_eq, not_true_eq_false, decide_false, Bool.false_eq_true, not_false_eq_true,
        List.filter_cons_of_neg, List.length_cons]
      exact Nat.lt_succ_of_le (List.length_filter_le _ _)
    · simp only [find, hn, if_false] at h
      simpa [hn] using ih h

end NameMap

end ViewSheet
