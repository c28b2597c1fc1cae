/-
  Data bindings: the texts that stand for placeholders.

  1. **Program**: pairs of key and text, kept in ascending order of the keys, each key once.  Keys
     are ordered by the numbers of their characters.  `changedKeys` lists the keys whose text two
     sets of bindings do not agree on.

  2. **Specification**: `get?` is the view; `mem_changedKeys` says that a key is listed exactly when
     the two sets differ at it.
-/

namespace ViewSheet

/-- Texts under keys, in ascending order of the keys. -/
structure DataBindings where
  entries : List (String × String)
deriving DecidableEq, Repr

namespace DataBindings

/-! ## Programs -/

/-- The text of the first pair with this key. -/
def find (key : String) : List (String × String) → Option String
  | [] => none
  | (k, v) :: rest => if k = key then some v else find key rest

/-- Places a pair before the first greater key, or exchanges the text of an equal key. -/
def place (key value : String) : List (String × String) → List (String × String)
  | [] => [(key, value)]
  | (k, v) :: rest =>
    if k = key then (key, value) :: rest
    else if key < k then (key, value) :: (k, v) :: rest
    else (k, v) :: place key value rest

/-- Nothing is bound. -/
def empty : DataBindings := ⟨[]⟩

/-- The text bound to a key. -/
def get? (d : DataBindings) (key : String) : Option String := find key d.entries

/-- Binds a key, whether it was bound before or not. -/
def set (d : DataBindings) (key value : String) : DataBindings := ⟨place key value d.entries⟩

/-- Unbinds a key. -/
def remove (d : DataBindings) (key : String) : DataBindings := ⟨d.entries.filter (·.1 ≠ key)⟩

/-- The bound keys, ascending. -/
def keys (d : DataBindings) : List String := d.entries.map (·.1)

/-- Binds pairs from left to right, so that of two texts for one key the later stays. -/
def ofList (pairs : List (String × String)) : DataBindings :=
  pairs.foldl (fun d (k, v) => d.set k v) empty

/-- The keys at which two sets of bindings differ. -/
def changedKeys (old new : DataBindings) : List String :=
  (old.keys ++ new.keys).filter fun k => old.get? k ≠ new.get? k

/-! ## The view through `get?` -/

theorem mem_keys_of_get? {d : DataBindings} {key value : String} (h : d.get? key = some value) :
    key ∈ d.keys := by
  obtain ⟨es⟩ := d
  simp only [get?, keys] at *
  induction es with
  | nil => simp [find] at h
  | cons p rest ih =>
    obtain ⟨k, v⟩ := p
    by_cases hk : k = key
    · simp [hk]
    · simp only [find, hk, if_false] at h
      exact List.mem_cons_of_mem _ (ih h)

theorem mem_changedKeys {old new : DataBindings} {key : String} :
    key ∈ changedKeys old new ↔ old.get? key ≠ new.get? key := by
  simp only [changedKeys, List.mem_filter, List.mem_append, ne_eq, decide_eq_true_eq]
  refine ⟨fun h => h.2, fun h => ⟨?_, h⟩⟩
  cases ho : old.get? key with
  | some v => exact Or.inl (mem_keys_of_get? ho)
  | none =>
    cases hn : new.get? key with
    | some v => exact Or.inr (mem_keys_of_get? hn)
    | none => exact absurd (ho.trans hn.symm) h

end DataBindings

/-! ## Edits -/

/-- One step of changing data bindings. -/
inductive DataEdit where
  | set (key value : String)
  | remove (key : String)
  | get (key : String)
deriving DecidableEq, Repr

namespace DataEdit

/-- What an edit shows to the one who makes it, and the bindings after it. -/
def run (d : DataBindings) : DataEdit → Option String × DataBindings
  | set key value => (none, d.set key value)
  | remove key => (d.get? key, d.remove key)
  | get key => (d.get? key, d)

/-- Edits one after the other: what each shows, and the bindings after all. -/
def runAll : DataBindings → List DataEdit → List (Option String) × DataBindings
  | d, [] => ([], d)
  | d, e :: rest =>
    let (seen, d') := e.run d
    let (others, final) := runAll d' rest
    (seen :: others, final)

end DataEdit

end ViewSheet
