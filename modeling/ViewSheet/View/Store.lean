/-
  Stores: all views there are, by identity.

  1. **Program**: a store hands out identities in ascending order and never takes a view away.
     `reaches` follows the lists of attached views downwards; no path in a tree is longer than the
     store is large, which bounds the search.

  2. **Specification**: one equation for each change, through `get?`.
-/
import ViewSheet.View.Basic

namespace ViewSheet

/-- The state of every view. -/
structure ViewStore where
  views : Array View
deriving DecidableEq, Repr

namespace ViewStore

/-! ## Programs -/

/-- No views. -/
def empty : ViewStore := ⟨#[]⟩

/-- How many views there are. -/
def size (s : ViewStore) : Nat := s.views.size

/-- The state of a view. -/
def get? (s : ViewStore) (id : ViewId) : Option View := s.views[id.index]?

/-- The identity that the next new view gets. -/
def fresh (s : ViewStore) : ViewId := ⟨s.views.size⟩

/-- Adds a new view. -/
def add (s : ViewStore) (v : View) : ViewStore := ⟨s.views.push v⟩

/-- Changes the state of a view. -/
def set (s : ViewStore) (id : ViewId) (v : View) : ViewStore := ⟨s.views.setIfInBounds id.index v⟩

/-- The views attached to a view. -/
def subviews (s : ViewStore) (id : ViewId) : List ViewId :=
  match s.get? id with
  | some v => v.subviews
  | none => []

/-- Attaches a view to another. -/
def attach (s : ViewStore) (parent child : ViewId) : ViewStore :=
  match s.get? parent with
  | some v => s.set parent (v.addSubview child)
  | none => s

/-- Whether `target` is `view` or at most so many levels below it. -/
def reaches (s : ViewStore) (target : ViewId) : Nat → ViewId → Bool
  | 0, view => view = target
  | levels + 1, view => view = target || (s.subviews view).any (reaches s target levels)

/-- Whether `target` is `view` or anywhere below it. -/
def holds (s : ViewStore) (view target : ViewId) : Bool := s.reaches target s.size view

/-! ## The view through `get?` -/

theorem get?_add_fresh (s : ViewStore) (v : View) : (s.add v).get? s.fresh = some v := by
  simp [add, fresh, get?]

theorem get?_add_of_ne (s : ViewStore) (v : View) {id : ViewId} (h : id ≠ s.fresh) :
    (s.add v).get? id = s.get? id := by
  have : id.index ≠ s.views.size := fun hi => h (by cases id; simp_all [fresh])
  simp only [add, get?, Array.getElem?_push]
  rw [if_neg this]

theorem get?_set_self {s : ViewStore} {id : ViewId} {old : View} (h : s.get? id = some old)
    (v : View) : (s.set id v).get? id = some v := by
  have hlt : id.index < s.views.size := by
    simp only [get?] at h
    exact (Array.getElem?_eq_some_iff.1 h).1
  simp [set, get?, hlt]

/-- Setting a view to what it is changes nothing. -/
theorem set_self {s : ViewStore} {id : ViewId} {v : View} (h : s.get? id = some v) :
    s.set id v = s := by
  obtain ⟨hlt, hv⟩ := Array.getElem?_eq_some_iff.1 h
  subst hv
  have hlt' : id.index < s.views.size := hlt
  simp [set, Array.setIfInBounds, hlt']

theorem get?_set_of_ne (s : ViewStore) (v : View) {id other : ViewId} (h : other ≠ id) :
    (s.set id v).get? other = s.get? other := by
  have : id.index ≠ other.index := fun hi => h (by cases id; cases other; simp_all)
  simp [set, get?, this]

end ViewStore

end ViewSheet
