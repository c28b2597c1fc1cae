/-
  Documents: the declarations of one source, in the order in which their names first came.

  `amend` changes the declaration under a name, which starts out empty; everything that changes a
  document goes through it.
-/
import ViewSheet.Sheet.Declaration

namespace ViewSheet

/-- The declarations of one source.  The identifier says where the source is from. -/
structure Document where
  identifier : String
  declarations : NameMap Declaration
deriving DecidableEq, Repr

namespace Document

/-! ## Programs -/

/-- A document without declarations. -/
def empty (identifier : String) : Document := ⟨identifier, .empty⟩

/-- The declaration under a name. -/
def get? (doc : Document) (name : String) : Option Declaration := doc.declarations.get? name

/-- The declaration under a name, or an empty one. -/
def getD (doc : Document) (name : String) : Declaration := (doc.get? name).getD (.empty name)

/-- Changes the declaration under a name. -/
def amend (doc : Document) (name : String) (change : Declaration → List Event × Declaration) :
    List Event × Document :=
  let (events, d) := change (doc.getD name)
  (events, { doc with declarations := doc.declarations.insert name d })

/-- Makes sure that there is a declaration under a name. -/
def touch (doc : Document) (name : String) : Document := (doc.amend name fun d => ([], d)).2

/-- The names of the declarations. -/
def names (doc : Document) : List String := doc.declarations.keys

/-- The names of the declarations that own a hierarchy. -/
def hierarchyNames (doc : Document) : List String :=
  (doc.declarations.values.filter (·.hierarchy.isSome)).map (·.name)

/-- How many declarations there are. -/
def size (doc : Document) : Nat := doc.declarations.size

/-- Equality that looks at the order of nothing but nodes. -/
def same (a b : Document) : Bool :=
  a.identifier == b.identifier && a.declarations.sameBy Declaration.same b.declarations

/-! ## What is read back -/

theorem get?_amend_self (doc : Document) (name : String)
    (change : Declaration → List Event × Declaration) :
    (doc.amend name change).2.get? name = some (change (doc.getD name)).2 := by
  simp [amend, get?]

theorem get?_amend_of_ne (doc : Document) {name other : String}
    (change : Declaration → List Event × Declaration) (h : other ≠ name) :
    (doc.amend name change).2.get? other = doc.get? other := by
  simp [amend, get?, NameMap.get?_insert_of_ne _ _ h]

end Document

end ViewSheet
