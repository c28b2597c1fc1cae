/-
  Declarations: a name with properties, a hierarchy, or both.

  1. **Program**: `setProperty` stores a text under a key, with the line its assignment starts on,
     and keeps the index from placeholders to the properties that mention them.  `setHierarchy`
     installs a tree.  Both say in the journal when they write over something.

  2. **Specification**: the last text stored under a key is the one read back
     (`property?_setProperty_self`), other keys keep theirs (`property?_setProperty_of_ne`).
-/
import ViewSheet.Journal
import ViewSheet.NameMap
import ViewSheet.Sheet.Hierarchy
import ViewSheet.Sheet.Placeholder

namespace ViewSheet

/-- The text of a property and the line on which its assignment starts. -/
structure PropertyText where
  value : String
  line : Nat
deriving DecidableEq, Repr

/-- The properties and the hierarchy stated under one name.  `mentions` lists, for each placeholder,
    the properties whose text holds it. -/
structure Declaration where
  name : String
  properties : NameMap PropertyText
  mentions : NameMap (List String)
  hierarchy : Option Hierarchy
deriving DecidableEq, Repr

namespace Declaration

/-! ## Asking -/

/-- A declaration that states nothing. -/
def empty (name : String) : Declaration := ⟨name, .empty, .empty, none⟩

/-- The property that names the class of the view to build. -/
def classKey : String := "class"

/-- The text stored under a key. -/
def property? (d : Declaration) (key : String) : Option PropertyText := d.properties.get? key

/-- The class that the declaration asks for. -/
def className? (d : Declaration) : Option String := (d.property? classKey).map (·.value)

/-- The keys of the properties that are handed to setters, in their order. -/
def setterKeys (d : Declaration) : List String := d.properties.keys.filter (· ≠ classKey)

/-- The text of a property with its bound placeholders filled in. -/
def filled? (d : Declaration) (key : String) (data : DataBindings) : Option PropertyText :=
  (d.property? key).map fun p => { p with value := fill data p.value }

/-- Whether the property's text holds the placeholder of this data key. -/
def dependsOn (d : Declaration) (property dataKey : String) : Bool :=
  match d.mentions.get? dataKey with
  | some properties => properties.contains property
  | none => false

/-! ## The index of placeholders -/

/-- Takes a property out of the index; placeholders that nothing mentions any more go too. -/
def forget (mentions : NameMap (List String)) (key : String) : NameMap (List String) :=
  ⟨(mentions.entries.map fun (placeholder, keys) => (placeholder, keys.filter (· ≠ key))).filter
    fun (_, keys) => !keys.isEmpty⟩

/-- Enters a property under one placeholder. -/
def mention (mentions : NameMap (List String)) (key placeholder : String) :
    NameMap (List String) :=
  mentions.insert placeholder (insertNew ((mentions.get? placeholder).getD []) key)

/-! ## Stating -/

/-- Stores a text under a key; the last one counts. -/
def setProperty (d : Declaration) (key value : String) (line : Nat) : List Event × Declaration :=
  let warnings := match d.property? key with
    | some old =>
      [Event.warning (s!"'{d.name}': overriding property '{key}' (line {old.line}) "
        ++ s!"with value from line {line}")]
    | none => []
  (warnings,
    { d with
      properties := d.properties.insert key ⟨value, line⟩
      mentions := (placeholders value).foldl (mention · key) (forget d.mentions key) })

/-- Installs a hierarchy; the last one counts. -/
def setHierarchy (d : Declaration) (h : Hierarchy) : List Event × Declaration :=
  let warnings := match d.hierarchy with
    | some _ => [Event.warning s!"'{d.name}' already has a view hierarchy; replacing it"]
    | none => []
  (warnings, { d with hierarchy := some h })

/-- Equality that looks at the order of nothing but nodes. -/
def same (a b : Declaration) : Bool :=
  a.name == b.name && a.properties.sameBy (· == ·) b.properties &&
    a.mentions.sameBy (fun ks ls => ks.length == ls.length && ks.all ls.contains) b.mentions &&
    a.hierarchy == b.hierarchy

/-! ## What is read back -/

theorem property?_setProperty_self (d : Declaration) (key value : String) (line : Nat) :
    (d.setProperty key value line).2.property? key = some ⟨value, line⟩ := by
  simp [setProperty, property?]

theorem property?_setProperty_of_ne (d : Declaration) {key other : String} (value : String)
    (line : Nat) (h : other ≠ key) :
    (d.setProperty key value line).2.property? other = d.property? other := by
  simp [setProperty, property?, NameMap.get?_insert_of_ne _ _ h]

end Declaration

end ViewSheet
