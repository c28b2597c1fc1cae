/-
  Catalogues: the classes that can be built, and the setters of each class.

  1. **Program**: a class has a superclass, if any, and a view to start from, unless it is abstract.
     `chain` follows the superclasses; a registered class may name any superclass, also one that
     leads back to itself, and then the chain stops with a warning.  `receive` hands a property to
     the first table along the chain of the view's class that has a setter for it.

  2. **Why the chain ends**: a class that has been passed is taken out of the classes that are left,
     so these get fewer with every step.
-/
import ViewSheet.Catalogue.Setter

namespace ViewSheet

/-- A class: its superclass, and the view that a new one starts as.  An abstract class has none. -/
structure ClassEntry where
  superclass : Option String
  blank : Option View
deriving DecidableEq, Repr

/-- The known classes and their setters. -/
structure Catalogue where
  classes : NameMap ClassEntry
  tables : NameMap SetterTable

namespace Catalogue

/-! ## Classes -/

/-- The class that every view to be built has to descend from. -/
def baseClass : String := "Container"

/-- Registers a class whose views can be built. -/
def registerClass {V : Type} (c : Catalogue) (cls : ViewClass V) : Catalogue :=
  { c with classes := c.classes.insert cls.name ⟨cls.superclass, some cls.blank⟩ }

/-- Registers a class that carries properties but is never built. -/
def registerAbstract (c : Catalogue) (name : String) (superclass : Option String) : Catalogue :=
  { c with classes := c.classes.insert name ⟨superclass, none⟩ }

/-- A catalogue that knows the base class alone. -/
def empty : Catalogue := registerClass ⟨.empty, .empty⟩ ViewClass.container

/-- Whether the class is registered. -/
def hasClass (c : Catalogue) (name : String) : Bool := c.classes.contains name

/-- The registered superclass of a class. -/
def superclass? (classes : NameMap ClassEntry) (name : String) : Option String :=
  match classes.get? name with
  | some entry => entry.superclass
  | none => none

theorem size_erase_lt_of_superclass? {classes : NameMap ClassEntry} {name next : String}
    (h : superclass? classes name = some next) : (classes.erase name).size < classes.size := by
  unfold superclass? at h
  split at h
  · rename_i entry he
    exact NameMap.size_erase_lt classes he
  · simp at h

/-- The superclasses of `current`, as long as they are not among the classes passed.  The second
    part is the class at which the chain would loop. -/
def ancestors (left : NameMap ClassEntry) (passed : List String) (current : String) :
    List String × Option String :=
  match _h : superclass? left current with
  | none => ([], none)
  | some next =>
    if passed.contains next then ([], some next)
    else
      let (more, loop) := ancestors (left.erase current) (passed ++ [next]) next
      (next :: more, loop)
termination_by left.size
decreasing_by exact size_erase_lt_of_superclass? _h

/-- A class and its ancestors, and a warning if they go round in a circle. -/
def chain (c : Catalogue) (name : String) : List Event × List String :=
  let (above, loop) := ancestors c.classes [name] name
  let warnings := match loop with
    | some next => [Event.warning s!"class chain of '{name}' loops back to '{next}'"]
    | none => []
  (warnings, name :: above)

/-- Whether a class is or descends from another. -/
def isSubclass (c : Catalogue) (name ancestor : String) : List Event × Bool :=
  let (events, names) := c.chain name
  (events, names.contains ancestor)

/-- A new view of a class, unless the class is unknown or abstract. -/
def instantiate? (c : Catalogue) (name : String) : Option View :=
  (c.classes.get? name).bind (·.blank)

/-! ## Setters -/

/-- The table of a class. -/
def table? (c : Catalogue) (className : String) : Option SetterTable := c.tables.get? className

/-- The table of a class, or an empty one. -/
def tableD (c : Catalogue) (className : String) : SetterTable :=
  (c.table? className).getD (.empty className)

/-- Makes sure that a class has a table. -/
def openTable (c : Catalogue) (className : String) : Catalogue :=
  { c with tables := c.tables.insert className (c.tableD className) }

/-- Registers a setter of a class.  Its table is there afterwards even if there are no hooks. -/
def register (c : Catalogue) (className property : String) (scan : Scan Value)
    (hooks : List Hook) : Catalogue :=
  { c with tables :=
      c.tables.insert className ((c.tableD className).register property scan hooks) }

/-- The tables along the chain of a class, nearest first. -/
def tablesFor (c : Catalogue) (className : String) : List Event × List SetterTable :=
  let (events, names) := c.chain className
  (events, names.filterMap c.table?)

/-- Hands a property to the first of the tables that has a setter for it. -/
def receiveIn (property : String) (turn : Turn) (cursor : Cursor) (v : View) :
    List SetterTable → Receipt
  | [] =>
    let detail := s!"Property '{property}' has no setter registered in any "
      ++ s!"ancestor of type {v.className}"
    ⟨.error (.of (.unhandledProperty detail cursor.line)), v, cursor, []⟩
  | t :: rest => match t.receive? property turn cursor v with
    | some receipt => receipt
    | none => receiveIn property turn cursor v rest

/-- Hands a property to a view. -/
def receive (c : Catalogue) (property : String) (turn : Turn) (cursor : Cursor) (v : View) :
    Receipt :=
  let (events, tables) := c.tablesFor v.className
  let receipt := receiveIn property turn cursor v tables
  { receipt with events := events ++ receipt.events }

end Catalogue

end ViewSheet
