/-
  Setters: how a property's value gets into a view.

  1. **Program**: a setter scans a value and hands it to the hook of the turn that is running, if it
     has one.  At construction a hook sees the view alone; once the tree stands it also sees its
     surroundings and may fail.  A hook of a class does nothing to a view that cannot be seen as
     that class.

  2. **Order of effects**: the text is scanned before any hook runs.  If the scan fails, the view is
     as before.  If the hook fails, the view is as the hook has left it: nothing is undone.

  3. **Surroundings**: other views are found by name.  The view that is being configured has a name
     too, but cannot be looked into.
-/
import ViewSheet.Journal
import ViewSheet.Reading
import ViewSheet.View.Class
import ViewSheet.View.Store

namespace ViewSheet

/-! ## Views by name -/

/-- What the names of a scene stand for; a name may be reserved for a view that is not there yet. -/
abbrev ViewBindings := NameMap (Option ViewId)

namespace ViewBindings

/-- The view under a name. -/
def bound? (b : ViewBindings) (name : String) : Option ViewId := (b.get? name).join

/-- The view under a name, or a complaint. -/
def lookup (b : ViewBindings) (name : String) : Except Error ViewId :=
  match b.bound? name with
  | some id => .ok id
  | none => .error (.of (.unknownView s!"Unknown view {name} in view hierarchy"))

/-- The view under a name, if it can be seen as a class.  `inspect` does not show a view that is
    being configured. -/
def lookupAs (b : ViewBindings) (inspect : ViewId → Option View) (className name : String) :
    Except Error ViewId :=
  match b.lookup name with
  | .error e => .error e
  | .ok id => match inspect id with
    | none => .error (.of (.invalidViewType
        s!"View named {name} is being configured and cannot be inspected"))
    | some v =>
      if v.isA className then .ok id
      else .error (.of (.invalidViewType (s!"Unexpected type {className} for view named {name}. "
        ++ s!"Expecting type {v.className}")))

end ViewBindings

/-- What a hook can see of the scene around the view it configures. -/
structure Surroundings where
  bindings : ViewBindings
  store : ViewStore
  busy : ViewId
deriving DecidableEq, Repr

namespace Surroundings

/-- The view under a name, or a complaint. -/
def lookup (s : Surroundings) (name : String) : Except Error ViewId := s.bindings.lookup name

/-- The state of a view other than the one that is being configured. -/
def inspect (s : Surroundings) (id : ViewId) : Option View :=
  if id = s.busy then none else s.store.get? id

/-- The view under a name, if it can be seen as a class. -/
def lookupAs (s : Surroundings) (className name : String) : Except Error ViewId :=
  s.bindings.lookupAs s.inspect className name

end Surroundings

/-! ## Hooks and setters -/

/-- Puts a value into a view right after the view is made. -/
abbrev ConstructionHook := View → Value → List Event × View

/-- Puts a value into a view once the tree stands.  It may fail, and what it has done to the view
    until then stays done. -/
abbrev AttachedHook := Surroundings → View → Value → List Event × Except Error Unit × View

/-- A hook of either turn. -/
inductive Hook where
  | construction (hook : ConstructionHook)
  | attached (hook : AttachedHook)

/-- A scan, and what is done with the value in each turn. -/
structure Setter where
  scan : Scan Value
  atConstruction : Option ConstructionHook
  whenAttached : Option AttachedHook

/-- Which turn is running. -/
inductive Turn where
  | construction
  | attached (around : Surroundings)

namespace Turn

/-- The name of the turn. -/
def phase : Turn → Phase
  | construction => .construction
  | attached _ => .attached

end Turn

/-- What came of handing a property to a view, and the view as it was left. -/
structure Receipt where
  result : Except Error Unit
  view : View
  cursor : Cursor
  events : List Event

namespace Setter

/-- A setter that scans and does nothing else. -/
def ofScan (scan : Scan Value) : Setter := ⟨scan, none, none⟩

/-- The setter with one more hook; it takes the place of an earlier hook for the same turn. -/
def withHook (s : Setter) : Hook → Setter
  | .construction hook => { s with atConstruction := some hook }
  | .attached hook => { s with whenAttached := some hook }

/-- Hands a scanned value to the hook of the turn. -/
def handOver (s : Setter) (turn : Turn) (v : View) (value : Value) :
    List Event × Except Error Unit × View :=
  match turn with
  | .construction => match s.atConstruction with
    | some hook => ((hook v value).1, .ok (), (hook v value).2)
    | none => ([], .ok (), v)
  | .attached around => match s.whenAttached with
    | some hook => hook around v value
    | none => ([], .ok (), v)

/-- Scans a value and hands it over. -/
def execute (s : Setter) (turn : Turn) (cursor : Cursor) (v : View) : Receipt :=
  match s.scan cursor with
  | (.error e, after) => ⟨.error e, v, after, []⟩
  | (.ok value, after) =>
    let (events, result, v) := s.handOver turn v value
    ⟨result, v, after, events⟩

end Setter

/-! ## Hooks of a class -/

namespace ViewClass

variable {V α : Type}

/-- A hook that changes the part of a view that belongs to the class. -/
def onConstruction (cls : ViewClass V) (kind : Kind α) (change : V → α → V) : Hook :=
  .construction fun v value =>
    match cls.get? v, kind.project value with
    | some part, some a => ([], cls.set v (change part a))
    | _, _ => ([], v)

/-- A hook that changes the part of a view that belongs to the class, with a look around. -/
def onAttached (cls : ViewClass V) (kind : Kind α)
    (change : Surroundings → V → α → List Event × Except Error Unit × V) : Hook :=
  .attached fun around v value =>
    match cls.get? v, kind.project value with
    | some part, some a =>
      let (events, result, part) := change around part a
      (events, result, cls.set v part)
    | _, _ => ([], .ok (), v)

end ViewClass

/-! ## Tables -/

/-- The setters of one class, by property. -/
structure SetterTable where
  className : String
  setters : NameMap Setter

namespace SetterTable

/-- A table without setters. -/
def empty (className : String) : SetterTable := ⟨className, .empty⟩

/-- Installs a setter with the hooks given, in the place of an earlier one for the property.
    Without hooks nothing is installed. -/
def register (t : SetterTable) (property : String) (scan : Scan Value) (hooks : List Hook) :
    SetterTable :=
  if hooks.isEmpty then t
  else { t with setters := t.setters.insert property (hooks.foldl Setter.withHook (.ofScan scan)) }

/-- Hands a property to a view, if there is a setter for it. -/
def receive? (t : SetterTable) (property : String) (turn : Turn) (cursor : Cursor) (v : View) :
    Option Receipt :=
  (t.setters.get? property).map fun s => s.execute turn cursor v

end SetterTable

end ViewSheet
