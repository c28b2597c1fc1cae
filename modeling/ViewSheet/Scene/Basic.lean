/-
  Scenes: one hierarchy of a definition with the views built for it.

  1. **World**: views live in a world that scenes share, together with the journal and the record
     of all executions.  A scene holds names, not views: what it binds is identities.

  2. **Scene**: the hierarchy is the root declaration's when the scene was loaded.  The names
     `$root` and that of the root declaration stand for the host's container, which is there once
     the scene has been attached; every other name stands for the view built for it, if one was.
-/
import ViewSheet.Definition

namespace ViewSheet

open Text

/-! ## The world -/

/-- All views, all that happened, and every setter's turn. -/
structure World where
  store : ViewStore
  journal : List Event
  executions : List Execution
deriving DecidableEq, Repr

namespace World

/-- Nothing yet. -/
def empty : World := ⟨.empty, [], []⟩

/-- Adds to the journal. -/
def tell (w : World) (events : List Event) : World := { w with journal := w.journal ++ events }

/-- Records a setter's turn. -/
def enter (w : World) (e : Execution) : World := { w with executions := w.executions ++ [e] }

/-- Adds a view. -/
def addView (w : World) (v : View) : World := { w with store := w.store.add v }

/-- Changes a view. -/
def setView (w : World) (id : ViewId) (v : View) : World := { w with store := w.store.set id v }

end World

/-! ## Scenes -/

/-- How far a scene has come. -/
inductive SceneState where
  /-- The views are there and configured. -/
  | viewsConstructed
  /-- The views hang in a container, and have been configured with a look around. -/
  | attached
deriving DecidableEq, Repr

namespace SceneState

/-- The name of the state. -/
def name : SceneState → String
  | viewsConstructed => "ViewsConstructed"
  | attached => "Attached"

end SceneState

/-- A hierarchy with its views. -/
structure Scene where
  definition : Definition
  root : String
  hierarchy : Hierarchy
  data : DataBindings
  bindings : ViewBindings
  state : SceneState

namespace Scene

/-- Whether a name stands for the host's container. -/
def isRootName (s : Scene) (name : String) : Bool := name == rootName || name == s.root

/-- The view under a name. -/
def bound? (s : Scene) (name : String) : Option ViewId := s.bindings.bound? name

/-- The names of the nodes below the root, level by level. -/
def nodeNames (s : Scene) : List String := s.hierarchy.breadthFirst.map s.hierarchy.nameOf

/-- The names whose declarations are applied: those of the nodes, each once, and then the root's. -/
def declaredNames (s : Scene) : List String :=
  (s.nodeNames ++ [s.root]).foldl insertNew []

/-- The declarations that are applied and have properties to set. -/
def configured (s : Scene) : List Declaration :=
  (s.declaredNames.filterMap s.definition.document.get?).filter (!·.setterKeys.isEmpty)

/-- The names that stand for a view, in the order in which they were bound. -/
def names (s : Scene) : List String :=
  (s.bindings.entries.filter (·.2.isSome)).map (·.1)

/-- The first of the names that stand for a view. -/
def nameOf? (s : Scene) (id : ViewId) : Option String :=
  (s.bindings.entries.find? fun (_, view) => view = some id).map (·.1)

/-- A key and its text, both quoted. -/
def debugPair (p : String × String) : String := quoted p.1 ++ ": " ++ quoted p.2

/-- The scene with its parts by name. -/
def debugText (s : Scene) : String :=
  "LiveContext \x7b root: " ++ quoted s.root ++ ", state: " ++ s.state.name
    ++ ", views: " ++ quotedList s.names
    ++ ", data_bindings: \x7b" ++ ", ".intercalate (s.data.entries.map debugPair) ++ "\x7d \x7d"

end Scene

end ViewSheet
