/-
  Looking up: how a host finds the views of a scene.

  `lookup` finds a view by name, `lookupAs` also asks that it can be seen as a class, `change` lets
  the host change it.

  A mapping of the host takes several views at once out of a scene, or fails.  What it is handed is
  a `Mapper`: the views, by name, and all that a scene shows of itself.  `loadWith` loads a
  hierarchy and maps it.
-/
import ViewSheet.Scene.Update

namespace ViewSheet

namespace Scene

/-- The view under a name. -/
def lookup (s : Scene) (name : String) : Except Error ViewId := s.bindings.lookup name

/-- The view under a name, if it can be seen as a class. -/
def lookupAs (s : Scene) (w : World) (className name : String) : Except Error ViewId :=
  s.bindings.lookupAs w.store.get? className name

/-- Changes the part of a view that belongs to a class, and gives the part as it was. -/
def change {V : Type} (s : Scene) (w : World) (cls : ViewClass V) (name : String) (f : V → V) :
    Except Error V × World :=
  match s.lookupAs w cls.name name with
  | .error e => (.error e, w)
  | .ok id => match w.store.get? id with
    | none => (.error (.of (.invalidViewType s!"View named {name} is not a {cls.name}")), w)
    | some v => match cls.get? v with
      | none => (.error (.of (.invalidViewType s!"View named {name} is not a {cls.name}")), w)
      | some part => (.ok part, w.setView id (cls.set v (f part)))

end Scene

/-- What a mapping is handed: the views, and the scene but for who listens to it. -/
structure Mapper where
  document : Document
  catalogue : Catalogue
  root : String
  hierarchy : Hierarchy
  data : DataBindings
  bindings : ViewBindings
  state : SceneState
  store : ViewStore

namespace Mapper

/-- The view under a name. -/
def view (m : Mapper) (name : String) : Except Error ViewId := m.bindings.lookup name

/-- The view under a name, if it can be seen as a class. -/
def viewAs (m : Mapper) (className name : String) : Except Error ViewId :=
  m.bindings.lookupAs m.store.get? className name

end Mapper

/-- What the scene shows to a mapping. -/
def Scene.mapper (s : Scene) (w : World) : Mapper :=
  ⟨s.definition.document, s.definition.catalogue, s.root, s.hierarchy, s.data, s.bindings, s.state,
    w.store⟩

namespace Definition

/-- Loads a hierarchy and maps it.  The mapping may fail with any error. -/
def loadWith {M : Type} (d : Definition) (root : String)
    (mapping : Mapper → Except Error M) (w : World) :
    Except Error (Scene × M) × World :=
  match d.load root w with
  | (.error e, w) => (.error e, w)
  | (.ok s, w) => d.reporting ((mapping (s.mapper w)).map fun mapped => (s, mapped), w)

end Definition

end ViewSheet
