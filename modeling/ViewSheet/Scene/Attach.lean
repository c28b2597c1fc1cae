/-
  Attaching: hanging the views of a scene into a container.

  1. **Program**: the container takes both names of the root and the properties of the root
     declaration.  The first time, the views are hung from one another as the hierarchy says, and
     then all properties are handed over again with a look around.  A name that occurs more than
     once stands for one view, which hangs where its last occurrence says.  A view never hangs below
     itself.

  2. **Later calls** only exchange the container and configure it.
-/
import ViewSheet.Scene.Load

namespace ViewSheet

namespace Scene

/-! ## Wiring -/

/-- Hangs the view of one node from the view of its parent, if both are there. -/
def wireNode (s : Scene) (node : Nat) (w : World) : World :=
  let name := s.hierarchy.nameOf node
  match s.hierarchy.parent? node with
  | none => w
  | some parentNode =>
    if s.hierarchy.find? name ≠ some node then w
    else
      let parentName := s.hierarchy.nameOf parentNode
      match s.bound? parentName, s.bound? name with
      | some parent, some child =>
        if s.bound? rootName = some child ∨ w.store.holds child parent then
          w.tell [.warning s!"'{name}' already contains its parent '{parentName}'; not attaching"]
        else { w with store := w.store.attach parent child }
      | _, _ => w

/-- Hangs the views of nodes, one after the other. -/
def wireNodes (s : Scene) : List Nat → World → World
  | [], w => w
  | node :: rest, w => wireNodes s rest (s.wireNode node w)

/-- Hangs the views of all nodes, level by level. -/
def wire (s : Scene) (w : World) : World := s.wireNodes s.hierarchy.breadthFirst w

/-! ## Attaching -/

/-- Hands the properties of the root declaration to the container. -/
def configureRoot (s : Scene) (w : World) : Except Error Unit × World :=
  match s.definition.document.get? s.root with
  | some d => s.applyDeclaration .construction d d.setterKeys w
  | none => (.ok (), w)

/-- Binds the names of the root to a container. -/
def withContainer (s : Scene) (container : ViewId) : Scene :=
  { s with bindings :=
      (s.bindings.insert rootName (some container)).insert s.root (some container) }

/-- Configures the container that has just been bound; the first time, wires the tree and configures
    the views with a look around. -/
def settle (s : Scene) (first : Bool) (w : World) : Except Error Unit × World :=
  match s.configureRoot w with
  | (.error e, w) => (.error e, w)
  | (.ok (), w) => if first then s.applyAll .attached (s.wire w) else (.ok (), w)

/-- Hangs the scene into a container.  Even if that fails, the container is bound from now on. -/
def attach (s : Scene) (container : ViewId) (w : World) : Except Error Unit × Scene × World :=
  let first := (s.bound? rootName).isNone
  let s := s.withContainer container
  match s.definition.reporting (s.settle first w) with
  | (.error e, w) => (.error e, s, w)
  | (.ok (), w) => (.ok (), if first then { s with state := .attached } else s, w)

end Scene

end ViewSheet
