/-
  Configuring: handing the properties of declarations to their views.

  1. **Program**: `applyKey` fills in a property's text and hands it to the view; `applyKeys` goes
     through the keys of a declaration, `applyAll` through the declarations.  A declaration without
     a view is skipped.  The first failure ends everything, with a note of the declaration.

  2. **Executions**: every property that is handed over is recorded before its setter runs, and the
     view is from then on as the setter has left it, also if it has failed.
-/
import ViewSheet.Scene.Basic

namespace ViewSheet

namespace Scene

/-! ## One property -/

/-- What is running, for a view that is being configured. -/
def turn (s : Scene) (phase : Phase) (w : World) (busy : ViewId) : Turn :=
  match phase with
  | .construction => .construction
  | .attached => .attached ⟨s.bindings, w.store, busy⟩

/-- Hands one property of a declaration to a view. -/
def applyKey (s : Scene) (phase : Phase) (d : Declaration) (id : ViewId) (key : String)
    (w : World) : Except Error Unit × World :=
  match d.filled? key s.data, w.store.get? id with
  | some p, some v =>
    let w := w.enter ⟨phase, d.name, key, p.value⟩
    let receipt := s.definition.catalogue.receive key (s.turn phase w id) (.start p.value p.line) v
    let w := (w.setView id receipt.view).tell receipt.events
    match receipt.result with
    | .ok () => (.ok (), w)
    | .error e => (.error (e.during s!"while setting properties for {d.name}"), w)
  | _, _ => (.ok (), w)

/-! ## Many properties -/

/-- Hands properties of a declaration to a view, until one fails. -/
def applyKeys (s : Scene) (phase : Phase) (d : Declaration) (id : ViewId) :
    List String → World → Except Error Unit × World
  | [], w => (.ok (), w)
  | key :: rest, w => match s.applyKey phase d id key w with
    | (.error e, w') => (.error e, w')
    | (.ok (), w') => applyKeys s phase d id rest w'

/-- Hands properties of a declaration to its view, if there is one. -/
def applyDeclaration (s : Scene) (phase : Phase) (d : Declaration) (keys : List String)
    (w : World) : Except Error Unit × World :=
  match s.bound? d.name with
  | some id => s.applyKeys phase d id keys w
  | none => (.ok (), w)

/-- Hands all properties of some declarations to their views. -/
def applyEach (s : Scene) (phase : Phase) :
    List Declaration → World → Except Error Unit × World
  | [], w => (.ok (), w)
  | d :: rest, w => match s.applyDeclaration phase d d.setterKeys w with
    | (.error e, w') => (.error e, w')
    | (.ok (), w') => applyEach s phase rest w'

/-- Hands all properties of the scene's declarations to their views. -/
def applyAll (s : Scene) (phase : Phase) (w : World) : Except Error Unit × World :=
  s.applyEach phase s.configured w

end Scene

end ViewSheet
