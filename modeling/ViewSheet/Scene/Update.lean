/-
  Updating: changing the data bindings of a scene.

  1. **Program**: an update changes the bindings, and then hands over again the properties whose
     text mentions a key that is bound to something else than before.  It goes declaration by
     declaration; in an attached scene each is handed over a second time, with a look around.

  2. **Failures**: the new bindings stay in force even if handing over fails.
-/
import ViewSheet.Scene.Attach

namespace ViewSheet

namespace Scene

/-! ## What is affected -/

/-- The properties of a declaration that mention a changed key. -/
def affectedKeys (d : Declaration) (changed : List String) : List String :=
  d.setterKeys.filter fun key => changed.any (d.dependsOn key)

/-- Hands properties of a declaration over again, in the turns that the scene has had. -/
def reapplyKeys (s : Scene) (d : Declaration) (keys : List String) (w : World) :
    Except Error Unit × World :=
  match s.applyDeclaration .construction d keys w with
  | (.error e, w) => (.error e, w)
  | (.ok (), w) => match s.state with
    | .attached => s.applyDeclaration .attached d keys w
    | .viewsConstructed => (.ok (), w)

/-- Hands the affected properties of declarations over again. -/
def reapply (s : Scene) (changed : List String) :
    List Declaration → World → Except Error Unit × World
  | [], w => (.ok (), w)
  | d :: rest, w => match s.reapplyKeys d (affectedKeys d changed) w with
    | (.error e, w) => (.error e, w)
    | (.ok (), w) => reapply s changed rest w

/-! ## Updating -/

/-- Changes the data bindings. -/
def update (s : Scene) (change : DataBindings → DataBindings) (w : World) :
    Except Error Unit × Scene × World :=
  let data := change s.data
  let changed := s.data.changedKeys data
  let s := { s with data }
  if changed.isEmpty then (.ok (), s, w)
  else
    let (result, w) := s.reapply changed s.configured w
    let noted := match result with
      | .error e => .error (e.during "while updating data bindings")
      | .ok () => .ok ()
    let (result, w) := s.definition.reporting (noted, w)
    (result, s, w)

end Scene

end ViewSheet
