/-
  Resolving: what the names of a scene stand for, over all calls on it.

  1. **Program**: a load binds the names below the root to their views and leaves the two names of
     the root unbound, whatever views are handed in for them and whatever nodes are called so.  An
     attach call binds the names of the root; no other call binds a name.

  2. **Specification**: `Becomes s calls t` says that a scene has become another by some calls.
     Each call finds a world of its own, so that between two of them a host may do anything with its
     views and with other scenes.  `lastContainer?` is what the last attach call among them was
     given.

  3. **One call** (`bound?_run`): an attach call binds the names of the root even if it fails, since
     the container is bound before it is configured.

  4. **Result** (`lookup_after_calls`): by the calls alone, the names of the root stand for the last
     container, and every other name for what it stood for at first.
-/
import ViewSheet.Proofs.Session
import ViewSheet.Scene.Lookup

namespace ViewSheet

/-! ## Calls in any world -/

/-- The container that a call hands in. -/
def Call.container? : Call → Option ViewId
  | attach container => some container
  | _ => none

/-- The container of the last attach call. -/
def lastContainer? (calls : List Call) : Option ViewId := calls.reverse.findSome? Call.container?

theorem lastContainer?_append (calls : List Call) (c : Call) :
    lastContainer? (calls ++ [c]) = c.container?.or (lastContainer? calls) := by
  rw [lastContainer?, List.reverse_append, List.reverse_singleton, List.singleton_append,
    List.findSome?_cons]
  cases c.container? with
  | none => rfl
  | some container => rfl

namespace Scene

/-- What a scene becomes by some calls, each in any world, whether they succeed or not. -/
inductive Becomes (s : Scene) : List Call → Scene → Prop where
  | start : Becomes s [] s
  | call {calls : List Call} {t : Scene} (h : Becomes s calls t) (c : Call) (w : World) :
      Becomes s (calls ++ [c]) (c.run ⟨t, w⟩).2.scene

/-- A session is one way to make calls on a scene. -/
theorem becomes_of_session {s : Scene} {w : World} {past : List Record} {m : Moment}
    (h : Session ⟨s, w⟩ past m) : s.Becomes (past.map (·.call)) m.scene := by
  induction h with
  | start => exact .start
  | call _ c _ ih =>
    rw [List.map_append]
    exact ih.call c _

/-! ## One call -/

/-- An attach call binds the names of the root, and no other call binds a name. -/
theorem bound?_run (c : Call) (m : Moment) (name : String) :
    (c.run m).2.scene.bound? name =
      if m.scene.isRootName name then c.container?.or (m.scene.bound? name)
      else m.scene.bound? name := by
  cases c with
  | create v => exact (ite_self _).symm
  | update change =>
    rw [Call.scene_run_update]
    exact (ite_self _).symm
  | attach container =>
    have hcontainer := m.scene.bound?_withContainer container name
    rcases m.scene.attach_cases container m.world with ⟨w, -, h⟩ | ⟨e, w, events, -, h⟩
    · rw [Call.run, h]
      exact hcontainer
    · rw [Call.run, h]
      exact hcontainer

/-! ## All calls -/

namespace Becomes

variable {s t : Scene} {calls : List Call}

theorem steady (h : s.Becomes calls t) : s.Steady t := by
  induction h with
  | start => exact .refl s
  | call _ c w ih => exact ih.trans (c.steady_run ⟨_, w⟩)

/-- What a name stands for depends on the calls alone. -/
theorem bound? (h : s.Becomes calls t) (name : String) :
    t.bound? name =
      if s.isRootName name then (lastContainer? calls).or (s.bound? name) else s.bound? name := by
  induction h with
  | start => exact (ite_self _).symm
  | call hbefore c w ih =>
    rw [bound?_run, hbefore.steady.isRootName, ih, lastContainer?_append]
    cases hroot : s.isRootName name with
    | false => rfl
    | true =>
      rw [if_pos rfl, if_pos rfl, if_pos rfl]
      exact Option.or_assoc.symm

end Becomes

/-! ## Loading -/

/-- Building a view for a name binds no name of the root. -/
theorem bound?_buildName_of_root {s : Scene} {name : String} (hname : s.isRootName name = true)
    (other : String) (w : World) :
    (s.buildName other w).1.root = s.root ∧
      (s.buildName other w).1.bound? name = s.bound? name := by
  obtain ⟨w₁, -, ⟨-, h⟩ | ⟨hother, -, v, -, h⟩⟩ := s.buildName_cases other w
  · rw [h]
    exact ⟨rfl, rfl⟩
  · rw [h, bound?_insert, if_neg]
    · exact ⟨rfl, rfl⟩
    · rintro rfl
      rw [hname] at hother
      cases hother

theorem bound?_buildNames_of_root {s : Scene} {name : String} (hname : s.isRootName name = true)
    (names : List String) (w : World) :
    (buildNames names s w).1.root = s.root ∧
      (buildNames names s w).1.bound? name = s.bound? name := by
  induction names generalizing s w with
  | nil => exact ⟨rfl, rfl⟩
  | cons other rest ih =>
    obtain ⟨hroot, hbound⟩ := bound?_buildName_of_root hname other w
    have hstill : (s.buildName other w).1.isRootName name = true := by
      rw [isRootName, hroot]
      exact hname
    obtain ⟨hroots, hbounds⟩ := ih hstill (s.buildName other w).2
    exact ⟨hroots.trans hroot, hbounds.trans hbound⟩

/-- A scene that has just been loaded has no container, whatever views were handed in. -/
theorem unbound_of_load {d : Definition} {root : String} {data : DataBindings}
    {views : List (String × ViewId)} {w w' : World} {s : Scene}
    (h : load d root data views w = (.ok s, w')) {name : String}
    (hname : name = rootName ∨ name = root) : s.root = root ∧ s.bound? name = none := by
  obtain ⟨hierarchy, w₁, -, hbuilt, -⟩ := exists_buildNames_of_load h
  have hbare : (bare d root hierarchy data views).isRootName name = true := by
    rw [isRootName, Bool.or_eq_true, beq_iff_eq, beq_iff_eq]
    exact hname
  have hbuild := bound?_buildNames_of_root hbare
    (bare d root hierarchy data views).nodeNames w
  rw [hbuilt, bound?_bare, if_pos hbare] at hbuild
  exact hbuild

/-- Looking a name up gives the view that it stands for, or a complaint. -/
theorem lookup_eq (s : Scene) (name : String) : s.lookup name =
    match s.bound? name with
    | some id => .ok id
    | none => .error (.of (.unknownView s!"Unknown view {name} in view hierarchy")) := rfl

/-- **What names stand for is stable.**  After a load that succeeds, with any initial views, and
    after any calls, the names of the root are unbound until the first attach call and then stand
    for the container of the last one; every other name stands for what it stood for after the
    load. -/
theorem lookup_after_calls {d : Definition} {root : String} {data : DataBindings}
    {views : List (String × ViewId)} {w w' : World} {s t : Scene} {calls : List Call}
    (hload : load d root data views w = (.ok s, w')) (h : s.Becomes calls t) (name : String) :
    t.lookup name =
      if name = rootName ∨ name = root then
        match lastContainer? calls with
        | some container => .ok container
        | none => .error (.of (.unknownView s!"Unknown view {name} in view hierarchy"))
      else s.lookup name := by
  have hroot : s.root = root := (unbound_of_load hload (Or.inl rfl)).1
  have hbound := h.bound? name
  rw [lookup_eq, hbound]
  by_cases hname : name = rootName ∨ name = root
  · have hnames : s.isRootName name = true := by
      rw [isRootName, hroot, Bool.or_eq_true, beq_iff_eq, beq_iff_eq]
      exact hname
    rw [if_pos hnames, if_pos hname, (unbound_of_load hload hname).2, Option.or_none]
  · have hnames : s.isRootName name = false := by
      rw [isRootName, hroot, Bool.or_eq_false_iff, beq_eq_false_iff_ne, beq_eq_false_iff_ne]
      exact not_or.mp hname
    rw [if_neg hname, hnames]
    rfl

end Scene

/-! ## A sheet with nodes that are called like the root -/

/-- Both names of the root are nodes, and `B` is to match a view that the data name. -/
def echoing : Definition where
  document := (parseInto (.empty "sheet")
    "Main:\n  A\n  $root\n    Main\n  B\nB:\n  .matchSize = #\x7bsrc\x7d\n").document
  catalogue := .stock
  listener := none

/-- Loads the sheet with views of the host's for `A` and for both names of the root. -/
def loadEchoing : Except Error Scene × World :=
  Scene.load echoing "Main" (.ofList [("src", "Nowhere")])
    [("$root", ⟨0⟩), ("Main", ⟨1⟩), ("A", ⟨1⟩)]
    ((World.empty.addView (.stock (.container {}))).addView (.stock (.label {})))

theorem isSome_loadEchoing : (Moment.ofLoad? loadEchoing).isSome = true := by
  decide +kernel

/-- The moment after the load. -/
def loadedEchoing : Moment := Option.get _ isSome_loadEchoing

/-- An attach call that fails, a change that mends the sheet, and an attach call to the view of
    `A`. -/
def mendAndMove : List Call := [.attach ⟨0⟩, .update (·.set "src" "Main"), .attach ⟨1⟩]

theorem echoing_computed : Call.allAllowed mendAndMove loadedEchoing = true ∧
    (Call.play mendAndMove loadedEchoing).1.map (·.result.isOk) = [false, true, true] ∧
    loadedEchoing.scene.hierarchy.names = ["A", "$root", "Main", "B"] ∧
    loadedEchoing.scene.bound? "A" = some ⟨1⟩ ∧ loadedEchoing.scene.bound? "B" = some ⟨2⟩ := by
  decide +kernel

/-- The names of the root are unbound after the load, stand for the first container although it
    could not be configured, and then for the last; the other names stay. -/
theorem lookup_after_calls_echoing :
    loadEchoing = (.ok loadedEchoing.scene, loadedEchoing.world) ∧
    loadedEchoing.scene.Becomes mendAndMove (Call.play mendAndMove loadedEchoing).2.scene ∧
    loadedEchoing.scene.lookup "Main" =
      .error (.of (.unknownView "Unknown view Main in view hierarchy")) ∧
    ((Call.attach ⟨0⟩).run loadedEchoing).2.scene.lookup "$root" = .ok ⟨0⟩ ∧
    (Call.play mendAndMove loadedEchoing).2.scene.lookup "$root" = .ok ⟨1⟩ ∧
    (Call.play mendAndMove loadedEchoing).2.scene.lookup "Main" = .ok ⟨1⟩ ∧
    (Call.play mendAndMove loadedEchoing).2.scene.lookup "A" = .ok ⟨1⟩ ∧
    (Call.play mendAndMove loadedEchoing).2.scene.lookup "B" = .ok ⟨2⟩ ∧
    (Call.play mendAndMove loadedEchoing).2.scene.lookup "C" =
      loadedEchoing.scene.lookup "C" := by
  obtain ⟨hallowed, -, -, hA, hB⟩ := echoing_computed
  have hload : loadEchoing = (.ok loadedEchoing.scene, loadedEchoing.world) :=
    Moment.eq_of_ofLoad? (Option.some_get isSome_loadEchoing).symm
  have hall : loadedEchoing.scene.Becomes mendAndMove
      (Call.play mendAndMove loadedEchoing).2.scene :=
    Scene.becomes_of_session (Session.play hallowed)
  have hfirst : loadedEchoing.scene.Becomes [.attach ⟨0⟩]
      ((Call.attach ⟨0⟩).run loadedEchoing).2.scene :=
    .call .start _ _
  refine ⟨hload, hall, Scene.lookup_after_calls hload .start "Main",
    Scene.lookup_after_calls hload hfirst "$root", Scene.lookup_after_calls hload hall "$root",
    Scene.lookup_after_calls hload hall "Main", ?_, ?_, Scene.lookup_after_calls hload hall "C"⟩
  · refine (Scene.lookup_after_calls hload hall "A").trans ?_
    rw [if_neg (by decide), Scene.lookup_eq, hA]
  · refine (Scene.lookup_after_calls hload hall "B").trans ?_
    rw [if_neg (by decide), Scene.lookup_eq, hB]

end ViewSheet
