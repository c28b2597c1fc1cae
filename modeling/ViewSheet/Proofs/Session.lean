/-
  Sessions: everything a host can do with a loaded scene, call after call.

  1. **Program**: a host makes views of its own, attaches the scene to one of the views there are,
     and changes the data, in any order.  `Session` keeps a record of each call with what came of it
     and the moments before and after; a call that fails is a call like any other.

  2. **One call**: `attach_cases` and `update_cases` say once what can come of it.  All below
     follows from these cases.

  3. **What stays**: the definition and the hierarchy, the views that names below the root stand
     for, and every view that there is (`Session.steady`).
-/
import ViewSheet.Proofs.Wiring
import ViewSheet.Scene.Update

namespace ViewSheet

/-! ## Calls -/

/-- A scene and the world it is in. -/
structure Moment where
  scene : Scene
  world : World

/-- What a host does with a scene. -/
inductive Call where
  /-- It makes a view of its own. -/
  | create (v : View)
  | attach (container : ViewId)
  | update (change : DataBindings → DataBindings)

namespace Call

/-- What a call gives, and the moment after it. -/
def run (c : Call) (m : Moment) : Except Error Unit × Moment :=
  match c with
  | create v => (.ok (), ⟨m.scene, m.world.addView v⟩)
  | attach container =>
    let (r, s, w) := m.scene.attach container m.world
    (r, ⟨s, w⟩)
  | update change =>
    let (r, s, w) := m.scene.update change m.world
    (r, ⟨s, w⟩)

/-- New views come with nothing attached, and a container is one of the views there are. -/
def Allowed (m : Moment) : Call → Prop
  | create v => v.subviews = []
  | attach container => m.world.store.Has container
  | update _ => True

/-- Whether the scene is attached by the call. -/
def isAttach : Call → Bool
  | attach _ => true
  | _ => false

/-- Whether the data are changed by the call. -/
def isUpdate : Call → Bool
  | update _ => true
  | _ => false

end Call

/-- A call and what came of it. -/
structure Record where
  call : Call
  before : Moment
  result : Except Error Unit
  after : Moment

/-- The record of a call. -/
def Call.record (c : Call) (m : Moment) : Record := ⟨c, m, (c.run m).1, (c.run m).2⟩

/-- The calls of a host from some moment on, and the moment after them. -/
inductive Session (start : Moment) : List Record → Moment → Prop where
  | start : Session start [] start
  | call {past : List Record} {m : Moment} (h : Session start past m) (c : Call)
      (allowed : c.Allowed m) : Session start (past ++ [c.record m]) (c.run m).2

namespace Scene

/-! ## Attaching -/

/-- **All that can come of attaching a scene.** -/
theorem attach_cases (s : Scene) (container : ViewId) (w : World) :
    (∃ w₁, (s.withContainer container).settle (s.bound? rootName).isNone w = (.ok (), w₁) ∧
      s.attach container w = (.ok (), { s.withContainer container with
        state := if (s.bound? rootName).isNone then .attached else s.state }, w₁)) ∨
    ∃ e w₁ events,
      (s.withContainer container).settle (s.bound? rootName).isNone w = (.error e, w₁) ∧
      s.attach container w = (.error e, s.withContainer container, w₁.tell events) := by
  unfold attach
  dsimp only
  rcases hsettle : (s.withContainer container).settle (s.bound? rootName).isNone w with ⟨r, w₁⟩
  cases r with
  | error e => exact Or.inr ⟨e, w₁, _, rfl, rfl⟩
  | ok _ =>
    refine Or.inl ⟨w₁, rfl, ?_⟩
    cases (s.bound? rootName).isNone <;> rfl

theorem bound?_withContainer (s : Scene) (container : ViewId) (name : String) :
    (s.withContainer container).bound? name =
      if s.isRootName name then some container else s.bound? name := by
  show (((s.bindings.insert rootName (some container)).insert s.root (some container)).get?
    name).join = _
  rw [NameMap.get?_insert, NameMap.get?_insert, isRootName]
  by_cases hroot : name = s.root
  · simp [hroot]
  · by_cases hname : name = rootName
    · simp [hname]
    · simp [hroot, hname, bound?, ViewBindings.bound?]

theorem grounded_withContainer {s : Scene} {w : World} (hs : s.Grounded w) {container : ViewId}
    (hcontainer : w.store.Has container) : (s.withContainer container).Grounded w := by
  intro name id hid
  rw [bound?_withContainer] at hid
  split at hid
  · rw [Option.some.injEq] at hid
    exact hid ▸ hcontainer
  · exact hs name id hid

/-- What is due when the root declaration is handed to its container. -/
def rootHandings (s : Scene) : List Execution :=
  match s.definition.document.get? s.root with
  | some d => s.handings .construction d d.setterKeys
  | none => []

/-- What is due when all properties are handed over. -/
def allHandings (s : Scene) (phase : Phase) : List Execution :=
  s.configured.flatMap fun d => s.handings phase d d.setterKeys

theorem handed_applyAll {s : Scene} {w : World} (hs : s.Grounded w) (phase : Phase) :
    Handed (s.allHandings phase) (s.applyAll phase w).1 w (s.applyAll phase w).2 :=
  handed_applyEach phase s.configured hs

theorem handed_configureRoot {s : Scene} {w : World} (hs : s.Grounded w) :
    Handed s.rootHandings (s.configureRoot w).1 w (s.configureRoot w).2 := by
  unfold configureRoot rootHandings
  cases s.definition.document.get? s.root with
  | none => exact handed_nil _ w
  | some d => exact handed_applyDeclaration hs .construction d d.setterKeys

section
variable {R : World → World → Prop} (hR : Runs R) {s : Scene}
include hR

theorem configureRoot_rel (step : ∀ d id, s.bound? d.name = some id → ∀ key w,
    R w (s.applyKey .construction d id key w).2) (w : World) : R w (s.configureRoot w).2 := by
  unfold configureRoot
  split
  · rename_i d _
    exact applyDeclaration_rel hR (step d) _ w
  · exact hR.refl w

theorem wireNodes_rel (step : ∀ node w, R w (s.wireNode node w)) (nodes : List Nat) (w : World) :
    R w (s.wireNodes nodes w) := by
  induction nodes generalizing w with
  | nil => exact hR.refl w
  | cons node rest ih => exact hR.trans (step node w) (ih _)

/-- What handing a property over and wiring a node keep, settling a container keeps. -/
theorem settle_rel (hand : ∀ phase d id, s.bound? d.name = some id → ∀ key w,
      R w (s.applyKey phase d id key w).2) (hang : ∀ node w, R w (s.wireNode node w))
    (first : Bool) (w : World) : R w (s.settle first w).2 := by
  have hroot := configureRoot_rel hR (hand .construction) w
  unfold settle
  split
  · rename_i h
    rw [h] at hroot
    exact hroot
  · rename_i w₁ h
    rw [h] at hroot
    cases first with
    | false => exact hroot
    | true =>
      have hwire : R w₁ (s.wire w₁) := wireNodes_rel hR hang _ w₁
      exact hR.trans (hR.trans hroot hwire) (applyEach_rel hR (fun d _ => hand .attached d) _)

end

theorem size_configureRoot (s : Scene) (w : World) :
    (s.configureRoot w).2.store.size = w.store.size :=
  configureRoot_rel (runs_eq fun w => w.store.size)
    (fun d id _ => s.size_applyKey .construction d id) w

theorem size_settle (s : Scene) (first : Bool) (w : World) :
    (s.settle first w).2.store.size = w.store.size :=
  settle_rel (runs_eq fun w => w.store.size) (fun phase d id _ => s.size_applyKey phase d id)
    (fun node w => (s.retold_wireNode node w).2.size) first w

/-- What is due when a container that has just been bound is settled. -/
def settlings (s : Scene) (first : Bool) : List Execution :=
  s.rootHandings ++ if first then s.allHandings .attached else []

theorem handed_settle {s : Scene} {w : World} (hs : s.Grounded w) (first : Bool) :
    Handed (s.settlings first) (s.settle first w).1 w (s.settle first w).2 := by
  have h := handed_configureRoot hs
  have hsize := size_configureRoot s w
  unfold settle
  split
  · rename_i hroot
    rw [hroot] at h
    exact h.stop _
  · rename_i w₁ hroot
    rw [hroot] at h hsize
    cases first with
    | false => exact h.trans (handed_nil _ w₁)
    | true =>
      -- wiring stands between the two passes, and hands nothing over
      have hwire : Handed [] (.ok ()) w₁ (s.wire w₁) :=
        ⟨[], List.prefix_refl _, by
          rw [List.append_nil]
          exact s.executions_wireNodes _ w₁, fun _ => rfl⟩
      have hgrown := (s.extends_wireNodes s.hierarchy.breadthFirst w₁).size
      have hall := handed_applyAll (hs.of_size (hgrown.trans hsize)) .attached
      exact h.trans (hwire.trans hall)

/-- What is due when a scene is attached is what settling its container takes. -/
theorem handed_attach {s : Scene} {w : World} (hs : s.Grounded w) {container : ViewId}
    (hcontainer : w.store.Has container) :
    Handed ((s.withContainer container).settlings (s.bound? rootName).isNone)
      (s.attach container w).1 w (s.attach container w).2.2 := by
  have h := handed_settle (grounded_withContainer hs hcontainer) (s.bound? rootName).isNone
  rcases s.attach_cases container w with ⟨w₁, hsettle, heq⟩ | ⟨e, w₁, events, hsettle, heq⟩
  · rw [heq]
    rw [hsettle] at h
    exact h
  · rw [heq]
    rw [hsettle] at h
    obtain ⟨done, hdone, hexec, -⟩ := h
    exact ⟨done, hdone, hexec, by rintro ⟨⟩⟩

/-! ## Updating -/

/-- A scene with other data. -/
def withData (s : Scene) (data : DataBindings) : Scene := { s with data }

/-- **All that can come of updating a scene.** -/
theorem update_cases (s : Scene) (change : DataBindings → DataBindings) (w : World) :
    (s.data.changedKeys (change s.data) = [] ∧
      s.update change w = (.ok (), s.withData (change s.data), w)) ∨
    (∃ w₁, (s.withData (change s.data)).reapply (s.data.changedKeys (change s.data)) s.configured w
        = (.ok (), w₁) ∧
      s.update change w = (.ok (), s.withData (change s.data), w₁)) ∨
    ∃ e w₁ events,
      (s.withData (change s.data)).reapply (s.data.changedKeys (change s.data)) s.configured w
        = (.error e, w₁) ∧
      s.update change w = (.error (e.during "while updating data bindings"),
        s.withData (change s.data), w₁.tell events) := by
  unfold update
  dsimp only
  cases hchanged : s.data.changedKeys (change s.data) with
  | nil => exact Or.inl ⟨rfl, rfl⟩
  | cons key rest =>
    refine Or.inr ?_
    rw [if_neg (by simp)]
    -- which declarations are applied does not depend on the data
    show (∃ w₁, _) ∨ ∃ e w₁ events, _
    have hconfigured : ({ s with data := change s.data } : Scene).configured = s.configured := rfl
    rcases hreapply : (s.withData (change s.data)).reapply (key :: rest) s.configured w with ⟨r, w₁⟩
    unfold withData at hreapply
    rw [hconfigured, hreapply]
    cases r with
    | error e => exact Or.inr ⟨e, w₁, _, rfl, rfl⟩
    | ok _ => exact Or.inl ⟨w₁, rfl, rfl⟩

theorem affectedKeys_nil (d : Declaration) : affectedKeys d [] = [] := by
  rw [affectedKeys, List.filter_eq_nil_iff]
  intro key _ h
  cases h

theorem rehandings_nil (s : Scene) (d : Declaration) : s.rehandings d [] = [] := by
  have hnone : ∀ phase, s.handings phase d [] = [] := by
    intro phase
    unfold handings
    split <;> rfl
  rw [rehandings, hnone, hnone]
  cases s.state <;> rfl

/-- What is due in an update is what it affects. -/
theorem handed_update {s : Scene} {w : World} (hs : s.Grounded w)
    (change : DataBindings → DataBindings) :
    Handed (s.configured.flatMap fun d => (s.withData (change s.data)).rehandings d
        (affectedKeys d (s.data.changedKeys (change s.data))))
      (s.update change w).1 w (s.update change w).2.2 := by
  have hdata : (s.withData (change s.data)).Grounded w := hs
  have h := handed_reapply (s.data.changedKeys (change s.data)) s.configured hdata
  rcases s.update_cases change w with
    ⟨hnone, heq⟩ | ⟨w₁, hreapply, heq⟩ | ⟨e, w₁, events, hreapply, heq⟩
  · have hdue : (s.configured.flatMap fun d => (s.withData (change s.data)).rehandings d
        (affectedKeys d (s.data.changedKeys (change s.data)))) = [] := by
      rw [hnone, List.flatMap_eq_nil_iff]
      intro d _
      rw [affectedKeys_nil, rehandings_nil]
    rw [heq, hdue]
    exact handed_nil _ w
  · rw [heq]
    rw [hreapply] at h
    exact h
  · rw [heq]
    rw [hreapply] at h
    obtain ⟨done, hdone, hexec, -⟩ := h
    exact ⟨done, hdone, hexec, by rintro ⟨⟩⟩

theorem scene_update (s : Scene) (change : DataBindings → DataBindings) (w : World) :
    (s.update change w).2.1 = s.withData (change s.data) := by
  rcases s.update_cases change w with ⟨-, h⟩ | ⟨w₁, -, h⟩ | ⟨e, w₁, events, -, h⟩
  · rw [h]
  · rw [h]
  · rw [h]

/-! ## What stays -/

/-- What no call changes: the setup of a scene, and the views of the names below the root. -/
structure Steady (s t : Scene) : Prop where
  definition : t.definition = s.definition
  root : t.root = s.root
  hierarchy : t.hierarchy = s.hierarchy
  bound : ∀ name, s.isRootName name = false → t.bound? name = s.bound? name

namespace Steady

variable {s t u : Scene}

theorem refl (s : Scene) : Steady s s := ⟨rfl, rfl, rfl, fun _ _ => rfl⟩

theorem isRootName (h : Steady s t) (name : String) : t.isRootName name = s.isRootName name := by
  rw [Scene.isRootName, Scene.isRootName, h.root]

theorem trans (h : Steady s t) (k : Steady t u) : Steady s u where
  definition := k.definition.trans h.definition
  root := k.root.trans h.root
  hierarchy := k.hierarchy.trans h.hierarchy
  bound := fun name hname => by
    rw [← h.bound name hname]
    rw [← h.isRootName] at hname
    exact k.bound name hname

/-- The same declarations are applied. -/
theorem configured (h : Steady s t) : t.configured = s.configured := by
  rw [Scene.configured, Scene.configured, declaredNames, declaredNames, nodeNames, nodeNames,
    h.definition, h.root, h.hierarchy]

end Steady

theorem steady_attach (s : Scene) (container : ViewId) (w : World) :
    Steady s (s.attach container w).2.1 := by
  have hbound : ∀ name, s.isRootName name = false →
      (s.withContainer container).bound? name = s.bound? name := by
    intro name hname
    rw [bound?_withContainer, hname]
    rfl
  rcases s.attach_cases container w with ⟨w₁, -, h⟩ | ⟨e, w₁, events, -, h⟩
  · rw [h]
    exact ⟨rfl, rfl, rfl, hbound⟩
  · rw [h]
    exact ⟨rfl, rfl, rfl, hbound⟩

theorem steady_update (s : Scene) (change : DataBindings → DataBindings) (w : World) :
    Steady s (s.update change w).2.1 := by
  rw [scene_update]
  exact ⟨rfl, rfl, rfl, fun _ _ => rfl⟩

end Scene

namespace Call

theorem scene_run_update (change : DataBindings → DataBindings) (m : Moment) :
    ((update change).run m).2.scene = m.scene.withData (change m.scene.data) :=
  m.scene.scene_update change m.world

/-- The data that a call leaves a scene with. -/
def dataAfter (c : Call) (data : DataBindings) : DataBindings :=
  match c with
  | update change => change data
  | _ => data

theorem data_run (c : Call) (m : Moment) : (c.run m).2.scene.data = c.dataAfter m.scene.data := by
  cases c with
  | create v => rfl
  | attach container =>
    rcases m.scene.attach_cases container m.world with ⟨w₁, -, h⟩ | ⟨e, w₁, events, -, h⟩
    · rw [run, h]
      rfl
    · rw [run, h]
      rfl
  | update change =>
    rw [scene_run_update]
    rfl

theorem steady_run (c : Call) (m : Moment) : m.scene.Steady (c.run m).2.scene := by
  cases c with
  | create v => exact .refl m.scene
  | attach container => exact m.scene.steady_attach container m.world
  | update change => exact m.scene.steady_update change m.world

theorem size_attach (s : Scene) (container : ViewId) (w : World) :
    (s.attach container w).2.2.store.size = w.store.size := by
  have hsize := (s.withContainer container).size_settle (s.bound? rootName).isNone w
  rcases s.attach_cases container w with ⟨w₁, hsettle, h⟩ | ⟨e, w₁, events, hsettle, h⟩
  · rw [h]
    rw [hsettle] at hsize
    exact hsize
  · rw [h]
    rw [hsettle] at hsize
    exact hsize

theorem size_update (s : Scene) (change : DataBindings → DataBindings) (w : World) :
    (s.update change w).2.2.store.size = w.store.size := by
  have hsize := (s.withData (change s.data)).size_reapply (s.data.changedKeys (change s.data))
    s.configured w
  rcases s.update_cases change w with ⟨-, h⟩ | ⟨w₁, hreapply, h⟩ | ⟨e, w₁, events, hreapply, h⟩
  · rw [h]
  · rw [h]
    rw [hreapply] at hsize
    exact hsize
  · rw [h]
    rw [hreapply] at hsize
    exact hsize

/-- No call takes a view away. -/
theorem size_le_run (c : Call) (m : Moment) :
    m.world.store.size ≤ (c.run m).2.world.store.size := by
  cases c with
  | create v =>
    show m.world.store.size ≤ (m.world.addView v).store.size
    rw [World.store_addView, ViewStore.size_add]
    exact Nat.le_succ _
  | attach container => exact Nat.le_of_eq (size_attach m.scene container m.world).symm
  | update change => exact Nat.le_of_eq (size_update m.scene change m.world).symm

theorem grounded_run {c : Call} {m : Moment} (hm : m.scene.Grounded m.world)
    (allowed : c.Allowed m) :
    (c.run m).2.scene.Grounded (c.run m).2.world := by
  have hsize := c.size_le_run m
  have hlater : ∀ id, m.world.store.Has id → (c.run m).2.world.store.Has id :=
    fun id hid => hid.mono hsize
  cases c with
  | create v => exact fun name id hid => hlater id (hm name id hid)
  | attach container =>
    have hcontainer := Scene.grounded_withContainer hm allowed
    intro name id hid
    refine hlater id (hcontainer name id ?_)
    rcases m.scene.attach_cases container m.world with ⟨w₁, -, h⟩ | ⟨e, w₁, events, -, h⟩
    · rw [run, h] at hid
      exact hid
    · rw [run, h] at hid
      exact hid
  | update change =>
    intro name id hid
    refine hlater id (hm name id ?_)
    rw [scene_run_update] at hid
    exact hid

/-- What is due in a call. -/
def due (c : Call) (m : Moment) : List Execution :=
  match c with
  | create _ => []
  | attach container =>
    (m.scene.withContainer container).settlings (m.scene.bound? rootName).isNone
  | update change => m.scene.configured.flatMap fun d =>
    (m.scene.withData (change m.scene.data)).rehandings d
      (Scene.affectedKeys d (m.scene.data.changedKeys (change m.scene.data)))

/-- **A call hands over what is due, in order, and all of it unless it fails.** -/
theorem handed_run {c : Call} {m : Moment} (hm : m.scene.Grounded m.world) (allowed : c.Allowed m) :
    Scene.Handed (c.due m) (c.run m).1 m.world (c.run m).2.world := by
  cases c with
  | create v => exact ⟨[], List.prefix_refl _, (List.append_nil _).symm, fun _ => rfl⟩
  | attach container => exact Scene.handed_attach hm allowed
  | update change => exact Scene.handed_update hm change

end Call

namespace Session

variable {start m : Moment} {past : List Record}

/-- **The setup of a scene and the views below its root are the same after all calls.** -/
theorem steady (h : Session start past m) : start.scene.Steady m.scene := by
  induction h with
  | start => exact .refl start.scene
  | call _ c _ ih => exact ih.trans (c.steady_run _)

theorem grounded (h : Session start past m) (hstart : start.scene.Grounded start.world) :
    m.scene.Grounded m.world := by
  induction h with
  | start => exact hstart
  | call _ c allowed ih => exact Call.grounded_run ih allowed

end Session

/-! ## Playing a list of calls -/

instance (m : Moment) (c : Call) : Decidable (c.Allowed m) :=
  match c with
  | .create v => inferInstanceAs (Decidable (v.subviews = []))
  | .attach container => inferInstanceAs (Decidable (container.index < m.world.store.size))
  | .update _ => .isTrue trivial

theorem eq_ok_of_isOk {r : Except Error Unit} (h : r.isOk = true) : r = .ok () := by
  cases r with
  | error e => cases h
  | ok _ => rfl

namespace Call

/-- Runs calls one after the other: their records, and the moment after them. -/
def play : List Call → Moment → List Record × Moment
  | [], m => ([], m)
  | c :: rest, m =>
    let (past, last) := play rest (c.run m).2
    (c.record m :: past, last)

/-- Whether each of some calls is allowed when its turn comes. -/
def allAllowed : List Call → Moment → Bool
  | [], _ => true
  | c :: rest, m => decide (c.Allowed m) && allAllowed rest (c.run m).2

end Call

namespace Session

/-- The data are those that the calls ask for, one after the other. -/
theorem data_eq {start m : Moment} {past : List Record} (h : Session start past m) :
    m.scene.data = past.foldl (fun data r => r.call.dataAfter data) start.scene.data := by
  induction h with
  | start => rfl
  | call _ c _ ih =>
    rw [Call.data_run, ih, List.foldl_append]
    rfl

theorem cons {start : Moment} {c : Call} (allowed : c.Allowed start) {past : List Record}
    {m : Moment} (h : Session (c.run start).2 past m) :
    Session start (c.record start :: past) m := by
  induction h with
  | start => exact .call .start c allowed
  | call _ last hlast ih => exact .call ih last hlast

/-- Calls that are played make a session. -/
theorem play {calls : List Call} {start : Moment} (h : Call.allAllowed calls start = true) :
    Session start (Call.play calls start).1 (Call.play calls start).2 := by
  induction calls generalizing start with
  | nil => exact .start
  | cons c rest ih =>
    rw [Call.allAllowed, Bool.and_eq_true, decide_eq_true_eq] at h
    exact cons h.1 (ih h.2)

end Session

namespace Moment

/-- The moment after a load that succeeds. -/
def ofLoad? (loaded : Except Error Scene × World) : Option Moment :=
  match loaded with
  | (.ok s, w) => some ⟨s, w⟩
  | (.error _, _) => none

theorem eq_of_ofLoad? {loaded : Except Error Scene × World} {m : Moment}
    (h : ofLoad? loaded = some m) : loaded = (.ok m.scene, m.world) := by
  unfold ofLoad? at h
  split at h
  · rw [Option.some.injEq] at h
    rw [← h]
  · cases h

end Moment

end ViewSheet
