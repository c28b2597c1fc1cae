/-
  Passes: what handing properties over leaves behind.

  1. **One property**: `applyKey_cases` says once all that can come of it: nothing to hand over, a
     setter that took the text, or a setter that refused it.  All below follows from these cases.
     In both of the last the world is `received`.

  2. **What stays**: a relation between worlds that every single hand-over keeps is kept by whole
     passes (`applyEach_rel`, `reapply_rel`).  So a pass adds no views, and keeps the tree if the
     setters do.

  3. **The record**: a pass enters, in order, the hand-overs of its declarations, up to the one that
     failed and all of them if none did (`handed_applyEach`, `handed_reapply`).
-/
import ViewSheet.Proofs.Dispatch
import ViewSheet.Scene.Update

namespace ViewSheet

/-! ## Small steps of a world -/

namespace World

@[simp] theorem store_tell (w : World) (events : List Event) : (w.tell events).store = w.store :=
  rfl

@[simp] theorem executions_tell (w : World) (events : List Event) :
    (w.tell events).executions = w.executions := rfl

@[simp] theorem store_enter (w : World) (e : Execution) : (w.enter e).store = w.store := rfl

@[simp] theorem executions_enter (w : World) (e : Execution) :
    (w.enter e).executions = w.executions ++ [e] := rfl

@[simp] theorem store_setView (w : World) (id : ViewId) (v : View) :
    (w.setView id v).store = w.store.set id v := rfl

@[simp] theorem executions_setView (w : World) (id : ViewId) (v : View) :
    (w.setView id v).executions = w.executions := rfl

@[simp] theorem store_addView (w : World) (v : View) : (w.addView v).store = w.store.add v := rfl

@[simp] theorem executions_addView (w : World) (v : View) :
    (w.addView v).executions = w.executions := rfl

theorem setView_self {w : World} {id : ViewId} {v : View} (h : w.store.get? id = some v) :
    w.setView id v = w := by
  rw [setView, ViewStore.set_self h]

end World

namespace ViewStore

/-- A store has a view under this identity. -/
def Has (s : ViewStore) (id : ViewId) : Prop := id.index < s.size

theorem has_iff {s : ViewStore} {id : ViewId} : s.Has id ↔ ∃ v, s.get? id = some v := by
  unfold Has size get?
  constructor
  · intro h
    exact ⟨s.views[id.index], Array.getElem?_eq_getElem h⟩
  · rintro ⟨v, hv⟩
    exact (Array.getElem?_eq_some_iff.mp hv).1

@[simp] theorem size_set (s : ViewStore) (id : ViewId) (v : View) : (s.set id v).size = s.size := by
  simp [set, size]

@[simp] theorem size_add (s : ViewStore) (v : View) : (s.add v).size = s.size + 1 := by
  simp [add, size]

theorem subviews_of_get? {s : ViewStore} {id : ViewId} {v : View} (h : s.get? id = some v) :
    s.subviews id = v.subviews := by
  rw [subviews, h]

theorem subviews_congr {s t : ViewStore} {id : ViewId} (h : t.get? id = s.get? id) :
    t.subviews id = s.subviews id := by
  rw [subviews, subviews, h]

end ViewStore

namespace Scene

/-! ## One property -/

/-- What the record gains when a property of a declaration is handed over. -/
def handing (s : Scene) (phase : Phase) (d : Declaration) (key : String) : Option Execution :=
  (d.filled? key s.data).map fun p => ⟨phase, d.name, key, p.value⟩

/-- The receipt for a property's text. -/
def receipt (s : Scene) (phase : Phase) (id : ViewId) (key : String) (p : PropertyText) (w : World)
    (v : View) : Receipt :=
  s.definition.catalogue.receive key (s.turn phase w id) (.start p.value p.line) v

/-- The world after a property's text was handed to a view: the execution is on record, and the view
    is as its setter has left it. -/
def received (s : Scene) (phase : Phase) (d : Declaration) (id : ViewId) (key : String)
    (p : PropertyText) (w : World) (v : View) : World :=
  ((w.enter ⟨phase, d.name, key, p.value⟩).setView id (s.receipt phase id key p w v).view).tell
    (s.receipt phase id key p w v).events

section
variable (s : Scene) (phase : Phase) (d : Declaration) (id : ViewId) (key : String)
  (p : PropertyText) (w : World) (v : View)

@[simp] theorem store_received : (s.received phase d id key p w v).store =
    w.store.set id (s.receipt phase id key p w v).view := rfl

@[simp] theorem executions_received : (s.received phase d id key p w v).executions =
    w.executions ++ [⟨phase, d.name, key, p.value⟩] := rfl

end

theorem turn_enter (s : Scene) (phase : Phase) (w : World) (e : Execution) (id : ViewId) :
    s.turn phase (w.enter e) id = s.turn phase w id := by
  cases phase <;> rfl

/-- **All that can come of handing one property over.** -/
theorem applyKey_cases (s : Scene) (phase : Phase) (d : Declaration) (id : ViewId) (key : String)
    (w : World) :
    ((s.handing phase d key = none ∨ w.store.get? id = none) ∧
      s.applyKey phase d id key w = (.ok (), w)) ∨
    ∃ p v, d.filled? key s.data = some p ∧ w.store.get? id = some v ∧
      (((s.receipt phase id key p w v).result = .ok () ∧
          s.applyKey phase d id key w = (.ok (), s.received phase d id key p w v)) ∨
        ∃ e, (s.receipt phase id key p w v).result = .error e ∧
          s.applyKey phase d id key w =
            (.error (e.during s!"while setting properties for {d.name}"),
              s.received phase d id key p w v)) := by
  unfold applyKey
  cases hp : d.filled? key s.data with
  | none => exact Or.inl ⟨Or.inl (by rw [handing, hp]; rfl), rfl⟩
  | some p =>
    cases hv : w.store.get? id with
    | none => exact Or.inl ⟨Or.inr rfl, rfl⟩
    | some v =>
      refine Or.inr ⟨p, v, rfl, rfl, ?_⟩
      dsimp only
      -- the record is written before the setter runs, which does not read it
      rw [turn_enter]
      cases hr : (s.receipt phase id key p w v).result with
      | ok r =>
        refine Or.inl ⟨rfl, ?_⟩
        rw [receipt] at hr
        rw [hr]
        rfl
      | error e =>
        refine Or.inr ⟨e, rfl, ?_⟩
        rw [receipt] at hr
        rw [hr]
        rfl

/-! ## What a pass keeps -/

/-- A relation between the world before and the world after that can be followed through many
    steps. -/
structure Runs (R : World → World → Prop) : Prop where
  refl : ∀ w, R w w
  trans : ∀ {a b c}, R a b → R b c → R a c

section
variable {R : World → World → Prop} (hR : Runs R) {s : Scene} {phase : Phase}
include hR

theorem applyKeys_rel {d : Declaration} {id : ViewId}
    (step : ∀ key w, R w (s.applyKey phase d id key w).2) (keys : List String) (w : World) :
    R w (s.applyKeys phase d id keys w).2 := by
  induction keys generalizing w with
  | nil => exact hR.refl w
  | cons key rest ih =>
    have h := step key w
    -- the walk ends with the first failure, or goes on from where the step left the world
    rw [applyKeys]
    split
    · rename_i h1
      rw [h1] at h
      exact h
    · rename_i h1
      rw [h1] at h
      exact hR.trans h (ih _)

theorem applyDeclaration_rel {d : Declaration}
    (step : ∀ id, s.bound? d.name = some id → ∀ key w, R w (s.applyKey phase d id key w).2)
    (keys : List String) (w : World) : R w (s.applyDeclaration phase d keys w).2 := by
  rw [applyDeclaration]
  split
  · rename_i id hid
    exact applyKeys_rel hR (step id hid) keys w
  · exact hR.refl w

theorem applyEach_rel {ds : List Declaration}
    (step : ∀ d ∈ ds, ∀ id, s.bound? d.name = some id →
      ∀ key w, R w (s.applyKey phase d id key w).2) (w : World) :
    R w (s.applyEach phase ds w).2 := by
  induction ds generalizing w with
  | nil => exact hR.refl w
  | cons d rest ih =>
    have h := applyDeclaration_rel hR (step d List.mem_cons_self) d.setterKeys w
    have hrest := ih fun e he => step e (List.mem_cons_of_mem d he)
    rw [applyEach]
    split
    · rename_i h1
      rw [h1] at h
      exact h
    · rename_i h1
      rw [h1] at h
      exact hR.trans h (hrest _)

end

theorem reapplyKeys_rel {R : World → World → Prop} (hR : Runs R) {s : Scene} {d : Declaration}
    (step : ∀ phase id, s.bound? d.name = some id → ∀ key w, R w (s.applyKey phase d id key w).2)
    (keys : List String) (w : World) : R w (s.reapplyKeys d keys w).2 := by
  have h := applyDeclaration_rel hR (step .construction) keys w
  rw [reapplyKeys]
  split
  · rename_i h1
    rw [h1] at h
    exact h
  · rename_i h1
    rw [h1] at h
    split
    · exact hR.trans h (applyDeclaration_rel hR (step .attached) keys _)
    · exact h

theorem reapply_rel {R : World → World → Prop} (hR : Runs R) {s : Scene} {changed : List String}
    {ds : List Declaration}
    (step : ∀ phase, ∀ d ∈ ds, ∀ id, s.bound? d.name = some id →
      ∀ key w, R w (s.applyKey phase d id key w).2) (w : World) :
    R w (s.reapply changed ds w).2 := by
  induction ds generalizing w with
  | nil => exact hR.refl w
  | cons d rest ih =>
    have h := reapplyKeys_rel hR (fun phase => step phase d List.mem_cons_self)
      (affectedKeys d changed) w
    have hrest := ih fun phase e he => step phase e (List.mem_cons_of_mem d he)
    rw [reapply]
    split
    · rename_i h1
      rw [h1] at h
      exact h
    · rename_i h1
      rw [h1] at h
      exact hR.trans h (hrest _)

/-! ## Views that stay as they are -/

/-- Being equal in some respect can be followed through many steps. -/
theorem runs_eq {α : Type} (f : World → α) : Runs fun a b => f b = f a :=
  ⟨fun _ => rfl, fun h k => k.trans h⟩

theorem size_applyKey (s : Scene) (phase : Phase) (d : Declaration) (id : ViewId) (key : String)
    (w : World) : (s.applyKey phase d id key w).2.store.size = w.store.size := by
  rcases applyKey_cases s phase d id key w with
    ⟨-, h⟩ | ⟨p, v, -, -, ⟨-, h⟩ | ⟨e, -, h⟩⟩ <;> rw [h] <;> simp

theorem get?_applyKey_of_ne (s : Scene) (phase : Phase) (d : Declaration) {id other : ViewId}
    (hne : other ≠ id) (key : String) (w : World) :
    (s.applyKey phase d id key w).2.store.get? other = w.store.get? other := by
  rcases applyKey_cases s phase d id key w with
    ⟨-, h⟩ | ⟨p, v, -, -, ⟨-, h⟩ | ⟨e, -, h⟩⟩ <;> rw [h]
  all_goals exact ViewStore.get?_set_of_ne _ _ hne

/-! ## The tree stays as it is -/

/-- Neither views nor the lists of attached views differ in number or order. -/
def SameTree (a b : World) : Prop :=
  b.store.size = a.store.size ∧ ∀ id, b.store.subviews id = a.store.subviews id

theorem runs_sameTree : Runs SameTree :=
  ⟨fun _ => ⟨rfl, fun _ => rfl⟩,
    fun h k => ⟨k.1.trans h.1, fun id => (k.2 id).trans (h.2 id)⟩⟩

theorem sameTree_applyKey {s : Scene} (hkeeps : s.definition.catalogue.KeepsSubviews)
    (phase : Phase) (d : Declaration) (id : ViewId) (key : String) (w : World) :
    SameTree w (s.applyKey phase d id key w).2 := by
  refine ⟨size_applyKey s phase d id key w, fun other => ?_⟩
  -- only the view that is handed the text can differ, and setters keep its list
  by_cases hne : other = id
  · subst hne
    have hreceived : ∀ p v, w.store.get? other = some v →
        (s.received phase d other key p w v).store.subviews other = w.store.subviews other := by
      intro p v hv
      rw [store_received, ViewStore.subviews_of_get? (ViewStore.get?_set_self hv _),
        ViewStore.subviews_of_get? hv]
      exact hkeeps.subviews_receive key _ _ v
    rcases applyKey_cases s phase d other key w with
      ⟨-, h⟩ | ⟨p, v, -, hv, ⟨-, h⟩ | ⟨e, -, h⟩⟩ <;> rw [h]
    all_goals exact hreceived p v hv
  · exact ViewStore.subviews_congr (get?_applyKey_of_ne s phase d hne key w)

/-- A pass keeps the tree if the setters do. -/
theorem sameTree_applyEach {s : Scene} (hkeeps : s.definition.catalogue.KeepsSubviews)
    (phase : Phase) (ds : List Declaration) (w : World) :
    SameTree w (s.applyEach phase ds w).2 :=
  applyEach_rel runs_sameTree (fun d _ id _ => sameTree_applyKey hkeeps phase d id) w

theorem sameTree_reapply {s : Scene} (hkeeps : s.definition.catalogue.KeepsSubviews)
    (changed : List String) (ds : List Declaration) (w : World) :
    SameTree w (s.reapply changed ds w).2 :=
  reapply_rel runs_sameTree (fun phase d _ id _ => sameTree_applyKey hkeeps phase d id) w

/-! ## The record of a pass -/

/-- What the record gains when some properties of a declaration are handed over. -/
def handings (s : Scene) (phase : Phase) (d : Declaration) (keys : List String) : List Execution :=
  if (s.bound? d.name).isSome then keys.filterMap (s.handing phase d) else []

/-- The record goes on with what was due, in order, and with all of it unless something failed. -/
def Handed (due : List Execution) (r : Except Error Unit) (a b : World) : Prop :=
  ∃ done, done <+: due ∧ b.executions = a.executions ++ done ∧ (r = .ok () → done = due)

theorem handed_nil (r : Except Error Unit) (w : World) : Handed [] r w w :=
  ⟨[], List.prefix_refl _, (List.append_nil _).symm, fun _ => rfl⟩

theorem Handed.trans {due more : List Execution} {r : Except Error Unit} {a b c : World}
    (h : Handed due (.ok ()) a b) (k : Handed more r b c) : Handed (due ++ more) r a c := by
  obtain ⟨done, -, hdone, hall⟩ := h
  obtain ⟨next, hnext, hc, hrest⟩ := k
  rw [hall rfl] at hdone
  refine ⟨due ++ next, List.prefix_append_right_inj due |>.mpr hnext, ?_,
    fun hr => by rw [hrest hr]⟩
  rw [hc, hdone, List.append_assoc]

/-- After a failure nothing more is handed over. -/
theorem Handed.stop {due : List Execution} {e : Error} {a b : World} (h : Handed due (.error e) a b)
    (more : List Execution) : Handed (due ++ more) (.error e) a b := by
  obtain ⟨done, hdone, hb, -⟩ := h
  exact ⟨done, hdone.trans (List.prefix_append due more), hb, by rintro ⟨⟩⟩

theorem handed_applyKey (s : Scene) (phase : Phase) (d : Declaration) {id : ViewId} (key : String)
    {w : World} (hid : w.store.Has id) :
    Handed (s.handing phase d key).toList (s.applyKey phase d id key w).1 w
      (s.applyKey phase d id key w).2 := by
  obtain ⟨v, hv⟩ := ViewStore.has_iff.mp hid
  -- without the view nothing would be recorded, so it has to be there
  rcases applyKey_cases s phase d id key w with
    ⟨hnone, h⟩ | ⟨p, v, hp, -, ⟨-, h⟩ | ⟨e, -, h⟩⟩
  · have hnothing : s.handing phase d key = none := by
      rcases hnone with h1 | h1
      · exact h1
      · rw [hv] at h1
        cases h1
    rw [h, hnothing]
    exact handed_nil _ w
  · rw [h, handing, hp]
    exact ⟨_, List.prefix_refl _, rfl, fun _ => rfl⟩
  · rw [h, handing, hp]
    exact ⟨_, List.prefix_refl _, rfl, fun _ => rfl⟩

theorem handed_applyKeys (s : Scene) (phase : Phase) (d : Declaration) {id : ViewId}
    (keys : List String) {w : World} (hid : w.store.Has id) :
    Handed (keys.filterMap (s.handing phase d)) (s.applyKeys phase d id keys w).1 w
      (s.applyKeys phase d id keys w).2 := by
  induction keys generalizing w with
  | nil => exact handed_nil _ w
  | cons key rest ih =>
    have h := handed_applyKey s phase d key hid
    have hsize := size_applyKey s phase d id key w
    have hsplit : (key :: rest).filterMap (s.handing phase d) =
        (s.handing phase d key).toList ++ rest.filterMap (s.handing phase d) := by
      rw [List.filterMap_cons]
      cases s.handing phase d key <;> rfl
    rw [applyKeys, hsplit]
    split
    · rename_i h1
      rw [h1] at h
      exact h.stop _
    · rename_i h1
      rw [h1] at h hsize
      exact h.trans (ih (by rw [ViewStore.Has, hsize]; exact hid))

/-- The views that names stand for are there. -/
def Grounded (s : Scene) (w : World) : Prop := ∀ name id, s.bound? name = some id → w.store.Has id

theorem Grounded.of_size {s : Scene} {a b : World} (h : s.Grounded a)
    (hsize : b.store.size = a.store.size) : s.Grounded b :=
  fun name id hid => by
    rw [ViewStore.Has, hsize]
    exact h name id hid

theorem size_applyDeclaration (s : Scene) (phase : Phase) (d : Declaration) (keys : List String)
    (w : World) : (s.applyDeclaration phase d keys w).2.store.size = w.store.size :=
  applyDeclaration_rel (runs_eq fun w => w.store.size)
    (fun id _ => size_applyKey s phase d id) keys w

theorem size_applyEach (s : Scene) (phase : Phase) (ds : List Declaration) (w : World) :
    (s.applyEach phase ds w).2.store.size = w.store.size :=
  applyEach_rel (runs_eq fun w => w.store.size) (fun d _ id _ => size_applyKey s phase d id) w

theorem size_reapply (s : Scene) (changed : List String) (ds : List Declaration) (w : World) :
    (s.reapply changed ds w).2.store.size = w.store.size :=
  reapply_rel (runs_eq fun w => w.store.size) (fun phase d _ id _ => size_applyKey s phase d id) w

theorem handed_applyDeclaration {s : Scene} {w : World} (hs : s.Grounded w) (phase : Phase)
    (d : Declaration) (keys : List String) :
    Handed (s.handings phase d keys) (s.applyDeclaration phase d keys w).1 w
      (s.applyDeclaration phase d keys w).2 := by
  rw [applyDeclaration, handings]
  cases hid : s.bound? d.name with
  | none => exact handed_nil _ w
  | some id => exact handed_applyKeys s phase d keys (hs d.name id hid)

/-- A pass hands over the properties of its declarations in order. -/
theorem handed_applyEach {s : Scene} (phase : Phase) (ds : List Declaration) {w : World}
    (hs : s.Grounded w) :
    Handed (ds.flatMap fun d => s.handings phase d d.setterKeys) (s.applyEach phase ds w).1 w
      (s.applyEach phase ds w).2 := by
  induction ds generalizing w with
  | nil => exact handed_nil _ w
  | cons d rest ih =>
    have h := handed_applyDeclaration hs phase d d.setterKeys
    have hsize := size_applyDeclaration s phase d d.setterKeys w
    rw [applyEach, List.flatMap_cons]
    split
    · rename_i h1
      rw [h1] at h
      exact h.stop _
    · rename_i h1
      rw [h1] at h hsize
      exact h.trans (ih (hs.of_size hsize))

/-- What is due when properties are handed over again: a second time, once the scene is attached. -/
def rehandings (s : Scene) (d : Declaration) (keys : List String) : List Execution :=
  s.handings .construction d keys ++
    match s.state with
    | .attached => s.handings .attached d keys
    | .viewsConstructed => []

theorem handed_reapplyKeys {s : Scene} {w : World} (hs : s.Grounded w) (d : Declaration)
    (keys : List String) :
    Handed (s.rehandings d keys) (s.reapplyKeys d keys w).1 w (s.reapplyKeys d keys w).2 := by
  have h := handed_applyDeclaration hs .construction d keys
  have hsize := size_applyDeclaration s .construction d keys w
  rw [reapplyKeys]
  split
  · rename_i h1
    rw [h1] at h
    exact h.stop _
  · rename_i h1
    rw [h1] at h hsize
    rw [rehandings]
    -- before the scene is attached there is no second turn
    cases s.state with
    | attached => exact h.trans (handed_applyDeclaration (hs.of_size hsize) .attached d keys)
    | viewsConstructed => exact h.trans (handed_nil _ _)

/-- Handing over again goes declaration by declaration. -/
theorem handed_reapply {s : Scene} (changed : List String) (ds : List Declaration) {w : World}
    (hs : s.Grounded w) :
    Handed (ds.flatMap fun d => s.rehandings d (affectedKeys d changed))
      (s.reapply changed ds w).1 w (s.reapply changed ds w).2 := by
  induction ds generalizing w with
  | nil => exact handed_nil _ w
  | cons d rest ih =>
    have h := handed_reapplyKeys hs d (affectedKeys d changed)
    have hsize : (s.reapplyKeys d (affectedKeys d changed) w).2.store.size = w.store.size :=
      reapplyKeys_rel (runs_eq fun w => w.store.size)
        (fun phase id _ => size_applyKey s phase d id) _ w
    rw [reapply, List.flatMap_cons]
    split
    · rename_i h1
      rw [h1] at h
      exact h.stop _
    · rename_i h1
      rw [h1] at h hsize
      exact h.trans (ih (hs.of_size hsize))

end Scene

end ViewSheet
