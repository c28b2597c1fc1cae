/-
  Hosting: one host with any number of scenes over the same views.

  1. **Program**: a host makes and changes views of its own, loads scenes, with views of its own or
     of other scenes for some of the names, and attaches and updates them, in any order and whether
     or not the calls succeed.  `History` keeps a record of all it did.

  2. **One deed**: a scene after a deed has been loaded by it, or is one that was there, with at
     most its container exchanged (`scene_run_cases`).

  3. **What stays**: no view is ever taken away (`size_le_run`), and the views that the scenes stand
     for are there (`History.grounded`).
-/
import ViewSheet.Proofs.Hanging

namespace ViewSheet

/-! ## Deeds -/

/-- The scenes that a host has loaded, and the world they share. -/
structure Host where
  scenes : List Scene
  world : World

/-- The host after a call on one of its scenes. -/
def Host.call (h : Host) (i : Nat) (c : Call) : Host :=
  match h.scenes[i]? with
  | none => h
  | some s =>
    let m := (c.run ⟨s, h.world⟩).2
    ⟨h.scenes.set i m.scene, m.world⟩

/-- What a host does. -/
inductive Deed where
  | create (v : View)
  /-- It changes a view by its own means. -/
  | edit (id : ViewId) (v : View)
  /-- It loads a hierarchy, with views for some of the names. -/
  | load (d : Definition) (root : String) (data : DataBindings) (views : List (String × ViewId))
  | attach (i : Nat) (container : ViewId)
  | update (i : Nat) (change : DataBindings → DataBindings)

namespace Deed

/-- The host after a deed.  A load that fails leaves the views behind that it has built. -/
def run (deed : Deed) (h : Host) : Host :=
  match deed with
  | create v => ⟨h.scenes, h.world.addView v⟩
  | edit id v => ⟨h.scenes, h.world.setView id v⟩
  | load d root data views =>
    match Scene.load d root data views h.world with
    | (.ok s, w) => ⟨h.scenes ++ [s], w⟩
    | (.error _, w) => ⟨h.scenes, w⟩
  | attach i container => h.call i (.attach container)
  | update i change => h.call i (.update change)

/-- The views that are handed in are there. -/
def Allowed (h : Host) : Deed → Prop
  | load _ _ _ views => ∀ p ∈ views, h.world.store.Has p.2
  | attach _ container => h.world.store.Has container
  | _ => True

/-- The lists of attached views are left to the scenes: new views come bare, and neither the host
    nor a setter edits a list. -/
def Gentle (w : World) : Deed → Prop
  | create v => v.subviews = []
  | edit id v => v.subviews = w.store.subviews id
  | load d _ _ _ => d.catalogue.MakesBare ∧ d.catalogue.KeepsSubviews
  | _ => True

/-- The view is handed in for some name. -/
def HandsIn (id : ViewId) : Deed → Prop
  | load _ _ _ views => ∃ p ∈ views, p.2 = id
  | _ => False

end Deed

/-- A deed and the host before it. -/
structure Entry where
  before : Host
  deed : Deed

namespace Entry

/-- The view is made by a load without initial views, whether it succeeds or not. -/
def Makes (e : Entry) (id : ViewId) : Prop :=
  (∃ d root data, e.deed = .load d root data []) ∧ ¬ e.before.world.store.Has id ∧
    (e.deed.run e.before).world.store.Has id

end Entry

/-- All that a host did from some moment on, and the host after it. -/
inductive History (start : Host) : List Entry → Host → Prop where
  | start : History start [] start
  | deed {past : List Entry} {h : Host} (hpast : History start past h) (deed : Deed)
      (allowed : deed.Allowed h) : History start (past ++ [⟨h, deed⟩]) (deed.run h)

/-! ## One deed -/

/-- **All that can come of a call on a scene.** -/
theorem Host.call_cases (h : Host) (i : Nat) (c : Call) :
    (h.scenes[i]? = none ∧ h.call i c = h) ∨
      ∃ s, h.scenes[i]? = some s ∧ h.call i c =
        ⟨h.scenes.set i (c.run ⟨s, h.world⟩).2.scene, (c.run ⟨s, h.world⟩).2.world⟩ := by
  unfold call
  cases h.scenes[i]? with
  | none => exact Or.inl ⟨rfl, rfl⟩
  | some s => exact Or.inr ⟨s, rfl, rfl⟩

/-- A call on a scene changes that scene and no other. -/
theorem Host.scene_call {h : Host} {i j : Nat} {c : Call} {s' : Scene}
    (hs' : (h.call i c).scenes[j]? = some s') : h.scenes[j]? = some s' ∨
      (j = i ∧ ∃ s, h.scenes[i]? = some s ∧ s' = (c.run ⟨s, h.world⟩).2.scene) := by
  rcases h.call_cases i c with ⟨-, heq⟩ | ⟨s, hs, heq⟩
  · rw [heq] at hs'
    exact Or.inl hs'
  · rw [heq, List.getElem?_set] at hs'
    split at hs'
    · rename_i hij
      split at hs'
      · rw [Option.some.injEq] at hs'
        exact Or.inr ⟨hij.symm, s, hs, hs'.symm⟩
      · cases hs'
    · exact Or.inl hs'

theorem Host.size_le_call (h : Host) (i : Nat) (c : Call) :
    h.world.store.size ≤ (h.call i c).world.store.size := by
  rcases h.call_cases i c with ⟨-, heq⟩ | ⟨s, -, heq⟩
  · exact Nat.le_of_eq (by rw [heq])
  · rw [heq]
    exact c.size_le_run ⟨s, h.world⟩

/-- A call keeps what the names of a scene stand for, except that an attach call binds those of the
    root to the container. -/
theorem Call.bound?_run {c : Call} {m : Moment} {name : String} {id : ViewId}
    (hid : (c.run m).2.scene.bound? name = some id) : m.scene.bound? name = some id ∨
      (c = .attach id ∧ m.scene.isRootName name = true) := by
  cases c with
  | create v => exact Or.inl hid
  | update change =>
    rw [scene_run_update] at hid
    exact Or.inl hid
  | attach container =>
    have hbound : (m.scene.withContainer container).bound? name = some id := by
      rcases m.scene.attach_cases container m.world with ⟨w₁, -, h⟩ | ⟨e, w₁, events, -, h⟩
      · rw [run, h] at hid
        exact hid
      · rw [run, h] at hid
        exact hid
    rw [Scene.bound?_withContainer] at hbound
    split at hbound
    · rename_i hroot
      rw [Option.some.injEq] at hbound
      exact Or.inr ⟨by rw [hbound], hroot⟩
    · exact Or.inl hbound

namespace Scene

theorem size_le_load {d : Definition} {root : String} {data : DataBindings}
    {views : List (String × ViewId)} {w : World} (hviews : ∀ p ∈ views, w.store.Has p.2) :
    w.store.size ≤ (load d root data views w).2.store.size := by
  cases hfound : (d.document.get? root).bind (·.hierarchy) with
  | none => exact Nat.le_of_eq (by rw [load, hfound])
  | some hierarchy =>
    rcases hbuilt : buildNames (bare d root hierarchy data views).nodeNames
      (bare d root hierarchy data views) w with ⟨t, w₁⟩
    have hbuilds := builds_of_buildNames hviews hbuilt
    have hpass : (t.applyAll .construction w₁).2.store.size = w₁.store.size :=
      t.size_applyEach .construction t.configured w₁
    rw [load_eq hfound data views w hbuilt]
    split
    · rename_i happly
      rw [happly] at hpass
      exact Nat.le_trans hbuilds.grown (Nat.le_of_eq hpass.symm)
    · rename_i happly
      rw [happly] at hpass
      exact Nat.le_trans hbuilds.grown (Nat.le_of_eq hpass.symm)

end Scene

namespace Deed

theorem run_load_ok {d : Definition} {root : String} {data : DataBindings}
    {views : List (String × ViewId)} {h : Host} {s : Scene} {w : World}
    (hload : Scene.load d root data views h.world = (.ok s, w)) :
    (load d root data views).run h = ⟨h.scenes ++ [s], w⟩ := by
  rw [run, hload]

theorem run_load_error {d : Definition} {root : String} {data : DataBindings}
    {views : List (String × ViewId)} {h : Host} {e : Error} {w : World}
    (hload : Scene.load d root data views h.world = (.error e, w)) :
    (load d root data views).run h = ⟨h.scenes, w⟩ := by
  rw [run, hload]

theorem world_run_load (d : Definition) (root : String) (data : DataBindings)
    (views : List (String × ViewId)) (h : Host) :
    ((load d root data views).run h).world = (Scene.load d root data views h.world).2 := by
  rcases hload : Scene.load d root data views h.world with ⟨e | s, w⟩
  · rw [run_load_error hload]
  · rw [run_load_ok hload]

/-- **No deed takes a view away.** -/
theorem size_le_run {deed : Deed} {h : Host} (allowed : deed.Allowed h) :
    h.world.store.size ≤ (deed.run h).world.store.size := by
  cases deed with
  | create v =>
    show h.world.store.size ≤ (h.world.addView v).store.size
    rw [World.store_addView, ViewStore.size_add]
    exact Nat.le_succ _
  | edit id v =>
    show h.world.store.size ≤ (h.world.setView id v).store.size
    exact Nat.le_of_eq (by rw [World.store_setView, ViewStore.size_set])
  | load d root data views =>
    rw [world_run_load]
    exact Scene.size_le_load allowed
  | attach i container => exact h.size_le_call i _
  | update i change => exact h.size_le_call i _

/-- **A scene after a deed** was there before, with other views for the names of its root at most,
    or has just been loaded. -/
theorem scene_run_cases {deed : Deed} {h : Host} {j : Nat} {s' : Scene}
    (hs' : (deed.run h).scenes[j]? = some s') :
    (∃ s, h.scenes[j]? = some s ∧ s.Steady s' ∧ ∀ name id, s'.bound? name = some id →
      s.bound? name = some id ∨ (deed = .attach j id ∧ s.isRootName name = true)) ∨
    ∃ d root data views, deed = .load d root data views ∧ h.scenes[j]? = none ∧
      Scene.load d root data views h.world = (.ok s', (deed.run h).world) := by
  have hcall : ∀ (i : Nat) (c : Call), (h.call i c).scenes[j]? = some s' →
      ∃ s, h.scenes[j]? = some s ∧ s.Steady s' ∧ ∀ name id, s'.bound? name = some id →
        s.bound? name = some id ∨ (j = i ∧ c = .attach id ∧ s.isRootName name = true) := by
    intro i c hs'
    rcases Host.scene_call hs' with hsame | ⟨rfl, s, hs, rfl⟩
    · exact ⟨s', hsame, .refl s', fun _ _ => Or.inl⟩
    · refine ⟨s, hs, c.steady_run ⟨s, h.world⟩, fun name id hid => ?_⟩
      rcases Call.bound?_run hid with hold | hnew
      · exact Or.inl hold
      · exact Or.inr ⟨rfl, hnew⟩
  cases deed with
  | create v => exact Or.inl ⟨s', hs', .refl s', fun _ _ => Or.inl⟩
  | edit id v => exact Or.inl ⟨s', hs', .refl s', fun _ _ => Or.inl⟩
  | attach i container =>
    obtain ⟨s, hs, hsteady, hbound⟩ := hcall i _ hs'
    refine Or.inl ⟨s, hs, hsteady, fun name id hid => ?_⟩
    rcases hbound name id hid with hold | ⟨rfl, hattach, hroot⟩
    · exact Or.inl hold
    · injection hattach with hattach
      exact Or.inr ⟨by rw [hattach], hroot⟩
  | update i change =>
    obtain ⟨s, hs, hsteady, hbound⟩ := hcall i _ hs'
    refine Or.inl ⟨s, hs, hsteady, fun name id hid => ?_⟩
    rcases hbound name id hid with hold | ⟨-, hattach, -⟩
    · exact Or.inl hold
    · cases hattach
  | load d root data views =>
    rcases hload : Scene.load d root data views h.world with ⟨e | s, w⟩
    · rw [run_load_error hload] at hs'
      exact Or.inl ⟨s', hs', .refl s', fun _ _ => Or.inl⟩
    · rw [run_load_ok hload] at hs' ⊢
      rw [List.getElem?_append] at hs'
      split at hs'
      · exact Or.inl ⟨s', hs', .refl s', fun _ _ => Or.inl⟩
      · -- the new scene comes last
        rename_i hlast
        have hnew : s' = s := List.mem_singleton.mp (List.mem_of_getElem? hs')
        subst hnew
        exact Or.inr ⟨d, root, data, views, rfl,
          List.getElem?_eq_none (Nat.le_of_not_lt hlast), hload⟩

end Deed

/-! ## What stays -/

/-- The views that the scenes stand for are there. -/
def Host.Grounded (h : Host) : Prop := ∀ s ∈ h.scenes, s.Grounded h.world

/-- The views that the scenes stand for are there after a deed. -/
theorem Host.Grounded.run {h : Host} (hground : h.Grounded) {deed : Deed}
    (allowed : deed.Allowed h) : (deed.run h).Grounded := by
  intro s' hmem name id hid
  obtain ⟨j, hs'⟩ := List.mem_iff_getElem?.mp hmem
  rcases Deed.scene_run_cases hs' with
    ⟨s, hs, -, hbound⟩ | ⟨d, root, data, views, rfl, -, hload⟩
  · have hthere : h.world.store.Has id := by
      rcases hbound name id hid with hold | ⟨rfl, -⟩
      · exact hground s (List.mem_of_getElem? hs) name id hold
      · exact allowed
    exact hthere.mono (Deed.size_le_run allowed)
  · exact (Scene.loaded_of_load allowed hload).grounded name id hid

/-- **The views that the scenes stand for are there at any time.** -/
theorem History.grounded {start h : Host} {past : List Entry} (hpast : History start past h)
    (hstart : start.scenes = []) : h.Grounded := by
  induction hpast with
  | start =>
    intro s hs
    rw [hstart] at hs
    cases hs
  | deed _ deed allowed ih => exact ih.run allowed

/-! ## Playing a list of deeds -/

instance (h : Host) (deed : Deed) : Decidable (deed.Allowed h) :=
  match deed with
  | .create _ => .isTrue trivial
  | .edit _ _ => .isTrue trivial
  | .load _ _ _ views =>
    inferInstanceAs (Decidable (∀ p ∈ views, p.2.index < h.world.store.size))
  | .attach _ container => inferInstanceAs (Decidable (container.index < h.world.store.size))
  | .update _ _ => .isTrue trivial

namespace Deed

/-- Does deeds one after the other: the record of them, and the host after them. -/
def play : List Deed → Host → List Entry × Host
  | [], h => ([], h)
  | deed :: rest, h =>
    let (past, last) := play rest (deed.run h)
    (⟨h, deed⟩ :: past, last)

/-- Whether each of some deeds is allowed when its turn comes. -/
def allAllowed : List Deed → Host → Bool
  | [], _ => true
  | deed :: rest, h => decide (deed.Allowed h) && allAllowed rest (deed.run h)

theorem mem_of_mem_play {deeds : List Deed} {start : Host} {e : Entry}
    (he : e ∈ (play deeds start).1) : e.deed ∈ deeds := by
  induction deeds generalizing start with
  | nil => cases he
  | cons deed rest ih =>
    rcases List.mem_cons.mp he with rfl | hlater
    · exact List.mem_cons_self
    · exact List.mem_cons_of_mem deed (ih hlater)

end Deed

namespace History

theorem cons {start : Host} {deed : Deed} (allowed : deed.Allowed start) {past : List Entry}
    {h : Host} (hpast : History (deed.run start) past h) :
    History start (⟨start, deed⟩ :: past) h := by
  induction hpast with
  | start => exact .deed .start deed allowed
  | deed _ last hlast ih => exact .deed ih last hlast

/-- Deeds that are played make a history. -/
theorem play {deeds : List Deed} {start : Host} (h : Deed.allAllowed deeds start = true) :
    History start (Deed.play deeds start).1 (Deed.play deeds start).2 := by
  induction deeds generalizing start with
  | nil => exact .start
  | cons deed rest ih =>
    rw [Deed.allAllowed, Bool.and_eq_true, decide_eq_true_eq] at h
    exact cons h.1 (ih h.2)

end History

end ViewSheet
