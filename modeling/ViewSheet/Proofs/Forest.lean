/-
  Forest: whatever a host does with its scenes, their views hang together without a circle.

  1. **Specification**: no view comes up again below itself, so that every search below a view ends;
     and a view that a scene has made for itself is attached at most once, over all lists.

  2. **The crux**: all edges are made by wiring, and wiring looks below the child for its parent
     first.  The views may be shared between scenes and stand for several names, so the edges of
     all scenes have to be taken together: the invariant (`Host.Tended`) is about the store that
     they share, and says of the scenes only what a deed has to rely on.

  3. **One owner** (`Host.Owned`): a view that is never handed in stands for one name of one scene
     below the root.  Other scenes can have it as a container, and a container is hung nowhere.  So
     only the last node of that name hangs it, and a scene wires its nodes once.

  4. **Result**: `forest_of_history`.
-/
import ViewSheet.Proofs.Attaching
import ViewSheet.Proofs.Hosting

namespace ViewSheet

/-! ## One deed and the lists -/

/-- **A gentle deed changes no list, or attaches a scene for the first time.** -/
theorem Deed.grown_or_wired {h : Host} {deed : Deed} (allowed : deed.Allowed h)
    (hgentle : deed.Gentle h.world)
    (hkeeps : ∀ s ∈ h.scenes, s.definition.catalogue.KeepsSubviews) :
    Grown h.world (deed.run h).world ∨ ∃ i container s w₁, deed = .attach i container ∧
      h.scenes[i]? = some s ∧ s.bound? rootName = none ∧ Scene.SameTree h.world w₁ ∧
      Scene.SameTree ((s.withContainer container).wire w₁) (deed.run h).world := by
  cases deed with
  | create v => exact Or.inl (grown_addView hgentle h.world)
  | edit id v => exact Or.inl (grown_setView hgentle)
  | load d root data views =>
    rw [world_run_load]
    exact Or.inl (Scene.grown_load hgentle.1 hgentle.2 root data allowed)
  | attach i container =>
    have hrun : (attach i container).run h = h.call i (.attach container) := rfl
    rcases h.call_cases i (.attach container) with ⟨-, heq⟩ | ⟨s, hs, heq⟩
    · rw [hrun, heq]
      exact Or.inl (.refl h.world)
    · rw [hrun, heq]
      rcases Scene.sameTree_or_wired_attach (hkeeps s (List.mem_of_getElem? hs)) container h.world
        with hsame | ⟨hfree, w₁, hbefore, hafter⟩
      · exact Or.inl hsame.grown
      · exact Or.inr ⟨i, container, s, w₁, rfl, hs, hfree, hbefore, hafter⟩
  | update i change =>
    have hrun : (update i change).run h = h.call i (.update change) := rfl
    rcases h.call_cases i (.update change) with ⟨-, heq⟩ | ⟨s, hs, heq⟩
    · rw [hrun, heq]
      exact Or.inl (.refl h.world)
    · rw [hrun, heq]
      exact Or.inl
        (Scene.sameTree_update (hkeeps s (List.mem_of_getElem? hs)) change h.world).grown

/-! ## The store that the scenes share -/

/-- A host whose views hang together without a circle, and whose scenes leave the lists alone but
    for wiring. -/
structure Host.Tended (h : Host) : Prop where
  grounded : h.Grounded
  keeps : ∀ s ∈ h.scenes, s.definition.catalogue.KeepsSubviews
  closed : h.world.store.Closed
  acyclic : h.world.store.Acyclic

namespace Host.Tended

variable {h : Host}

/-- Whatever nodes a scene wires, no circle comes of it. -/
theorem acyclic_wireNodes (ht : h.Tended) {s : Scene} (hs : s ∈ h.scenes) {container : ViewId}
    (hcontainer : h.world.store.Has container) {w : World} (hsame : Scene.SameTree h.world w)
    (nodes : List Nat) : ((s.withContainer container).wireNodes nodes w).store.Acyclic := by
  have hground := (Scene.grounded_withContainer (ht.grounded s hs) hcontainer).of_size hsame.1
  exact Scene.acyclic_wireNodes hground (hsame.grown.acyclic ht.acyclic) nodes

theorem run (ht : h.Tended) {deed : Deed} (allowed : deed.Allowed h)
    (hgentle : deed.Gentle h.world) : (deed.run h).Tended := by
  have hkeeps : ∀ s ∈ (deed.run h).scenes, s.definition.catalogue.KeepsSubviews := by
    intro s' hmem
    obtain ⟨j, hs'⟩ := List.mem_iff_getElem?.mp hmem
    rcases Deed.scene_run_cases hs' with
      ⟨s, hs, hsteady, -⟩ | ⟨d, root, data, views, rfl, -, hload⟩
    · rw [hsteady.definition]
      exact ht.keeps s (List.mem_of_getElem? hs)
    · rw [(Scene.loaded_of_load allowed hload).definition]
      exact hgentle.2
  rcases Deed.grown_or_wired allowed hgentle ht.keeps with
    hgrown | ⟨i, container, s, w₁, rfl, hs, -, hbefore, hafter⟩
  · exact ⟨ht.grounded.run allowed, hkeeps, hgrown.closed ht.closed, hgrown.acyclic ht.acyclic⟩
  · have hmem := List.mem_of_getElem? hs
    have hground :=
      (Scene.grounded_withContainer (ht.grounded s hmem) allowed).of_size hbefore.1
    have hclosed := Scene.closed_wireNodes hground (hbefore.grown.closed ht.closed)
      (s.withContainer container).hierarchy.breadthFirst
    have hacyclic := ht.acyclic_wireNodes hmem allowed hbefore
      (s.withContainer container).hierarchy.breadthFirst
    exact ⟨ht.grounded.run allowed, hkeeps, hafter.grown.closed hclosed,
      hafter.grown.acyclic hacyclic⟩

end Host.Tended

/-- **A host that edits no list keeps all its views in order.** -/
theorem History.tended {start h : Host} {past : List Entry} (hpast : History start past h)
    (hstart : start.Tended) (hgentle : ∀ e ∈ past, e.deed.Gentle e.before.world) : h.Tended := by
  induction hpast with
  | start => exact hstart
  | deed _ deed allowed ih =>
    have hbefore := ih fun e he => hgentle e (List.mem_append_left _ he)
    exact hbefore.run allowed (hgentle _ (List.mem_append_right _ (List.mem_singleton_self _)))

/-! ## One owner -/

/-- A view that stands for one name of one scene, and is attached at most once. -/
structure Host.Owned (i : Nat) (name : String) (id : ViewId) (h : Host) : Prop where
  has : h.world.store.Has id
  /-- Other scenes have it as their container at most. -/
  bound : ∀ j s, h.scenes[j]? = some s → ∀ other, s.bound? other = some id →
    s.isRootName other = true ∨ (j = i ∧ other = name)
  once : h.world.store.attachments.count id ≤ 1
  /-- It hangs nowhere until its scene is attached. -/
  free : h.world.store.attachments.count id = 0 ∨
    ∃ s, h.scenes[i]? = some s ∧ (s.bound? rootName).isSome

/-- A scene that has been attached stays in its place, with a container. -/
theorem Deed.isSome_bound?_run (deed : Deed) {h : Host} {i : Nat} {s : Scene}
    (hs : h.scenes[i]? = some s) : ∃ s', (deed.run h).scenes[i]? = some s' ∧
      ((s.bound? rootName).isSome → (s'.bound? rootName).isSome) ∧
      ∀ container, deed = .attach i container → (s'.bound? rootName).isSome := by
  have hcall : ∀ (j : Nat) (c : Call), ∃ s', (h.call j c).scenes[i]? = some s' ∧
      (s' = s ∨ s' = (c.run ⟨s, h.world⟩).2.scene) ∧
      (j = i → s' = (c.run ⟨s, h.world⟩).2.scene) := by
    intro j c
    rcases h.call_cases j c with ⟨hnone, heq⟩ | ⟨t, ht, heq⟩
    · rw [heq]
      refine ⟨s, hs, Or.inl rfl, ?_⟩
      rintro rfl
      rw [hs] at hnone
      cases hnone
    · rw [heq, List.getElem?_set]
      split
      · rename_i hji
        subst hji
        rw [hs, Option.some.injEq] at ht
        subst ht
        have hlt := (List.getElem?_eq_some_iff.mp hs).1
        rw [if_pos hlt]
        exact ⟨_, rfl, Or.inr rfl, fun _ => rfl⟩
      · rename_i hji
        exact ⟨s, hs, Or.inl rfl, fun heq => absurd heq hji⟩
  have hattach : ∀ container, (((Call.attach container).run ⟨s, h.world⟩).2.scene.bound?
      rootName).isSome := fun container =>
    Option.isSome_of_eq_some (s.bound?_attach container h.world)
  cases deed with
  | create v => exact ⟨s, hs, id, by rintro _ ⟨⟩⟩
  | edit id' v => exact ⟨s, hs, id, by rintro _ ⟨⟩⟩
  | load d root data views =>
    rcases hload : Scene.load d root data views h.world with ⟨e | t, w⟩
    · rw [run_load_error hload]
      exact ⟨s, hs, id, by rintro _ ⟨⟩⟩
    · rw [run_load_ok hload]
      have hlt := (List.getElem?_eq_some_iff.mp hs).1
      refine ⟨s, ?_, id, by rintro _ ⟨⟩⟩
      show (h.scenes ++ [t])[i]? = some s
      rw [List.getElem?_append_left hlt]
      exact hs
  | update j change =>
    obtain ⟨s', hs', hcases, -⟩ := hcall j (.update change)
    refine ⟨s', hs', fun hsome => ?_, by rintro _ ⟨⟩⟩
    rcases hcases with rfl | rfl
    · exact hsome
    · rw [Call.scene_run_update]
      exact hsome
  | attach j container =>
    obtain ⟨s', hs', hcases, hhere⟩ := hcall j (.attach container)
    refine ⟨s', hs', fun hsome => ?_, fun other heq => ?_⟩
    · rcases hcases with rfl | rfl
      · exact hsome
      · exact hattach container
    · injection heq with hji
      rw [hhere hji]
      exact hattach container

namespace Host.Owned

variable {i : Nat} {name : String} {id : ViewId} {h : Host}

/-- Nodes that hang an owned view are nodes of its scene, and of its name. -/
theorem nameOf_of_hangs (howned : h.Owned i name id) {j : Nat} {s : Scene}
    (hs : h.scenes[j]? = some s) {container : ViewId} {node : Nat} {parent : ViewId}
    (hhangs : (s.withContainer container).Hangs node parent id) :
    j = i ∧ s.hierarchy.nameOf node = name := by
  obtain ⟨hlink, hcontainer⟩ := hhangs
  obtain ⟨p, -, -, -, hview⟩ := Scene.link?_eq_some_iff.mp hlink
  have hroot : (s.withContainer container).bound? rootName = some container :=
    Scene.viewOf_withContainer_zero
  have hview : (s.withContainer container).bound? (s.hierarchy.nameOf node) = some id := hview
  rw [Scene.bound?_withContainer] at hview
  split at hview
  · -- a name of the root stands for the container, which is hung nowhere
    rw [hroot, ← hview] at hcontainer
    exact absurd rfl hcontainer
  · rename_i hbelow
    exact (howned.bound j s hs _ hview).resolve_left hbelow

/-- No deed that does not hand the view in gives it another name below a root. -/
theorem bound_run (howned : h.Owned i name id) {deed : Deed} (allowed : deed.Allowed h)
    (hkept : ¬ deed.HandsIn id) {j : Nat} {s' : Scene} (hs' : (deed.run h).scenes[j]? = some s')
    {other : String} (hid : s'.bound? other = some id) :
    s'.isRootName other = true ∨ (j = i ∧ other = name) := by
  rcases Deed.scene_run_cases hs' with
    ⟨s, hs, hsteady, hcases⟩ | ⟨d, root, data, views, rfl, -, hload⟩
  · rw [hsteady.isRootName]
    rcases hcases other id hid with hold | ⟨-, hroot⟩
    · exact howned.bound j s hs other hold
    · exact Or.inl hroot
  · -- a new scene has views that are handed in, and views that it has made
    obtain ⟨hierarchy, w₁, -, hbuilds, -⟩ := Scene.exists_builds_of_load allowed hload
    rcases hbuilds.made other id hid with hin | ⟨-, -, hnew, -⟩
    · exact absurd ⟨_, (Scene.mem_of_bound?_bare hin).2, rfl⟩ hkept
    · exact absurd howned.has hnew

/-- When its own scene is wired for the first time, the view has hung nowhere yet, and the last node
    of its name is the only one to hang it. -/
theorem count_wire_own (howned : h.Owned i name id) {s : Scene} (hs : h.scenes[i]? = some s)
    (hunbound : s.bound? rootName = none) {container : ViewId} {w : World}
    (hground : (s.withContainer container).Grounded w) (hgrown : Grown h.world w) :
    ((s.withContainer container).wire w).store.attachments.count id ≤ 1 := by
  have hnone : h.world.store.attachments.count id = 0 := by
    rcases howned.free with hnone | ⟨t, ht, hsome⟩
    · exact hnone
    · rw [hs, Option.some.injEq] at ht
      rw [← ht, hunbound] at hsome
      cases hsome
  have honly : ∀ a b p q, (s.withContainer container).Hangs a p id →
      (s.withContainer container).Hangs b q id → a = b := by
    intro a b p q ha hb
    obtain ⟨-, -, hlastA, -, -⟩ := Scene.link?_eq_some_iff.mp ha.1
    obtain ⟨-, -, hlastB, -, -⟩ := Scene.link?_eq_some_iff.mp hb.1
    have hnames : (s.withContainer container).hierarchy.nameOf a =
        (s.withContainer container).hierarchy.nameOf b :=
      (howned.nameOf_of_hangs hs ha).2.trans (howned.nameOf_of_hangs hs hb).2.symm
    rw [hnames, hlastB, Option.some.injEq] at hlastA
    exact hlastA.symm
  have hcount := Scene.count_wireNodes_le hground
    (s.withContainer container).hierarchy.nodup_breadthFirst honly
  rw [hgrown.attachments, hnone] at hcount
  exact hcount

/-- When another scene is wired, it hangs the view nowhere. -/
theorem count_wire_other (howned : h.Owned i name id) {j : Nat} {s : Scene}
    (hs : h.scenes[j]? = some s) (hji : j ≠ i) {container : ViewId} {w : World}
    (hground : (s.withContainer container).Grounded w) (hgrown : Grown h.world w) :
    ((s.withContainer container).wire w).store.attachments.count id =
      h.world.store.attachments.count id := by
  have hnot : ∀ node ∈ (s.withContainer container).hierarchy.breadthFirst, ∀ parent,
      ¬ (s.withContainer container).Hangs node parent id :=
    fun node _ parent hhangs => hji (howned.nameOf_of_hangs hs hhangs).1
  rw [← hgrown.attachments]
  exact Scene.count_wireNodes hground hnot

/-- **A gentle deed leaves an owned view to its owner.** -/
theorem run (howned : h.Owned i name id) (ht : h.Tended) {deed : Deed} (allowed : deed.Allowed h)
    (hgentle : deed.Gentle h.world) (hkept : ¬ deed.HandsIn id) :
    (deed.run h).Owned i name id := by
  have hhas := howned.has.mono (Deed.size_le_run allowed)
  have hbound : ∀ j s, (deed.run h).scenes[j]? = some s → ∀ other, s.bound? other = some id →
      s.isRootName other = true ∨ (j = i ∧ other = name) :=
    fun j s hs other hid => howned.bound_run allowed hkept hs hid
  have hfree : h.world.store.attachments.count id = 0 ∨
      ∃ s, (deed.run h).scenes[i]? = some s ∧ (s.bound? rootName).isSome := by
    rcases howned.free with hnone | ⟨s, hs, hsome⟩
    · exact Or.inl hnone
    · obtain ⟨s', hs', hstays, -⟩ := deed.isSome_bound?_run hs
      exact Or.inr ⟨s', hs', hstays hsome⟩
  rcases Deed.grown_or_wired allowed hgentle ht.keeps with
    hgrown | ⟨j, container, s, w₁, rfl, hs, hunbound, hbefore, hafter⟩
  · rw [← hgrown.attachments] at hfree
    exact ⟨hhas, hbound, hgrown.attachments ▸ howned.once, hfree⟩
  · have hground := (Scene.grounded_withContainer
      (ht.grounded s (List.mem_of_getElem? hs)) allowed).of_size hbefore.1
    by_cases hji : j = i
    · subst hji
      have hcount := howned.count_wire_own hs hunbound hground hbefore.grown
      obtain ⟨s', hs', -, hsome⟩ := (Deed.attach j container).isSome_bound?_run hs
      refine ⟨hhas, hbound, ?_, Or.inr ⟨s', hs', hsome container rfl⟩⟩
      rw [hafter.grown.attachments]
      exact hcount
    · have hsame : ((Deed.attach j container).run h).world.store.attachments.count id =
          h.world.store.attachments.count id := by
        rw [hafter.grown.attachments]
        exact howned.count_wire_other hs hji hground hbefore.grown
      rw [← hsame] at hfree
      exact ⟨hhas, hbound, hsame ▸ howned.once, hfree⟩

end Host.Owned

/-- A view that a load makes for itself has one owner. -/
theorem Entry.Makes.owned {e : Entry} {id : ViewId} (hmakes : e.Makes id) (ht : e.before.Tended)
    (hgentle : e.deed.Gentle e.before.world) :
    ∃ i name, (e.deed.run e.before).Owned i name id := by
  obtain ⟨h, deed⟩ := e
  obtain ⟨⟨d, root, data, rfl⟩, hnew, hhas⟩ := hmakes
  show ∃ i name, ((Deed.load d root data []).run h).Owned i name id
  have hgentle : d.catalogue.MakesBare ∧ d.catalogue.KeepsSubviews := hgentle
  have allowed : (Deed.load d root data []).Allowed h := List.forall_mem_nil _
  have hgrown : Grown h.world ((Deed.load d root data []).run h).world := by
    rw [Deed.world_run_load]
    exact Scene.grown_load hgentle.1 hgentle.2 root data (List.forall_mem_nil _)
  -- what is attached was there before, and the view was not
  have hnone : ((Deed.load d root data []).run h).world.store.attachments.count id = 0 := by
    rw [hgrown.attachments, List.count_eq_zero, ViewStore.mem_attachments]
    rintro ⟨parent, hbears⟩
    exact hnew (ht.closed parent id hbears)
  have hone : ∃ name, ∀ s, Scene.load d root data [] h.world =
      (.ok s, ((Deed.load d root data []).run h).world) →
      ∀ other, s.bound? other = some id → other = name := by
    rcases hload : Scene.load d root data [] h.world with ⟨e | s, w⟩
    · exact ⟨"", fun s hs => by cases hs⟩
    · obtain ⟨hierarchy, w₁, -, hbuilds, -⟩ :=
        Scene.exists_builds_of_load (List.forall_mem_nil _) hload
      by_cases hnamed : ∃ name, s.bound? name = some id
      · obtain ⟨name, hname⟩ := hnamed
        refine ⟨name, fun t ht other hother => ?_⟩
        cases ht
        exact hbuilds.apart other name id hother hname hnew
      · refine ⟨"", fun t ht other hother => ?_⟩
        cases ht
        exact absurd ⟨other, hother⟩ hnamed
  obtain ⟨name, hname⟩ := hone
  refine ⟨h.scenes.length, name, hhas, fun j s' hs' other hid => ?_, by omega, Or.inl hnone⟩
  rcases Deed.scene_run_cases hs' with
    ⟨s, hs, -, hcases⟩ | ⟨d', root', data', views, heq, hlast, hload⟩
  · rcases hcases other id hid with hold | ⟨heq, -⟩
    · exact absurd (ht.grounded s (List.mem_of_getElem? hs) other id hold) hnew
    · cases heq
  · cases heq
    have hlt := (List.getElem?_eq_some_iff.mp hs').1
    have hlength : ((Deed.load d root data []).run h).scenes.length = h.scenes.length + 1 := by
      rw [Deed.run_load_ok hload, List.length_append, List.length_singleton]
    have hle := List.getElem?_eq_none_iff.mp hlast
    refine Or.inr ⟨by omega, hname s' hload other hid⟩

/-- A view that a scene has made for itself, and that is never handed in, has one owner. -/
theorem History.owned {start h : Host} {past : List Entry} (hpast : History start past h)
    (hstart : start.Tended) (hgentle : ∀ e ∈ past, e.deed.Gentle e.before.world) {id : ViewId}
    (hmade : ∃ e ∈ past, e.Makes id) (hkept : ∀ e ∈ past, ¬ e.deed.HandsIn id) :
    ∃ i name, h.Owned i name id := by
  induction hpast with
  | start =>
    obtain ⟨e, he, -⟩ := hmade
    cases he
  | deed hearlier deed allowed ih =>
    rename_i past h
    have hlast : (⟨h, deed⟩ : Entry) ∈ past ++ [⟨h, deed⟩] :=
      List.mem_append_right _ (List.mem_singleton_self _)
    have hbefore : ∀ e ∈ past, e.deed.Gentle e.before.world :=
      fun e he => hgentle e (List.mem_append_left _ he)
    have ht := hearlier.tended hstart hbefore
    obtain ⟨e, he, hmakes⟩ := hmade
    rcases List.mem_append.mp he with hpast | hnow
    · obtain ⟨i, name, howned⟩ := ih hbefore ⟨e, hpast, hmakes⟩
        fun e he => hkept e (List.mem_append_left _ he)
      exact ⟨i, name, howned.run ht allowed (hgentle _ hlast) (hkept _ hlast)⟩
    · rw [List.mem_singleton] at hnow
      subst hnow
      exact hmakes.owned ht (hgentle _ hlast)

/-! ## The views of a host -/

/-- **The views stay a forest.**  Whatever a host does with any number of scenes, no view comes up
    again below itself, also while a scene is wired, so that each search below a view ends; and a
    view that a scene has made for itself is attached at most once. -/
theorem forest_of_history {w₀ : World} {past : List Entry} {h : Host}
    (hclosed : w₀.store.Closed) (hacyclic : w₀.store.Acyclic) (hpast : History ⟨[], w₀⟩ past h)
    (hgentle : ∀ e ∈ past, e.deed.Gentle e.before.world) :
    h.world.store.Acyclic ∧
    (∀ view target, h.world.store.Search target [view] (h.world.store.holds view target)) ∧
    (∀ s ∈ h.scenes, ∀ container, h.world.store.Has container →
      ∀ w, Scene.SameTree h.world w → ∀ nodes,
        ((s.withContainer container).wireNodes nodes w).store.Acyclic ∧ ∀ view target,
          ((s.withContainer container).wireNodes nodes w).store.Search target [view]
            (((s.withContainer container).wireNodes nodes w).store.holds view target)) ∧
    ∀ id, (∃ e ∈ past, e.Makes id) → (∀ e ∈ past, ¬ e.deed.HandsIn id) →
      h.world.store.attachments.count id ≤ 1 := by
  have hstart : (⟨[], w₀⟩ : Host).Tended :=
    ⟨List.forall_mem_nil _, List.forall_mem_nil _, hclosed, hacyclic⟩
  have ht := hpast.tended hstart hgentle
  refine ⟨ht.acyclic, fun view target => ViewStore.search_holds ht.acyclic view target, ?_, ?_⟩
  · intro s hs container hcontainer w hsame nodes
    have hwired := ht.acyclic_wireNodes hs hcontainer hsame nodes
    exact ⟨hwired, fun view target => ViewStore.search_holds hwired view target⟩
  · intro id hmade hkept
    obtain ⟨i, name, howned⟩ := hpast.owned hstart hgentle hmade hkept
    exact howned.once

/-! ## A view in two scenes -/

/-- Two trees on one sheet. -/
def twoTrees : Definition where
  document := (parseInto (.empty "sheet") "Main:\n  A\n    B\nSide:\n  C\n    D\n").document
  catalogue := .stock
  listener := none

/-- A host that hands `B` of its first scene to its second one, under two names, and hangs the
    second scene into `A`. -/
def sharing : List Deed :=
  [.load twoTrees "Main" .empty [], .create (.stock (.container {})), .attach 0 ⟨2⟩,
    .load twoTrees "Side" .empty [("C", ⟨1⟩), ("D", ⟨1⟩)], .attach 1 ⟨0⟩]

/-- The host after that. -/
def shared : Host := (Deed.play sharing ⟨[], .empty⟩).2

theorem sharing_computed : Deed.allAllowed sharing ⟨[], .empty⟩ = true ∧
    ((Deed.load twoTrees "Main" .empty []).run ⟨[], .empty⟩).world.store.size = 2 ∧
    shared.world.store.attachments = [⟨1⟩, ⟨1⟩, ⟨0⟩] := by
  decide +kernel

/-- The view that is shared hangs twice, and the one that is not hangs once. -/
theorem forest_of_history_shared : shared.world.store.Acyclic ∧
    (∀ view target,
      shared.world.store.Search target [view] (shared.world.store.holds view target)) ∧
    shared.world.store.attachments = [⟨1⟩, ⟨1⟩, ⟨0⟩] ∧
    shared.world.store.attachments.count ⟨0⟩ ≤ 1 := by
  obtain ⟨hallowed, hsize, hattachments⟩ := sharing_computed
  have hgentle : ∀ e ∈ (Deed.play sharing ⟨[], .empty⟩).1, e.deed.Gentle e.before.world := by
    intro e he
    have hdeed := Deed.mem_of_mem_play he
    simp only [sharing, List.mem_cons, List.not_mem_nil, or_false] at hdeed
    have hstock := And.intro Catalogue.makesBare_stock Catalogue.keepsSubviews_stock
    rcases hdeed with h | h | h | h | h <;> rw [h]
    · exact hstock
    · rfl
    · trivial
    · exact hstock
    · trivial
  have hmade : ∃ e ∈ (Deed.play sharing ⟨[], .empty⟩).1, e.Makes ⟨0⟩ := by
    refine ⟨_, List.mem_cons_self, ⟨_, _, _, rfl⟩, Nat.not_lt_zero _, ?_⟩
    show 0 < ((Deed.load twoTrees "Main" .empty []).run ⟨[], .empty⟩).world.store.size
    omega
  have hkept : ∀ e ∈ (Deed.play sharing ⟨[], .empty⟩).1, ¬ e.deed.HandsIn ⟨0⟩ := by
    intro e he
    have hdeed := Deed.mem_of_mem_play he
    simp only [sharing, List.mem_cons, List.not_mem_nil, or_false] at hdeed
    rcases hdeed with h | h | h | h | h <;> rw [h] <;> simp [Deed.HandsIn]
  obtain ⟨hacyclic, hsearch, -, honce⟩ := forest_of_history ViewStore.closed_empty
    ViewStore.acyclic_empty (History.play hallowed) hgentle
  exact ⟨hacyclic, hsearch, hattachments, honce ⟨0⟩ hmade hkept⟩

end ViewSheet
