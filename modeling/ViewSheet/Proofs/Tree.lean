/-
  Tree: the views that hang together after the first attach call are those of the declared tree.

  1. **Assumptions on a catalogue**: new views come with nothing attached, and no setter edits a
     list of attached views.  The stock catalogue meets both (`makesBare_stock`,
     `keepsSubviews_stock`).

  2. **Invariant** (`Quiet`): from the load up to the first attach call, every bound name stands for
     a view of its own that was made by the load and has nothing attached; whatever is attached
     anywhere was there before the load.

  3. **Result** (`subviews_attach_first`): after the first attach call, each view holds the views of
     its node's children, in their order and each once, and a view whose node hangs from a node
     without a view is in no list.
-/
import ViewSheet.Proofs.Documents
import ViewSheet.Proofs.Session
import ViewSheet.Proofs.StockSetters

namespace ViewSheet

namespace ViewStore

/-- Whatever is attached to a view is there. -/
def Closed (s : ViewStore) : Prop := ∀ id child, child ∈ s.subviews id → s.Has child

theorem closed_empty : empty.Closed := by
  intro id child h
  simp [subviews, get?, empty] at h

theorem subviews_add {s : ViewStore} {v : View} (hv : v.subviews = []) (id : ViewId) :
    (s.add v).subviews id = s.subviews id := by
  by_cases hid : id = s.fresh
  · subst hid
    have hnone : s.get? s.fresh = none := by
      rw [Option.eq_none_iff_forall_ne_some]
      exact fun u hu => not_has_fresh s (has_iff.mpr ⟨u, hu⟩)
    rw [subviews_of_get? (get?_add_fresh s v), hv, subviews, hnone]
  · exact subviews_congr (get?_add_of_ne s v hid)

end ViewStore

namespace Scene

/-! ## Before the first attach call -/

/-- A scene whose views were made since a world, with nothing attached to them. -/
structure Quiet (w₀ : World) (s : Scene) (w : World) : Prop where
  grounded : s.Grounded w
  /-- Only nodes have views. -/
  nodes : ∀ name id, s.bound? name = some id → name ∈ s.nodeNames ∧ s.isRootName name = false
  /-- Each name has a view of its own. -/
  apart : ∀ a b id, s.bound? a = some id → s.bound? b = some id → a = b
  /-- The views are new. -/
  fresh : ∀ name id, s.bound? name = some id → ¬ w₀.store.Has id
  /-- Nothing is attached to them. -/
  bare : ∀ name id, s.bound? name = some id → w.store.subviews id = []
  /-- What is attached anywhere is old. -/
  old : ∀ id child, child ∈ w.store.subviews id → w₀.store.Has child

theorem Quiet.of_subviews {w₀ w w' : World} {s : Scene} (h : s.Quiet w₀ w)
    (hsize : w.store.size ≤ w'.store.size)
    (hsub : ∀ id, w'.store.subviews id = w.store.subviews id) : s.Quiet w₀ w' where
  grounded := fun name id hid => (h.grounded name id hid).mono hsize
  nodes := h.nodes
  apart := h.apart
  fresh := h.fresh
  bare := fun name id hid => (hsub id).trans (h.bare name id hid)
  old := fun id child hchild => h.old id child (hsub id ▸ hchild)

theorem Quiet.of_sameTree {w₀ w w' : World} {s : Scene} (h : s.Quiet w₀ w) (hsame : SameTree w w') :
    s.Quiet w₀ w' :=
  h.of_subviews (Nat.le_of_eq hsame.1.symm) hsame.2

theorem subviews_of_blankFor {s : Scene} (hmakes : s.definition.catalogue.MakesBare) {name : String}
    {v : View} (hv : s.blankFor name = some v) : v.subviews = [] := by
  unfold blankFor at hv
  split at hv
  · exact hmakes _ v hv
  · cases hv

theorem quiet_of_load {d : Definition} {root : String} {data : DataBindings} {w₀ w : World}
    {s : Scene} (hmakes : d.catalogue.MakesBare) (hkeeps : d.catalogue.KeepsSubviews)
    (hclosed : w₀.store.Closed) (hload : load d root data [] w₀ = (.ok s, w)) : s.Quiet w₀ w := by
  obtain ⟨hierarchy, w₁, -, hbuilds, happly⟩ :=
    exists_builds_of_load (List.forall_mem_nil _) hload
  have hblank : ∀ name v, s.blankFor name = some v → v.subviews = [] :=
    fun name v hv => subviews_of_blankFor (hbuilds.definition_eq ▸ hmakes) hv
  have hbuilt : s.Quiet w₀ w₁ := by
    refine ⟨hbuilds.grounded (grounded_bare (List.forall_mem_nil _) d root hierarchy data), ?_, ?_,
      ?_, ?_, ?_⟩
    · intro name id hid
      obtain ⟨hroot, hmem, -, -⟩ := hbuilds.made_of_bare hid
      exact ⟨hmem, hroot⟩
    · intro a b id ha hb
      exact hbuilds.apart a b id ha hb (hbuilds.made_of_bare ha).2.2.1
    · exact fun name id hid => (hbuilds.made_of_bare hid).2.2.1
    · intro name id hid
      obtain ⟨-, -, -, v, hv, hget⟩ := hbuilds.made_of_bare hid
      rw [ViewStore.subviews_of_get? hget]
      exact hblank name v hv
    · -- new views have nothing attached, so what is attached is attached to an old one
      intro id child hchild
      by_cases hid : w₀.store.Has id
      · rw [ViewStore.subviews_congr (hbuilds.old id hid)] at hchild
        exact hclosed id child hchild
      · rw [ViewStore.subviews] at hchild
        split at hchild
        · rename_i v hget
          obtain ⟨name, hname⟩ := hbuilds.blanks id v hget hid
          rw [← blankFor_congr hbuilds.definition_eq] at hname
          rw [hblank name v hname] at hchild
          cases hchild
        · cases hchild
  have hsame := sameTree_applyEach (s := s) (hbuilds.definition_eq ▸ hkeeps) .construction
    s.configured w₁
  rw [← applyAll, happly] at hsame
  exact hbuilt.of_sameTree hsame

end Scene

/-- A scene stays quiet until it is attached. -/
theorem Session.quiet {w₀ : World} {start m : Moment} {past : List Record}
    (h : Session start past m) (hquiet : start.scene.Quiet w₀ start.world)
    (hkeeps : start.scene.definition.catalogue.KeepsSubviews)
    (hnone : ∀ r ∈ past, r.call.isAttach = false) : m.scene.Quiet w₀ m.world := by
  induction h with
  | start => exact hquiet
  | call hearlier c allowed ih =>
    rename_i before m
    have hm := ih fun r hr => hnone r (List.mem_append_left _ hr)
    cases c with
    | create v =>
      refine hm.of_subviews ((Call.create v).size_le_run m) fun id => ?_
      exact ViewStore.subviews_add allowed id
    | attach container =>
      have hlast := hnone _ (List.mem_append_right _ (List.mem_singleton_self _))
      cases hlast
    | update change =>
      have hdefinition :
          (m.scene.withData (change m.scene.data)).definition.catalogue.KeepsSubviews := by
        show m.scene.definition.catalogue.KeepsSubviews
        rw [hearlier.steady.definition]
        exact hkeeps
      have hdata : (m.scene.withData (change m.scene.data)).Quiet w₀ m.world :=
        ⟨hm.grounded, hm.nodes, hm.apart, hm.fresh, hm.bare, hm.old⟩
      have hsame := Scene.sameTree_reapply hdefinition
        (m.scene.data.changedKeys (change m.scene.data)) m.scene.configured m.world
      rw [Call.scene_run_update]
      rcases m.scene.update_cases change m.world with
        ⟨-, heq⟩ | ⟨w₁, hreapply, heq⟩ | ⟨e, w₁, events, hreapply, heq⟩
      · rw [Call.run, heq]
        exact hdata
      · rw [hreapply] at hsame
        rw [Call.run, heq]
        exact hdata.of_sameTree hsame
      · rw [hreapply] at hsame
        rw [Call.run, heq]
        exact hdata.of_sameTree hsame

namespace Scene

/-! ## The first attach call -/

theorem sameTree_configureRoot {s : Scene} (hkeeps : s.definition.catalogue.KeepsSubviews)
    (w : World) : SameTree w (s.configureRoot w).2 :=
  configureRoot_rel runs_sameTree (fun d id _ => sameTree_applyKey hkeeps .construction d id) w

section
variable {s : Scene} {w₀ w : World} {container : ViewId}

theorem viewOf_withContainer_zero : (s.withContainer container).viewOf 0 = some container := by
  show (s.withContainer container).bound? rootName = some container
  rw [bound?_withContainer, isRootName]
  simp

theorem viewOf_withContainer (hroots : ∀ name ∈ s.hierarchy.names, s.isRootName name = false)
    {node : Nat} (hnode : node ∈ s.hierarchy.breadthFirst) :
    (s.withContainer container).viewOf node = s.viewOf node := by
  have hname := hroots _ (Hierarchy.nameOf_mem_names hnode)
  show (s.withContainer container).bound? (s.hierarchy.nameOf node) = _
  rw [bound?_withContainer, hname]
  rfl

/-- A quiet scene that gets a container of its own can be wired. -/
theorem Quiet.unwired (h : s.Quiet w₀ w) (hdistinct : s.hierarchy.names.Nodup)
    (hroots : ∀ name ∈ s.hierarchy.names, s.isRootName name = false)
    (hthere : w.store.Has container) (hbare : w.store.subviews container = [])
    (hown : ∀ name, s.bound? name ≠ some container) : (s.withContainer container).Unwired w where
  distinct := hdistinct
  root := fun node hnode id hid hcontainer => by
    rw [viewOf_withContainer hroots hnode] at hid
    have hzero : (s.withContainer container).viewOf 0 = some container := viewOf_withContainer_zero
    rw [show (s.withContainer container).viewOf 0 = some id from hcontainer,
      Option.some.injEq] at hzero
    exact hown _ (hzero ▸ hid)
  apart := fun a ha b hb id hida hidb => by
    rw [viewOf_withContainer hroots ha] at hida
    rw [viewOf_withContainer hroots hb] at hidb
    exact Hierarchy.nameOf_inj hdistinct ha hb (h.apart _ _ id hida hidb)
  grounded := grounded_withContainer h.grounded hthere
  bare := fun node hnode id hid => by
    rcases hnode with rfl | hnode
    · rw [viewOf_withContainer_zero, Option.some.injEq] at hid
      exact hid ▸ hbare
    · rw [viewOf_withContainer hroots hnode] at hid
      exact h.bare _ id hid

end

/-- What a first attach call comes to if the setters leave the tree alone: the wired tree. -/
theorem exists_wired_of_attach {s s' : Scene} {w w' : World} {container : ViewId}
    (hkeeps : s.definition.catalogue.KeepsSubviews) (hfree : s.bound? rootName = none)
    (hok : s.attach container w = (.ok (), s', w')) :
    s' = { s.withContainer container with state := .attached } ∧
      ∃ w₁, SameTree w w₁ ∧ SameTree ((s.withContainer container).wire w₁) w' := by
  rcases s.attach_cases container w with ⟨w₂, hsettle, heq⟩ | ⟨e, w₂, events, -, heq⟩
  · rw [hok, Prod.mk.injEq, Prod.mk.injEq] at heq
    obtain ⟨-, rfl, rfl⟩ := heq
    rw [hfree] at hsettle
    refine ⟨by rw [hfree]; rfl, ?_⟩
    have hroot := sameTree_configureRoot (s := s.withContainer container) hkeeps w
    rw [settle] at hsettle
    split at hsettle
    · cases hsettle
    · rename_i w₁ hconfigured
      rw [hconfigured] at hroot
      have hall := sameTree_applyEach (s := s.withContainer container) hkeeps .attached
        (s.withContainer container).configured ((s.withContainer container).wire w₁)
      rw [← applyAll] at hall
      rw [Option.isNone_none, if_pos rfl] at hsettle
      rw [hsettle] at hall
      exact ⟨w₁, hroot, hall⟩
  · rw [hok] at heq
    cases heq

theorem Quiet.bound?_rootName {s : Scene} {w₀ w : World} (h : s.Quiet w₀ w) :
    s.bound? rootName = none := by
  rw [Option.eq_none_iff_forall_ne_some]
  intro id hid
  have hname := (h.nodes rootName id hid).2
  simp [isRootName] at hname

/-- A quiet scene hangs together as its hierarchy says once it is attached. -/
theorem Quiet.subviews_attach {s s' : Scene} {w₀ w w' : World} {container : ViewId}
    (h : s.Quiet w₀ w) (hkeeps : s.definition.catalogue.KeepsSubviews)
    (hwellFormed : s.hierarchy.WellFormed) (hdistinct : s.hierarchy.names.Nodup)
    (hroots : ∀ name ∈ s.hierarchy.names, s.isRootName name = false)
    (hthere : w.store.Has container) (hbare : w.store.subviews container = [])
    (hown : ∀ name, s.bound? name ≠ some container)
    (hok : s.attach container w = (.ok (), s', w')) :
    (∀ node, node < s'.hierarchy.size → ∀ id, s'.viewOf node = some id →
      w'.store.subviews id = s'.childViews node ∧ (s'.childViews node).Nodup) ∧
    (s'.viewOf 0 = some container ∧ w'.store.subviews container = s'.childViews 0) ∧
    ∀ node p, s'.hierarchy.parent? node = some p → s'.viewOf p = none →
      ∀ id, s'.viewOf node = some id → ∀ other, id ∉ w'.store.subviews other := by
  obtain ⟨rfl, w₁, hbefore, hafter⟩ := exists_wired_of_attach hkeeps h.bound?_rootName hok
  have hunwired := (h.of_sameTree hbefore).unwired hdistinct hroots
    (hthere.mono (Nat.le_of_eq hbefore.1.symm)) ((hbefore.2 container).trans hbare) hown
  have hwired := hunwired.wired
  have hinside : ∀ node, s.hierarchy.IsVisited node → ∀ id,
      (s.withContainer container).viewOf node = some id →
      w'.store.subviews id = (s.withContainer container).childViews node := by
    intro node hnode id hid
    rw [hafter.2, hwired.inside node hnode id hid]
    exact hung_breadthFirst hnode
  refine ⟨fun node hnode id hid => ?_, ?_, fun node p hp hnone id hid other hmem => ?_⟩
  · have hvisited := hwellFormed.isVisited hnode
    exact ⟨hinside node hvisited id hid, hunwired.nodup_childViews hvisited⟩
  · exact ⟨viewOf_withContainer_zero,
      hinside 0 (Or.inl rfl) container viewOf_withContainer_zero⟩
  · have hnode : node ∈ s.hierarchy.breadthFirst := by
      rcases hwellFormed.isVisited (Hierarchy.lt_size_of_parent? hp) with rfl | hnode
      · cases hp
      · exact hnode
    rw [hafter.2] at hmem
    refine hwired.not_mem_subviews hunwired hnode hp hnone hid (fun other hmem => ?_) other hmem
    -- what is in a list before the first attach call is older than the load
    rw [hbefore.2] at hmem
    have hview : s.viewOf node = some id := by
      rw [← viewOf_withContainer hroots hnode]
      exact hid
    exact h.fresh _ id hview (h.old other id hmem)

theorem wellFormed_of_load {d : Definition} {root : String} {data : DataBindings} {w w' : World}
    {s : Scene} (hdoc : d.document.Reachable) (hload : load d root data [] w = (.ok s, w')) :
    s.hierarchy.WellFormed := by
  obtain ⟨hierarchy, w₁, hfound, hbuilds, -⟩ :=
    exists_builds_of_load (List.forall_mem_nil _) hload
  rw [show s.hierarchy = hierarchy from hbuilds.hierarchy_eq]
  exact hdoc.wellFormed hfound

/-- **After the first attach call, the views hang together as the hierarchy says.**  The container
    is any view of the host's that has nothing attached and is none of the scene's. -/
theorem subviews_attach_first {d : Definition} {root : String} {data : DataBindings}
    {w₀ w₁ : World} {s s' : Scene} {past : List Record} {m : Moment} {container : ViewId}
    {w' : World} (hdoc : d.document.Reachable) (hmakes : d.catalogue.MakesBare)
    (hkeeps : d.catalogue.KeepsSubviews) (hclosed : w₀.store.Closed)
    (hload : load d root data [] w₀ = (.ok s, w₁)) (hdistinct : s.hierarchy.names.Nodup)
    (hroots : ∀ name ∈ s.hierarchy.names, s.isRootName name = false)
    (hsession : Session ⟨s, w₁⟩ past m) (hnone : ∀ r ∈ past, r.call.isAttach = false)
    (hthere : m.world.store.Has container) (hbare : m.world.store.subviews container = [])
    (hown : ∀ name, m.scene.bound? name ≠ some container)
    (hok : m.scene.attach container m.world = (.ok (), s', w')) :
    (∀ node, node < s'.hierarchy.size → ∀ id, s'.viewOf node = some id →
      w'.store.subviews id = s'.childViews node ∧ (s'.childViews node).Nodup) ∧
    (s'.viewOf 0 = some container ∧ w'.store.subviews container = s'.childViews 0) ∧
    ∀ node p, s'.hierarchy.parent? node = some p → s'.viewOf p = none →
      ∀ id, s'.viewOf node = some id → ∀ other, id ∉ w'.store.subviews other := by
  have hdefinition : s.definition = d := (loaded_of_load (List.forall_mem_nil _) hload).definition
  have hwellFormed := wellFormed_of_load hdoc hload
  have hloaded := quiet_of_load hmakes hkeeps hclosed hload
  rw [← hdefinition] at hkeeps
  have hquiet : m.scene.Quiet w₀ m.world := hsession.quiet hloaded hkeeps hnone
  -- the calls before have changed neither the definition nor the hierarchy
  have hsteady := hsession.steady
  rw [← hsteady.definition] at hkeeps
  rw [← hsteady.hierarchy] at hwellFormed hdistinct hroots
  exact hquiet.subviews_attach hkeeps hwellFormed hdistinct
    (fun name hname => (hsteady.isRootName name).trans (hroots name hname)) hthere hbare hown hok

end Scene

/-! ## A tree with a refused node -/

/-- A node of an abstract class, between two others.  Its child is built all the same. -/
def branching : Definition where
  document := (parseInto (.empty "sheet")
    ("Main:\n  Left\n    Deep\n  Refused\n    Orphan\n  Right\n"
      ++ "Refused:\n  .class = Control\n")).document
  catalogue := .stock
  listener := none

/-- Loads the sheet. -/
def loadBranching : Except Error Scene × World := Scene.load branching "Main" .empty [] .empty

theorem isSome_loadBranching : (Moment.ofLoad? loadBranching).isSome = true := by
  decide +kernel

/-- The moment after the load. -/
def loadedBranching : Moment := Option.get _ isSome_loadBranching

theorem loadBranching_eq : loadBranching = (.ok loadedBranching.scene, loadedBranching.world) :=
  Moment.eq_of_ofLoad? (Option.some_get isSome_loadBranching).symm

/-- The moment after the host has made a container. -/
def hostedBranching : Moment := ((Call.create (.stock (.container {}))).run loadedBranching).2

/-- What comes of attaching the scene to the container. -/
def attachedBranching : Except Error Unit × Scene × World :=
  hostedBranching.scene.attach ⟨4⟩ hostedBranching.world

theorem branching_computed : loadedBranching.scene.hierarchy.names.Nodup ∧
    (∀ name ∈ loadedBranching.scene.hierarchy.names,
      loadedBranching.scene.isRootName name = false) ∧
    loadedBranching.world.store.size = 4 ∧
    hostedBranching.world.store.subviews ⟨4⟩ = [] ∧ attachedBranching.1.isOk = true := by
  decide +kernel

/-- The nodes are `Left`, `Deep`, `Refused`, `Orphan` and `Right`, from 1 on. -/
theorem attachedBranching_computed :
    (["Left", "Deep", "Refused", "Orphan", "Right"].map attachedBranching.2.1.bound?) =
      [some ⟨0⟩, some ⟨2⟩, none, some ⟨3⟩, some ⟨1⟩] ∧
    ([1, 2, 3, 4, 5].map attachedBranching.2.1.viewOf) =
      [some ⟨0⟩, some ⟨2⟩, none, some ⟨3⟩, some ⟨1⟩] ∧
    ([0, 1, 2, 5].map attachedBranching.2.1.childViews) = [[⟨0⟩, ⟨1⟩], [⟨2⟩], [], []] ∧
    attachedBranching.2.1.hierarchy.parent? 4 = some 3 ∧
    attachedBranching.2.1.hierarchy.size = 6 := by
  decide +kernel

/-- The container holds `Left` and `Right`, `Left` holds `Deep`, and `Orphan` is in no list. -/
theorem subviews_attach_first_branching : ∃ s' w',
    hostedBranching.scene.attach ⟨4⟩ hostedBranching.world = (.ok (), s', w') ∧
    (["Left", "Deep", "Refused", "Orphan", "Right"].map s'.bound?) =
      [some ⟨0⟩, some ⟨2⟩, none, some ⟨3⟩, some ⟨1⟩] ∧
    w'.store.subviews ⟨4⟩ = [⟨0⟩, ⟨1⟩] ∧ w'.store.subviews ⟨0⟩ = [⟨2⟩] ∧
    w'.store.subviews ⟨1⟩ = [] ∧ w'.store.subviews ⟨2⟩ = [] ∧
    ∀ other, ⟨3⟩ ∉ w'.store.subviews other := by
  obtain ⟨hdistinct, hroots, hsize, hbare, hok⟩ := branching_computed
  obtain ⟨hbound, hviews, hlists, hparent, hnodes⟩ := attachedBranching_computed
  have hattach : attachedBranching = (.ok (), attachedBranching.2.1, attachedBranching.2.2) :=
    Prod.ext (eq_ok_of_isOk hok) rfl
  have hgrounded := (Scene.loaded_of_load (List.forall_mem_nil _) loadBranching_eq).grounded
  have hsession : Session loadedBranching
      [(Call.create (.stock (.container {}))).record loadedBranching] hostedBranching :=
    .call .start (.create (.stock (.container {}))) rfl
  have hthere : hostedBranching.world.store.Has ⟨4⟩ := by
    show 4 < (loadedBranching.world.addView (.stock (.container {}))).store.size
    rw [World.store_addView, ViewStore.size_add, hsize]
    omega
  have hown : ∀ name, hostedBranching.scene.bound? name ≠ some ⟨4⟩ := by
    intro name hid
    have hold : 4 < loadedBranching.world.store.size := hgrounded name ⟨4⟩ hid
    omega
  have hnone : ∀ r ∈ [(Call.create (.stock (.container {}))).record loadedBranching],
      r.call.isAttach = false := by
    intro r hr
    rw [List.mem_singleton] at hr
    rw [hr]
    rfl
  obtain ⟨hchildren, ⟨-, htop⟩, horphans⟩ :=
    Scene.subviews_attach_first (.parse (.empty "sheet") _) Catalogue.makesBare_stock
      Catalogue.keepsSubviews_stock ViewStore.closed_empty loadBranching_eq hdistinct hroots
      hsession hnone hthere hbare hown hattach
  simp only [List.map_cons, List.map_nil, List.cons.injEq, and_true] at hviews hlists
  obtain ⟨hleft, hdeep, hrefused, horphan, hright⟩ := hviews
  obtain ⟨hunder, hunderLeft, hunderDeep, hunderRight⟩ := hlists
  refine ⟨_, _, hattach, hbound, htop.trans hunder, ?_, ?_, ?_,
    horphans 4 3 hparent hrefused ⟨3⟩ horphan⟩
  · rw [(hchildren 1 (by omega) ⟨0⟩ hleft).1, hunderLeft]
  · rw [(hchildren 5 (by omega) ⟨1⟩ hright).1, hunderRight]
  · rw [(hchildren 2 (by omega) ⟨2⟩ hdeep).1, hunderDeep]

end ViewSheet
