/-
  Hanging: what comes to all lists of attached views when something happens to one scene.

  1. **Most of it changes no list**: loading, configuring and updating add views with nothing
     attached at most (`Grown`), if the catalogue makes bare views and its setters leave the lists
     alone.  An attach call changes none either, unless it is the first one and comes to wire the
     tree (`sameTree_or_wired_attach`).

  2. **One node**: `wireNode_attaches` says once what wiring a node can do to the lists: nothing, or
     one more attachment, of a view that is not the container and does not hold its new parent.

  3. **Whole runs**: so wiring any nodes keeps a store closed and acyclic, and a view is attached
     once more at most if no two nodes hang it (`count_wireNodes_le`).
-/
import ViewSheet.Proofs.Descent
import ViewSheet.Proofs.Tree

namespace ViewSheet

/-! ## Lists that stay as they are -/

/-- Views may have been added, with nothing attached, and no list has changed. -/
structure Grown (a b : World) : Prop where
  size : a.store.size ≤ b.store.size
  subviews : ∀ id, b.store.subviews id = a.store.subviews id

namespace Grown

variable {a b c : World}

theorem refl (w : World) : Grown w w := ⟨Nat.le_refl _, fun _ => rfl⟩

theorem trans (h : Grown a b) (k : Grown b c) : Grown a c :=
  ⟨Nat.le_trans h.size k.size, fun id => (k.subviews id).trans (h.subviews id)⟩

theorem has (h : Grown a b) {id : ViewId} (hid : a.store.Has id) : b.store.Has id :=
  hid.mono h.size

theorem closed (h : Grown a b) (hclosed : a.store.Closed) : b.store.Closed := by
  intro id child hchild
  rw [h.subviews] at hchild
  exact h.has (hclosed id child hchild)

theorem acyclic (h : Grown a b) (hacyclic : a.store.Acyclic) : b.store.Acyclic :=
  hacyclic.of_subviews h.subviews

theorem attachments (h : Grown a b) : b.store.attachments = a.store.attachments :=
  ViewStore.attachments_congr h.size h.subviews

end Grown

theorem grown_addView {v : View} (hv : v.subviews = []) (w : World) : Grown w (w.addView v) where
  size := by
    rw [World.store_addView, ViewStore.size_add]
    omega
  subviews := ViewStore.subviews_add hv

/-- A view that the host changes keeps its list if its new state has the same. -/
theorem grown_setView {w : World} {id : ViewId} {v : View}
    (hv : v.subviews = w.store.subviews id) : Grown w (w.setView id v) := by
  refine ⟨Nat.le_of_eq (ViewStore.size_set w.store id v).symm, fun other => ?_⟩
  show (w.store.set id v).subviews other = w.store.subviews other
  by_cases hother : other = id
  · subst hother
    cases hold : w.store.get? other with
    | some old => rw [ViewStore.subviews_of_get? (ViewStore.get?_set_self hold v), hv]
    | none =>
      -- a view that is not there cannot be changed
      have hnot : ¬ (w.store.set other v).Has other := by
        rw [ViewStore.Has, ViewStore.size_set]
        intro hthere
        obtain ⟨old, hget⟩ := ViewStore.has_iff.mp hthere
        rw [hold] at hget
        cases hget
      have hnone : (w.store.set other v).get? other = none :=
        Option.eq_none_iff_forall_ne_some.mpr fun u hu => hnot (ViewStore.has_iff.mpr ⟨u, hu⟩)
      exact ViewStore.subviews_congr (hnone.trans hold.symm)
  · exact ViewStore.subviews_congr (ViewStore.get?_set_of_ne _ v hother)

namespace Scene

variable {s : Scene} {w : World}

theorem SameTree.grown {a b : World} (h : SameTree a b) : Grown a b :=
  ⟨Nat.le_of_eq h.1.symm, h.2⟩

/-! ## Loading and updating -/

/-- Building adds views with nothing attached. -/
theorem Builds.grown_of_makesBare {names : List String} {s' : Scene} {w' : World}
    (h : Builds names s w s' w') (hmakes : s.definition.catalogue.MakesBare) : Grown w w' := by
  refine ⟨h.grown, fun id => ?_⟩
  by_cases hthere : w.store.Has id
  · exact ViewStore.subviews_congr (h.old id hthere)
  · have hbefore : w.store.subviews id = [] := by
      rw [List.eq_nil_iff_forall_not_mem]
      exact fun child hbears => hthere (ViewStore.Bears.has hbears)
    rw [hbefore]
    cases hget : w'.store.get? id with
    | none => rw [ViewStore.subviews, hget]
    | some v =>
      obtain ⟨name, hname⟩ := h.blanks id v hget hthere
      rw [ViewStore.subviews_of_get? hget]
      exact subviews_of_blankFor hmakes hname

/-- A load changes no list, whether it succeeds or not. -/
theorem grown_load {d : Definition} (hmakes : d.catalogue.MakesBare)
    (hkeeps : d.catalogue.KeepsSubviews) (root : String) (data : DataBindings)
    {views : List (String × ViewId)} (hviews : ∀ p ∈ views, w.store.Has p.2) :
    Grown w (load d root data views w).2 := by
  cases hfound : (d.document.get? root).bind (·.hierarchy) with
  | none =>
    rw [load, hfound]
    exact .refl w
  | some hierarchy =>
    rcases hbuilt : buildNames (bare d root hierarchy data views).nodeNames
      (bare d root hierarchy data views) w with ⟨t, w₁⟩
    have hbuilds := builds_of_buildNames hviews hbuilt
    have hbuild : Grown w w₁ := hbuilds.grown_of_makesBare hmakes
    have hpass : Grown w₁ (t.applyAll .construction w₁).2 :=
      (sameTree_applyEach (hbuilds.definition_eq ▸ hkeeps) .construction t.configured w₁).grown
    rw [load_eq hfound data views w hbuilt]
    split
    · rename_i happly
      rw [happly] at hpass
      exact hbuild.trans hpass
    · rename_i happly
      rw [happly] at hpass
      exact hbuild.trans hpass

theorem sameTree_update (hkeeps : s.definition.catalogue.KeepsSubviews)
    (change : DataBindings → DataBindings) (w : World) : SameTree w (s.update change w).2.2 := by
  have hsame := sameTree_reapply (s := s.withData (change s.data)) hkeeps
    (s.data.changedKeys (change s.data)) s.configured w
  rcases s.update_cases change w with
    ⟨-, heq⟩ | ⟨w₁, hreapply, heq⟩ | ⟨e, w₁, events, hreapply, heq⟩
  · rw [heq]
    exact runs_sameTree.refl w
  · rw [heq]
    rw [hreapply] at hsame
    exact hsame
  · rw [heq]
    rw [hreapply] at hsame
    exact hsame

/-! ## Attaching -/

theorem sameTree_or_wired_settle (hkeeps : s.definition.catalogue.KeepsSubviews) (first : Bool)
    (w : World) : SameTree w (s.settle first w).2 ∨
      (first = true ∧ ∃ w₁, SameTree w w₁ ∧ SameTree (s.wire w₁) (s.settle first w).2) := by
  have hroot := sameTree_configureRoot hkeeps w
  unfold settle
  split
  · rename_i hconfigured
    rw [hconfigured] at hroot
    exact Or.inl hroot
  · rename_i w₁ hconfigured
    rw [hconfigured] at hroot
    cases first with
    | false => exact Or.inl hroot
    | true =>
      exact Or.inr ⟨rfl, w₁, hroot,
        sameTree_applyEach hkeeps .attached s.configured (s.wire w₁)⟩

/-- **An attach call changes no list, or it is the first one and wires the tree.** -/
theorem sameTree_or_wired_attach (hkeeps : s.definition.catalogue.KeepsSubviews)
    (container : ViewId) (w : World) : SameTree w (s.attach container w).2.2 ∨
      (s.bound? rootName = none ∧ ∃ w₁, SameTree w w₁ ∧
        SameTree ((s.withContainer container).wire w₁) (s.attach container w).2.2) := by
  have hsettle := sameTree_or_wired_settle (s := s.withContainer container) hkeeps
    (s.bound? rootName).isNone w
  rcases s.attach_cases container w with ⟨w₂, h, heq⟩ | ⟨e, w₂, events, h, heq⟩
  · rw [heq]
    rw [h, Option.isNone_iff_eq_none] at hsettle
    exact hsettle
  · rw [heq]
    rw [h, Option.isNone_iff_eq_none] at hsettle
    exact hsettle

/-! ## One node -/

theorem link?_eq_some_iff {node : Nat} {parent child : ViewId} :
    s.link? node = some (parent, child) ↔ ∃ p, s.hierarchy.parent? node = some p ∧
      s.hierarchy.find? (s.hierarchy.nameOf node) = some node ∧
      s.viewOf p = some parent ∧ s.viewOf node = some child := by
  unfold link?
  cases s.hierarchy.parent? node with
  | none => simp
  | some p =>
    dsimp only
    split
    · rename_i hlast
      cases hparent : s.viewOf p <;> cases s.viewOf node <;> simp [hlast, hparent]
    · rename_i hlast
      simp [hlast]

/-- The node hangs the view from another, if nothing stands in the way.  The container is hung
    nowhere. -/
def Hangs (s : Scene) (node : Nat) (parent child : ViewId) : Prop :=
  s.link? node = some (parent, child) ∧ s.bound? rootName ≠ some child

theorem Hangs.parent_has (hs : s.Grounded w) {node : Nat} {parent child : ViewId}
    (h : s.Hangs node parent child) : w.store.Has parent := by
  obtain ⟨p, -, -, hparent, -⟩ := link?_eq_some_iff.mp h.1
  exact hs _ _ hparent

theorem Hangs.child_has (hs : s.Grounded w) {node : Nat} {parent child : ViewId}
    (h : s.Hangs node parent child) : w.store.Has child := by
  obtain ⟨p, -, -, -, hchild⟩ := link?_eq_some_iff.mp h.1
  exact hs _ _ hchild

/-- **All that wiring a node can do to the lists.** -/
theorem wireNode_attaches (s : Scene) (node : Nat) (w : World) :
    (s.wireNode node w).store = w.store ∨
      ∃ parent child, s.Hangs node parent child ∧ w.store.holds child parent = false ∧
        (s.wireNode node w).store = w.store.attach parent child := by
  rcases s.wireNode_cases node w with
    ⟨-, h⟩ | ⟨parent, child, hlink, ⟨-, hstore, -⟩ | ⟨hfree, h⟩⟩
  · exact Or.inl (by rw [h])
  · exact Or.inl hstore
  · rw [Barred, not_or, Bool.not_eq_true] at hfree
    exact Or.inr ⟨parent, child, ⟨hlink, hfree.1⟩, hfree.2, by rw [h]⟩

/-- What is in a list after a node was there before, or is what the node hangs. -/
theorem bears_wireNode (hs : s.Grounded w) {node : Nat} {a b : ViewId}
    (h : (s.wireNode node w).store.Bears a b) : w.store.Bears a b ∨ s.Hangs node a b := by
  rcases s.wireNode_attaches node w with hsame | ⟨parent, child, hhangs, -, heq⟩
  · rw [hsame] at h
    exact Or.inl h
  · rw [heq, ViewStore.bears_attach (hhangs.parent_has hs)] at h
    rcases h with hold | ⟨rfl, rfl⟩
    · exact Or.inl hold
    · exact Or.inr hhangs

theorem acyclic_wireNode (hs : s.Grounded w) (h : w.store.Acyclic) (node : Nat) :
    (s.wireNode node w).store.Acyclic := by
  rcases s.wireNode_attaches node w with hsame | ⟨parent, child, hhangs, hfree, heq⟩
  · rw [hsame]
    exact h
  · -- in an acyclic store, the search for the parent below the child is exact
    have hspans : ¬ w.store.Spans child parent := by
      rw [← ViewStore.holds_iff_spans h, hfree]
      exact Bool.false_ne_true
    rw [heq]
    exact h.attach (hhangs.parent_has hs) hspans

/-- A view that the node does not hang is attached as often as before. -/
theorem count_wireNode (hs : s.Grounded w) {node : Nat} {id : ViewId}
    (hnot : ∀ parent, ¬ s.Hangs node parent id) :
    (s.wireNode node w).store.attachments.count id = w.store.attachments.count id := by
  rcases s.wireNode_attaches node w with hsame | ⟨parent, child, hhangs, -, heq⟩
  · rw [hsame]
  · have hne : child ≠ id := by
      rintro rfl
      exact hnot parent hhangs
    rw [heq, ViewStore.count_attachments_attach (hhangs.parent_has hs), if_neg hne, Nat.add_zero]

theorem count_wireNode_le (hs : s.Grounded w) (node : Nat) (id : ViewId) :
    (s.wireNode node w).store.attachments.count id ≤ w.store.attachments.count id + 1 := by
  rcases s.wireNode_attaches node w with hsame | ⟨parent, child, hhangs, -, heq⟩
  · rw [hsame]
    omega
  · rw [heq, ViewStore.count_attachments_attach (hhangs.parent_has hs)]
    split <;> omega

/-! ## All nodes -/

theorem grounded_wireNode (hs : s.Grounded w) (node : Nat) : s.Grounded (s.wireNode node w) :=
  hs.of_size (s.retold_wireNode node w).2.size

theorem bears_wireNodes (hs : s.Grounded w) {nodes : List Nat} {a b : ViewId}
    (h : (s.wireNodes nodes w).store.Bears a b) :
    w.store.Bears a b ∨ ∃ node ∈ nodes, s.Hangs node a b := by
  induction nodes generalizing w with
  | nil => exact Or.inl h
  | cons node rest ih =>
    rcases ih (grounded_wireNode hs node) h with hbefore | ⟨later, hlater, hhangs⟩
    · rcases bears_wireNode hs hbefore with hold | hhangs
      · exact Or.inl hold
      · exact Or.inr ⟨node, List.mem_cons_self, hhangs⟩
    · exact Or.inr ⟨later, List.mem_cons_of_mem node hlater, hhangs⟩

/-- **Wiring keeps a store acyclic**, also if it stops on the way. -/
theorem acyclic_wireNodes (hs : s.Grounded w) (h : w.store.Acyclic) (nodes : List Nat) :
    (s.wireNodes nodes w).store.Acyclic := by
  induction nodes generalizing w with
  | nil => exact h
  | cons node rest ih => exact ih (grounded_wireNode hs node) (acyclic_wireNode hs h node)

theorem closed_wireNodes (hs : s.Grounded w) (h : w.store.Closed) (nodes : List Nat) :
    (s.wireNodes nodes w).store.Closed := by
  intro id child hbears
  have hgrown := (s.extends_wireNodes nodes w).size
  have hthere : w.store.Has child := by
    rcases bears_wireNodes hs hbears with hold | ⟨node, -, hhangs⟩
    · exact h id child hold
    · exact hhangs.child_has hs
  exact hthere.mono (Nat.le_of_eq hgrown.symm)

theorem count_wireNodes (hs : s.Grounded w) {nodes : List Nat} {id : ViewId}
    (hnot : ∀ node ∈ nodes, ∀ parent, ¬ s.Hangs node parent id) :
    (s.wireNodes nodes w).store.attachments.count id = w.store.attachments.count id := by
  induction nodes generalizing w with
  | nil => rfl
  | cons node rest ih =>
    have hrest := ih (grounded_wireNode hs node)
      fun later hlater => hnot later (List.mem_cons_of_mem node hlater)
    exact hrest.trans (count_wireNode hs (hnot node List.mem_cons_self))

/-- **A view that no two nodes hang is attached once more at most.** -/
theorem count_wireNodes_le (hs : s.Grounded w) {nodes : List Nat} (hnodup : nodes.Nodup)
    {id : ViewId} (honly : ∀ a b p q, s.Hangs a p id → s.Hangs b q id → a = b) :
    (s.wireNodes nodes w).store.attachments.count id ≤ w.store.attachments.count id + 1 := by
  induction nodes generalizing w with
  | nil => exact Nat.le_succ _
  | cons node rest ih =>
    obtain ⟨hfirst, hrest⟩ := List.nodup_cons.mp hnodup
    by_cases hhangs : ∃ parent, s.Hangs node parent id
    · -- this is the one node that hangs the view
      obtain ⟨parent, hparent⟩ := hhangs
      have hlater := count_wireNodes (grounded_wireNode hs node)
        fun later hlater p hp => hfirst (honly later node p parent hp hparent ▸ hlater)
      have hstep := count_wireNode_le hs node id
      rw [wireNodes, hlater]
      exact hstep
    · have hstep := count_wireNode hs fun parent hp => hhangs ⟨parent, hp⟩
      have hlater := ih (grounded_wireNode hs node) hrest
      rw [hstep] at hlater
      exact hlater

end Scene

end ViewSheet
