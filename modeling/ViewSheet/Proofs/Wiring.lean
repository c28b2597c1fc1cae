/-
  Wiring: how the views of a scene come to hang from one another.

  1. **One node**: `link?` names the two views that a node would link, its parent's and its own.
     `wireNode_cases` says once what can come of it.

  2. **Nothing is lost**: wiring takes no view out of a list, so a link once made stays, and so does
     whatever stood in the way of one (`linked_wire`).

  3. **The tree**: if no name is given twice, and nothing hangs from anything yet, then going level
     by level gives every view the views of its children in their order (`subviews_wire`).  The
     invariant: after some nodes, a view holds those of them that are its node's children.  A node
     comes before its children, so its own list is still empty when it is hung, and no cycle can be
     in the way.
-/
import ViewSheet.Proofs.LevelOrder
import ViewSheet.Proofs.Loading
import ViewSheet.Scene.Attach

namespace ViewSheet

namespace ViewStore

/-! ## Attaching one view to another -/

@[simp] theorem size_attach (s : ViewStore) (parent child : ViewId) :
    (s.attach parent child).size = s.size := by
  unfold attach
  split
  · exact size_set s parent _
  · rfl

theorem subviews_attach {s : ViewStore} {parent : ViewId} (hparent : s.Has parent)
    (child id : ViewId) : (s.attach parent child).subviews id =
      if id = parent then s.subviews parent ++ [child] else s.subviews id := by
  obtain ⟨v, hv⟩ := has_iff.mp hparent
  rw [attach, hv]
  show (s.set parent (v.addSubview child)).subviews id = _
  split
  · rename_i hid
    rw [hid, subviews_of_get? (get?_set_self hv _), subviews_of_get? hv, View.subviews_addSubview]
  · rename_i hid
    exact subviews_congr (get?_set_of_ne s _ hid)

theorem subset_subviews_attach (s : ViewStore) (parent child id : ViewId) :
    s.subviews id ⊆ (s.attach parent child).subviews id := by
  by_cases hparent : s.Has parent
  · rw [subviews_attach hparent]
    split
    · rename_i hid
      rw [hid]
      exact List.subset_append_left _ _
    · exact List.Subset.refl _
  · have hnone : s.get? parent = none := by
      rw [Option.eq_none_iff_forall_ne_some]
      exact fun v hv => hparent (has_iff.mpr ⟨v, hv⟩)
    rw [attach, hnone]
    exact List.Subset.refl _

/-- What a view holds it also holds where more is attached. -/
theorem reaches_mono {s t : ViewStore} (h : ∀ id, s.subviews id ⊆ t.subviews id) (target : ViewId)
    (levels : Nat) {view : ViewId} (hs : s.reaches target levels view = true) :
    t.reaches target levels view = true := by
  induction levels generalizing view with
  | zero => exact hs
  | succ n ih =>
    rw [reaches, Bool.or_eq_true, List.any_eq_true] at hs ⊢
    rcases hs with hhere | ⟨below, hbelow, hreach⟩
    · exact Or.inl hhere
    · exact Or.inr ⟨below, h view hbelow, ih hreach⟩

/-- A view with nothing attached holds itself and nothing else. -/
theorem holds_of_bare {s : ViewStore} {view target : ViewId} (h : s.subviews view = []) :
    s.holds view target = decide (view = target) := by
  unfold holds
  cases s.size with
  | zero => rfl
  | succ n => rw [reaches, h, List.any_nil, Bool.or_false]

/-- More is attached, and no view is added. -/
structure Extends (s t : ViewStore) : Prop where
  size : t.size = s.size
  subviews : ∀ id, s.subviews id ⊆ t.subviews id

namespace Extends

variable {s t u : ViewStore}

theorem refl (s : ViewStore) : Extends s s := ⟨rfl, fun _ => List.Subset.refl _⟩

theorem trans (h : Extends s t) (k : Extends t u) : Extends s u :=
  ⟨k.size.trans h.size, fun id => List.Subset.trans (h.subviews id) (k.subviews id)⟩

theorem holds (h : Extends s t) {view target : ViewId} (hs : s.holds view target = true) :
    t.holds view target = true := by
  rw [ViewStore.holds, h.size]
  exact reaches_mono h.subviews target s.size hs

end Extends

end ViewStore

namespace Scene

/-! ## One node -/

/-- The view of a node. -/
def viewOf (s : Scene) (node : Nat) : Option ViewId := s.bound? (s.hierarchy.nameOf node)

/-- The two views that a node links: its parent's, and its own. -/
def link? (s : Scene) (node : Nat) : Option (ViewId × ViewId) :=
  match s.hierarchy.parent? node with
  | none => none
  | some p =>
    if s.hierarchy.find? (s.hierarchy.nameOf node) = some node then
      match s.viewOf p, s.viewOf node with
      | some parent, some child => some (parent, child)
      | _, _ => none
    else none

/-- What stands in the way of a link: the child is the container, or holds its parent. -/
def Barred (s : Scene) (store : ViewStore) (parent child : ViewId) : Prop :=
  s.bound? rootName = some child ∨ store.holds child parent = true

/-- **All that can come of wiring one node.** -/
theorem wireNode_cases (s : Scene) (node : Nat) (w : World) :
    (s.link? node = none ∧ s.wireNode node w = w) ∨
      ∃ parent child, s.link? node = some (parent, child) ∧
        ((s.Barred w.store parent child ∧ Retold w (s.wireNode node w)) ∨
          (¬ s.Barred w.store parent child ∧
            s.wireNode node w = { w with store := w.store.attach parent child })) := by
  unfold wireNode link?
  cases hp : s.hierarchy.parent? node with
  | none => exact Or.inl ⟨rfl, rfl⟩
  | some p =>
    dsimp only
    by_cases hlast : s.hierarchy.find? (s.hierarchy.nameOf node) = some node
    · rw [if_pos hlast, if_neg (not_not_intro hlast)]
      unfold viewOf
      cases hparent : s.bound? (s.hierarchy.nameOf p) with
      | none => exact Or.inl ⟨rfl, rfl⟩
      | some parent =>
        cases hchild : s.bound? (s.hierarchy.nameOf node) with
        | none => exact Or.inl ⟨rfl, rfl⟩
        | some child =>
          refine Or.inr ⟨parent, child, rfl, ?_⟩
          dsimp only
          by_cases hbarred : s.bound? rootName = some child ∨ w.store.holds child parent = true
          · exact Or.inl ⟨hbarred, by rw [if_pos hbarred]; exact ⟨rfl, rfl⟩⟩
          · exact Or.inr ⟨hbarred, if_neg hbarred⟩
    · rw [if_neg hlast, if_pos hlast]
      exact Or.inl ⟨rfl, rfl⟩

/-! ## All nodes -/

theorem retold_wireNode (s : Scene) (node : Nat) (w : World) :
    (s.wireNode node w).executions = w.executions ∧
      w.store.Extends (s.wireNode node w).store := by
  rcases s.wireNode_cases node w with
    ⟨-, h⟩ | ⟨parent, child, -, ⟨-, hstore, hexec⟩ | ⟨-, h⟩⟩
  · rw [h]
    exact ⟨rfl, .refl _⟩
  · rw [hstore]
    exact ⟨hexec, .refl _⟩
  · rw [h]
    exact ⟨rfl, ViewStore.size_attach _ _ _, ViewStore.subset_subviews_attach _ _ _⟩

theorem executions_wireNodes (s : Scene) (nodes : List Nat) (w : World) :
    (s.wireNodes nodes w).executions = w.executions := by
  induction nodes generalizing w with
  | nil => rfl
  | cons node rest ih => exact (ih _).trans (s.retold_wireNode node w).1

theorem extends_wireNodes (s : Scene) (nodes : List Nat) (w : World) :
    w.store.Extends (s.wireNodes nodes w).store := by
  induction nodes generalizing w with
  | nil => exact .refl _
  | cons node rest ih => exact (s.retold_wireNode node w).2.trans (ih _)

/-- The two views of a link hang together, unless something stood in the way. -/
def Linked (s : Scene) (store : ViewStore) (parent child : ViewId) : Prop :=
  child ∈ store.subviews parent ∨ s.Barred store parent child

theorem Linked.mono {s : Scene} {store more : ViewStore} (h : store.Extends more)
    {parent child : ViewId} (hlinked : s.Linked store parent child) :
    s.Linked more parent child := by
  -- lists only grow, so a hold stays a hold
  rcases hlinked with hmem | hcontainer | hholds
  · exact Or.inl (h.subviews parent hmem)
  · exact Or.inr (Or.inl hcontainer)
  · exact Or.inr (Or.inr (h.holds hholds))

theorem linked_wireNode {s : Scene} {node : Nat} {w : World} (hs : s.Grounded w)
    {parent child : ViewId} (hlink : s.link? node = some (parent, child)) :
    s.Linked (s.wireNode node w).store parent child := by
  -- a view that hangs something is bound to a name, so it is there
  have hparent : w.store.Has parent := by
    unfold link? at hlink
    split at hlink
    · cases hlink
    · split at hlink
      · split at hlink
        · rename_i hp _
          rw [Option.some.injEq, Prod.mk.injEq] at hlink
          exact hs _ _ (hlink.1 ▸ hp)
        · cases hlink
      · cases hlink
  rcases s.wireNode_cases node w with
    ⟨hnone, -⟩ | ⟨p, c, hpc, ⟨hbarred, hstore, -⟩ | ⟨-, h⟩⟩
  · rw [hnone] at hlink
    cases hlink
  · rw [hlink, Option.some.injEq, Prod.mk.injEq] at hpc
    obtain ⟨rfl, rfl⟩ := hpc
    rw [hstore]
    exact Or.inr hbarred
  · rw [hlink, Option.some.injEq, Prod.mk.injEq] at hpc
    obtain ⟨rfl, rfl⟩ := hpc
    rw [h]
    refine Or.inl ?_
    show child ∈ (w.store.attach parent child).subviews parent
    rw [ViewStore.subviews_attach hparent, if_pos rfl]
    exact List.mem_append_right _ (List.mem_singleton_self child)

theorem linked_wireNodes {s : Scene} {nodes : List Nat} {w : World} (hs : s.Grounded w)
    {node : Nat} (hnode : node ∈ nodes) {parent child : ViewId}
    (hlink : s.link? node = some (parent, child)) :
    s.Linked (s.wireNodes nodes w).store parent child := by
  induction nodes generalizing w with
  | nil => cases hnode
  | cons first rest ih =>
    have hstep := (s.retold_wireNode first w).2
    rcases List.mem_cons.mp hnode with rfl | hrest
    · exact (linked_wireNode hs hlink).mono (s.extends_wireNodes rest _)
    · exact ih (hs.of_size hstep.size) hrest

/-- **Every link is made, unless something stands in its way.** -/
theorem linked_wire {s : Scene} {w : World} (hs : s.Grounded w) {node : Nat}
    (hnode : node ∈ s.hierarchy.breadthFirst) {parent child : ViewId}
    (hlink : s.link? node = some (parent, child)) :
    s.Linked (s.wire w).store parent child :=
  linked_wireNodes hs hnode hlink

/-! ## The tree -/

/-- The views of a node's children among some nodes. -/
def hung (s : Scene) (nodes : List Nat) (node : Nat) : List ViewId :=
  (nodes.filter fun c => s.hierarchy.parent? c = some node).filterMap s.viewOf

/-- A scene whose views hang from nothing yet, with a view of its own for each name. -/
structure Unwired (s : Scene) (w : World) : Prop where
  /-- No name is given twice. -/
  distinct : s.hierarchy.names.Nodup
  /-- The container is none of the views below it. -/
  root : ∀ node ∈ s.hierarchy.breadthFirst, ∀ id, s.viewOf node = some id →
    s.bound? rootName ≠ some id
  /-- No two nodes share a view. -/
  apart : ∀ a ∈ s.hierarchy.breadthFirst, ∀ b ∈ s.hierarchy.breadthFirst, ∀ id,
    s.viewOf a = some id → s.viewOf b = some id → a = b
  grounded : s.Grounded w
  /-- Nothing is attached to the view of a node. -/
  bare : ∀ node, s.hierarchy.IsVisited node → ∀ id, s.viewOf node = some id →
    w.store.subviews id = []

namespace Unwired

variable {s : Scene} {w : World}

/-- Nor does a node share the view of the root. -/
theorem eq_of_viewOf (h : s.Unwired w) {a b : Nat} (ha : s.hierarchy.IsVisited a)
    (hb : s.hierarchy.IsVisited b) {id : ViewId} (hida : s.viewOf a = some id)
    (hidb : s.viewOf b = some id) : a = b := by
  rcases ha with rfl | ha
  · rcases hb with rfl | hb
    · rfl
    · exact absurd hida (h.root b hb id hidb)
  · rcases hb with rfl | hb
    · exact absurd hidb (h.root a ha id hida)
    · exact h.apart a ha b hb id hida hidb

/-- A node links the view of its parent and its own, if both are there. -/
theorem link?_iff (h : s.Unwired w) {node p : Nat} (hnode : node ∈ s.hierarchy.breadthFirst)
    (hp : s.hierarchy.parent? node = some p) {parent child : ViewId} :
    s.link? node = some (parent, child) ↔
      s.viewOf p = some parent ∧ s.viewOf node = some child := by
  rw [link?, hp]
  dsimp only
  rw [if_pos (Hierarchy.find?_nameOf h.distinct hnode)]
  cases s.viewOf p <;> cases s.viewOf node <;> simp

end Unwired

theorem hung_append_single (s : Scene) (nodes : List Nat) (node p : Nat) :
    s.hung (nodes ++ [node]) p = s.hung nodes p ++
      if s.hierarchy.parent? node = some p then (s.viewOf node).toList else [] := by
  unfold hung
  rw [List.filter_append, List.filterMap_append]
  congr 1
  split
  · rename_i hp
    cases hv : s.viewOf node <;> simp [hp, hv]
  · rename_i hp
    simp [hp]

/-- What wiring some of the nodes of a scene has come to. -/
structure Wired (s : Scene) (w₀ : World) (nodes : List Nat) (w : World) : Prop where
  size : w.store.size = w₀.store.size
  /-- A view holds the children of its node that have come. -/
  inside : ∀ node, s.hierarchy.IsVisited node → ∀ id, s.viewOf node = some id →
    w.store.subviews id = s.hung nodes node
  /-- Other views hold what they held. -/
  outside : ∀ id, (∀ node, s.hierarchy.IsVisited node → s.viewOf node ≠ some id) →
    w.store.subviews id = w₀.store.subviews id

/-- Nothing stands in the way of a node whose turn has come. -/
theorem Wired.not_barred {s : Scene} {w₀ w : World} {before after : List Nat} {node p : Nat}
    (hs : s.Unwired w₀) (h : s.Wired w₀ before w)
    (hsplit : s.hierarchy.breadthFirst = before ++ node :: after)
    (hvisited : s.hierarchy.IsVisited p) (hmem : node ∈ s.hierarchy.children p)
    {parent child : ViewId} (hparent : s.viewOf p = some parent)
    (hchild : s.viewOf node = some child) : ¬ s.Barred w.store parent child := by
  have hnode : node ∈ s.hierarchy.breadthFirst := by
    rw [hsplit]
    exact List.mem_append_right _ List.mem_cons_self
  rintro (hcontainer | hholds)
  · exact hs.root node hnode child hchild hcontainer
  · -- none of the node's own children has come, for parents come before their children
    have hnone : before.filter (fun c => s.hierarchy.parent? c = some node) = [] := by
      rw [List.filter_eq_nil_iff]
      intro c hc
      rw [decide_eq_true_eq]
      exact Hierarchy.parent_precedes hsplit hc
    have hbare : w.store.subviews child = [] := by
      rw [h.inside node (Or.inr hnode) child hchild, hung, hnone]
      rfl
    -- so the child can hold nothing but itself, and would be its own parent
    rw [ViewStore.holds_of_bare hbare, decide_eq_true_eq] at hholds
    subst hholds
    have hsame := hs.eq_of_viewOf hvisited (Or.inr hnode) hparent hchild
    have hlt := Hierarchy.lt_of_mem_children hmem
    omega

/-- One more node is hung where it belongs. -/
theorem Wired.wireNode {s : Scene} {w₀ w : World} {before after : List Nat} {node : Nat}
    (hs : s.Unwired w₀) (h : s.Wired w₀ before w)
    (hsplit : s.hierarchy.breadthFirst = before ++ node :: after) :
    s.Wired w₀ (before ++ [node]) (s.wireNode node w) := by
  have hnode : node ∈ s.hierarchy.breadthFirst := by
    rw [hsplit]
    exact List.mem_append_right _ List.mem_cons_self
  obtain ⟨p, hp, hvisited, hmem⟩ := Hierarchy.isVisited_parent hnode
  rcases s.wireNode_cases node w with
    ⟨hnone, heq⟩ | ⟨parent, child, hlink, hcase⟩
  · rw [heq]
    refine ⟨h.size, fun q hq id hid => ?_, h.outside⟩
    rw [hung_append_single, h.inside q hq id hid]
    split
    · -- the node is a child of this one, so it has no view
      rename_i hpq
      have hview : s.viewOf node = none := by
        rw [Option.eq_none_iff_forall_ne_some]
        intro child hchild
        have hsome := (hs.link?_iff hnode hpq).mpr ⟨hid, hchild⟩
        rw [hnone] at hsome
        cases hsome
      rw [hview]
      exact (List.append_nil _).symm
    · exact (List.append_nil _).symm
  · obtain ⟨hparent, hchild⟩ := (hs.link?_iff hnode hp).mp hlink
    rcases hcase with ⟨hbarred, -⟩ | ⟨-, heq⟩
    · exact absurd hbarred (h.not_barred hs hsplit hvisited hmem hparent hchild)
    · have hthere : w.store.Has parent := (hs.grounded.of_size h.size) _ _ hparent
      rw [heq]
      refine ⟨(ViewStore.size_attach _ _ _).trans h.size, fun q hq id hid => ?_,
        fun id hid => ?_⟩
      · rw [hung_append_single, ← h.inside q hq id hid]
        show (w.store.attach parent child).subviews id = _
        rw [ViewStore.subviews_attach hthere]
        by_cases hpq : p = q
        · -- the parent gets the child, last of all
          subst hpq
          rw [hparent, Option.some.injEq] at hid
          subst hid
          rw [if_pos rfl, if_pos hp, hchild]
          rfl
        · -- another node has another view
          have hne : id ≠ parent := by
            rintro rfl
            exact hpq (hs.eq_of_viewOf hvisited hq hparent hid)
          rw [if_neg hne, if_neg (by rw [hp, Option.some.injEq]; exact hpq), List.append_nil]
      · show (w.store.attach parent child).subviews id = _
        -- a view of no node is not the parent's
        have hne : id ≠ parent := by
          rintro rfl
          exact hid p hvisited hparent
        rw [ViewStore.subviews_attach hthere, if_neg hne]
        exact h.outside id hid

theorem Wired.wireNodes {s : Scene} {w₀ : World} (hs : s.Unwired w₀) (nodes : List Nat)
    {before : List Nat} {w : World} (h : s.Wired w₀ before w)
    (hsplit : s.hierarchy.breadthFirst = before ++ nodes) :
    s.Wired w₀ (before ++ nodes) (s.wireNodes nodes w) := by
  induction nodes generalizing before w with
  | nil =>
    rw [List.append_nil]
    exact h
  | cons node rest ih =>
    have hstep := h.wireNode hs hsplit
    rw [List.append_cons] at hsplit ⊢
    exact ih hstep hsplit

/-- **Wiring gives every view the views of its node's children, in their order.** -/
theorem Unwired.wired {s : Scene} {w : World} (hs : s.Unwired w) :
    s.Wired w s.hierarchy.breadthFirst (s.wire w) := by
  have hstart : s.Wired w [] w := ⟨rfl, hs.bare, fun _ _ => rfl⟩
  exact hstart.wireNodes hs s.hierarchy.breadthFirst rfl

/-- The views of a node's children, in their order. -/
def childViews (s : Scene) (node : Nat) : List ViewId :=
  (s.hierarchy.children node).filterMap s.viewOf

theorem hung_breadthFirst {s : Scene} {node : Nat} (hnode : s.hierarchy.IsVisited node) :
    s.hung s.hierarchy.breadthFirst node = s.childViews node := by
  rw [hung, Hierarchy.filter_parent_breadthFirst hnode, childViews]

/-- A view whose node hangs from a node without a view is put into no list. -/
theorem Wired.not_mem_subviews {s : Scene} {w₀ w : World} (hs : s.Unwired w₀)
    (h : s.Wired w₀ s.hierarchy.breadthFirst w) {node p : Nat}
    (hnode : node ∈ s.hierarchy.breadthFirst) (hp : s.hierarchy.parent? node = some p)
    (hnone : s.viewOf p = none) {id : ViewId} (hid : s.viewOf node = some id)
    (hfree : ∀ other, id ∉ w₀.store.subviews other) (other : ViewId) :
    id ∉ w.store.subviews other := by
  intro hmem
  by_cases hview : ∃ q, s.hierarchy.IsVisited q ∧ s.viewOf q = some other
  · -- the view would be that of a child, so this would be the parent
    obtain ⟨q, hq, hother⟩ := hview
    rw [h.inside q hq other hother, hung_breadthFirst hq, childViews, List.mem_filterMap] at hmem
    obtain ⟨c, hc, hcview⟩ := hmem
    have hsame := hs.apart c (Hierarchy.isVisited_of_mem_children hq hc) node hnode id hcview hid
    rw [← hsame, Hierarchy.parent?_of_mem_children hc, Option.some.injEq] at hp
    rw [← hp, hother] at hnone
    cases hnone
  · rw [h.outside other fun q hq hother => hview ⟨q, hq, hother⟩] at hmem
    exact hfree other hmem

/-- Each child's view comes once. -/
theorem Unwired.nodup_childViews {s : Scene} {w : World} (hs : s.Unwired w) {node : Nat}
    (hnode : s.hierarchy.IsVisited node) : (s.childViews node).Nodup := by
  rw [childViews, List.Nodup, List.pairwise_filterMap]
  refine (s.hierarchy.nodup_children node).imp_of_mem fun {a b} ha hb hne x hx y hy hxy => ?_
  subst hxy
  exact hne (hs.apart a (Hierarchy.isVisited_of_mem_children hnode ha) b
    (Hierarchy.isVisited_of_mem_children hnode hb) x hx hy)

end Scene

end ViewSheet
