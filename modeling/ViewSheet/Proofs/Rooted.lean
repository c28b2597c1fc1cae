/-
  Rooted: which views hang in the container after the first attach call, if names occur again.

  1. **Specification**: a name is *rooted* if going from its last node to that node's parent, and on
     from the last node of the parent's name, leads to the root.  A name whose last node stands
     below a node of its own name need not be.

  2. **The crux** (`Hung`): after wiring, the views of a scene hang where the last nodes of their
     names say, and nowhere else.  A view is left out exactly if it spans its parent.  So each view
     has one predecessor at most, and two views above one view are one above the other
     (`Hung.comparable`).

  3. **Result** (`spans_container_iff_rooted`): the views of the rooted names, and no others, are
     the container or hang below it.  Each of them hangs in one place.

  4. **A circle**: for a name that stands below itself this is not enough.  `A` over `B` over `A`
     leaves both views out of the container (`exists_lost_view`).
-/
import ViewSheet.Proofs.Attaching
import ViewSheet.Proofs.Hanging

namespace ViewSheet

/-! ## The last node of a name -/

namespace Hierarchy

/-- The name of the parent of the last node of a name. -/
def lastParent? (h : Hierarchy) (name : String) : Option String :=
  ((h.find? name).bind h.parent?).map h.nameOf

theorem exists_findFrom {name : String} {nodes : List Node} (h : name ∈ nodes.map (·.name))
    (i : Nat) : ∃ k n, findFrom name i nodes = some (i + k) ∧ nodes[k]? = some n ∧
      n.name = name := by
  induction nodes generalizing i with
  | nil => cases h
  | cons n rest ih =>
    rw [findFrom]
    by_cases hlater : name ∈ rest.map (·.name)
    · obtain ⟨k, m, hfound, hm, hname⟩ := ih hlater (i + 1)
      refine ⟨k + 1, m, ?_, hm, hname⟩
      rw [hfound]
      show some (i + 1 + k) = some (i + (k + 1))
      rw [Nat.add_assoc, Nat.add_comm 1 k]
    · -- the name occurs no later, so this is its last node
      have hhere : n.name = name := by
        rw [List.map_cons, List.mem_cons] at h
        exact (h.resolve_right hlater).symm
      rw [findFrom_eq_none hlater]
      exact ⟨0, n, if_pos hhere, rfl, hhere⟩

/-- A name of the hierarchy has a last node. -/
theorem exists_find? {h : Hierarchy} {name : String} (hname : name ∈ h.names) :
    ∃ node p, h.find? name = some node ∧ h.nameOf node = name ∧ h.parent? node = some p := by
  obtain ⟨k, n, hfound, hn, rfl⟩ := exists_findFrom hname 1
  have hnode : h.node? (1 + k) = some n := by
    rw [Nat.add_comm]
    exact hn
  refine ⟨1 + k, n.parent, ?_, ?_, ?_⟩
  · rw [find?, hfound]
  · rw [nameOf, hnode]
  · rw [parent?, hnode]
    rfl

end Hierarchy

namespace Scene

/-- Going from the last node of the name to its parent, and so on, leads to the root. -/
inductive Rooted (s : Scene) : String → Prop where
  | root {name : String} (h : s.isRootName name = true) : Rooted s name
  | under {name parent : String} (hparent : s.hierarchy.lastParent? name = some parent)
      (h : Rooted s parent) : Rooted s name

/-- What a node hangs is the view of a name below the root, at the parent of its last node. -/
theorem Hangs.lastParent {s : Scene} {node : Nat} {parent child : ViewId}
    (h : s.Hangs node parent child) : ∃ name above, s.bound? name = some child ∧
      s.hierarchy.lastParent? name = some above ∧ s.bound? above = some parent := by
  obtain ⟨p, hp, hlast, hparent, hchild⟩ := link?_eq_some_iff.mp h.1
  refine ⟨_, s.hierarchy.nameOf p, hchild, ?_, hparent⟩
  rw [Hierarchy.lastParent?, hlast, Option.bind_some, hp]
  rfl

/-! ## Views that hang where the last nodes say -/

/-- The views of a scene with a container, in a store in which the scene has been wired. -/
structure Hung (s : Scene) (container : ViewId) (store : ViewStore) : Prop where
  root : ∀ name, s.isRootName name = true → s.bound? name = some container
  /-- The container is none of the views below it. -/
  below : ∀ name, s.isRootName name = false → s.bound? name ≠ some container
  /-- A view hangs at the parent of the last node of its name, and nowhere else. -/
  parent : ∀ name id, s.isRootName name = false → s.bound? name = some id →
    ∀ other, store.Bears other id →
      ∃ above, s.hierarchy.lastParent? name = some above ∧ s.bound? above = some other
  /-- It hangs there, or spans the view there. -/
  hangs : ∀ name id, s.isRootName name = false → s.bound? name = some id →
    ∃ above other, s.hierarchy.lastParent? name = some above ∧ s.bound? above = some other ∧
      (store.Bears other id ∨ store.Spans id other)
  /-- What hangs from a view of the scene is a view of the scene. -/
  inside : ∀ name id, s.isRootName name = false → s.bound? name = some id →
    ∀ child, store.Bears id child → ∃ other, s.isRootName other = false ∧
      s.bound? other = some child

namespace Hung

variable {s : Scene} {container : ViewId} {store : ViewStore}

/-- Whatever a view of the scene spans is a view of the scene. -/
theorem inside_of_spans (h : s.Hung container store) {name : String} {id other : ViewId}
    (hname : s.isRootName name = false) (hid : s.bound? name = some id)
    (hspans : store.Spans id other) :
    ∃ name', s.isRootName name' = false ∧ s.bound? name' = some other := by
  induction hspans with
  | refl => exact ⟨name, hname, hid⟩
  | tail _ hbears ih =>
    obtain ⟨middle, hmiddle, hview⟩ := ih
    exact h.inside middle _ hmiddle hview _ hbears

/-- No view of the scene spans the container. -/
theorem not_spans_container (h : s.Hung container store) {name : String} {id : ViewId}
    (hname : s.isRootName name = false) (hid : s.bound? name = some id) :
    ¬ store.Spans id container := by
  intro hspans
  obtain ⟨name', hname', hcontainer⟩ := h.inside_of_spans hname hid hspans
  exact h.below name' hname' hcontainer

/-- A view of the scene hangs from one view at most. -/
theorem parent_unique (h : s.Hung container store) {name : String} {id a b : ViewId}
    (hname : s.isRootName name = false) (hid : s.bound? name = some id)
    (ha : store.Bears a id) (hb : store.Bears b id) : a = b := by
  obtain ⟨above, habove, hviewA⟩ := h.parent name id hname hid a ha
  obtain ⟨above', habove', hviewB⟩ := h.parent name id hname hid b hb
  rw [habove, Option.some.injEq] at habove'
  rw [← habove', hviewA, Option.some.injEq] at hviewB
  exact hviewB

/-- **If a view of the scene spans what the container spans, then it hangs in the container.** -/
theorem comparable (h : s.Hung container store) {name : String} {id other : ViewId}
    (hname : s.isRootName name = false) (hid : s.bound? name = some id)
    (hcontainer : store.Spans container other) (hspans : store.Spans id other) :
    store.Spans container id := by
  -- up from the view that both span, the two ways are the same until one of them ends
  induction hcontainer with
  | refl => exact absurd hspans (h.not_spans_container hname hid)
  | tail hway hbears ih =>
    rcases Relation.ReflTransGen.cases_tail hspans with hsame | ⟨middle, hto, hlast⟩
    · rw [← hsame]
      exact hway.tail hbears
    · obtain ⟨name', hname', hview⟩ := h.inside_of_spans hname hid hspans
      have heq := h.parent_unique hname' hview hbears hlast
      subst heq
      exact ih hto

theorem rooted_of_spans (h : s.Hung container store) {id : ViewId}
    (hspans : store.Spans container id) : ∀ name, s.bound? name = some id → s.Rooted name := by
  induction hspans with
  | refl =>
    intro name hname
    cases hroot : s.isRootName name with
    | true => exact .root hroot
    | false => exact absurd hname (h.below name hroot)
  | tail _ hbears ih =>
    intro name hname
    cases hroot : s.isRootName name with
    | true => exact .root hroot
    | false =>
      obtain ⟨above, habove, hview⟩ := h.parent name _ hroot hname _ hbears
      exact .under habove (ih above hview)

theorem spans_of_rooted (h : s.Hung container store) {name : String} (hrooted : s.Rooted name)
    {id : ViewId} (hid : s.bound? name = some id) : store.Spans container id := by
  induction hrooted generalizing id with
  | root hroot =>
    rw [h.root _ hroot, Option.some.injEq] at hid
    rw [hid]
    exact .refl
  | @under name above hparent _ ih =>
    cases hroot : s.isRootName name with
    | true =>
      rw [h.root name hroot, Option.some.injEq] at hid
      rw [hid]
      exact .refl
    | false =>
      obtain ⟨above', other, habove, hother, hcase⟩ := h.hangs name id hroot hid
      rw [hparent, Option.some.injEq] at habove
      subst habove
      have hway := ih hother
      rcases hcase with hbears | hspans
      · exact hway.tail hbears
      · exact h.comparable hroot hid hway hspans

/-- **A view hangs in the container exactly if its name is rooted.** -/
theorem spans_iff_rooted (h : s.Hung container store) {name : String} {id : ViewId}
    (hid : s.bound? name = some id) : store.Spans container id ↔ s.Rooted name :=
  ⟨fun hspans => h.rooted_of_spans hspans name hid, fun hrooted => h.spans_of_rooted hrooted hid⟩

/-- A view hangs at the parent of its last node, or nowhere because it spans that parent. -/
theorem count_cases (h : s.Hung container store) {name : String} {id : ViewId}
    (hname : s.isRootName name = false) (hid : s.bound? name = some id)
    (honce : store.attachments.count id ≤ 1) :
    ∃ above other, s.hierarchy.lastParent? name = some above ∧ s.bound? above = some other ∧
      ((store.Bears other id ∧ store.attachments.count id = 1) ∨
        (¬ s.Rooted name ∧ store.Spans id other ∧ store.attachments.count id = 0)) := by
  obtain ⟨above, other, habove, hother, hcase⟩ := h.hangs name id hname hid
  refine ⟨above, other, habove, hother, ?_⟩
  by_cases hbears : store.Bears other id
  · have hpos : 0 < store.attachments.count id :=
      List.count_pos_iff.mpr (ViewStore.mem_attachments.mpr ⟨other, hbears⟩)
    exact Or.inl ⟨hbears, by omega⟩
  · -- it hangs from no other view either
    have hnowhere : ∀ view, ¬ store.Bears view id := by
      intro view hview
      obtain ⟨above', habove', hview'⟩ := h.parent name id hname hid view hview
      rw [habove, Option.some.injEq] at habove'
      rw [← habove', hother, Option.some.injEq] at hview'
      exact hbears (hview' ▸ hview)
    have hcount : store.attachments.count id = 0 := by
      rw [List.count_eq_zero, ViewStore.mem_attachments]
      rintro ⟨view, hview⟩
      exact hnowhere view hview
    have hnot : ¬ s.Rooted name := by
      intro hrooted
      rcases Relation.ReflTransGen.cases_tail (h.spans_of_rooted hrooted hid) with
        hsame | ⟨view, -, hview⟩
      · exact h.below name hname (hsame ▸ hid)
      · exact hnowhere view hview
    exact Or.inr ⟨hnot, hcase.resolve_left hbears, hcount⟩

end Hung

/-! ## Wiring -/

section
variable {s : Scene} {w₀ w : World} {container : ViewId}

/-- Below the root, a name stands for what it stood for without the container. -/
theorem bound?_of_withContainer {name : String} {id : ViewId}
    (hname : s.isRootName name = false)
    (hid : (s.withContainer container).bound? name = some id) : s.bound? name = some id := by
  rw [bound?_withContainer, hname] at hid
  exact hid

/-- A view that is not the container goes by one name. -/
theorem Quiet.eq_of_bound? (h : s.Quiet w₀ w) (hown : ∀ name, s.bound? name ≠ some container)
    {name other : String} {id : ViewId} (hid : s.bound? name = some id)
    (hview : (s.withContainer container).bound? other = some id) : other = name := by
  have hbelow : s.isRootName other = false := by
    rw [Bool.eq_false_iff]
    intro hroot
    rw [bound?_withContainer, if_pos hroot, Option.some.injEq] at hview
    exact hown name (hview ▸ hid)
  exact h.apart other name id (bound?_of_withContainer hbelow hview) hid

/-- A list that leads to a view of the scene has been made by the last node of its name. -/
theorem Quiet.lastParent_of_bears (h : s.Quiet w₀ w) (hthere : w.store.Has container)
    (hown : ∀ name, s.bound? name ≠ some container) {name : String} {id other : ViewId}
    (hid : s.bound? name = some id)
    (hbears : ((s.withContainer container).wire w).store.Bears other id) :
    ∃ above, s.hierarchy.lastParent? name = some above ∧
      (s.withContainer container).bound? above = some other := by
  rcases bears_wireNodes (grounded_withContainer h.grounded hthere) hbears with
    hold | ⟨node, -, hhangs⟩
  · exact absurd (h.old other id hold) (h.fresh name id hid)
  · obtain ⟨name', above, hview, habove, hother⟩ := hhangs.lastParent
    rw [h.eq_of_bound? hown hid hview] at habove
    exact ⟨above, habove, hother⟩

/-- The parent of a node is the root, or a node that is built. -/
theorem exists_viewOf_parent
    (hbuilt : ∀ name ∈ s.hierarchy.names, s.isRootName name = false → (s.bound? name).isSome)
    {node p : Nat} (hvisited : node ∈ s.hierarchy.breadthFirst)
    (hp : s.hierarchy.parent? node = some p) :
    ∃ other, (s.withContainer container).viewOf p = some other := by
  obtain ⟨q, hq, hqVisited, -⟩ := Hierarchy.isVisited_parent hvisited
  rw [hp, Option.some.injEq] at hq
  subst hq
  show ∃ other, (s.withContainer container).bound? (s.hierarchy.nameOf p) = some other
  rw [bound?_withContainer]
  split
  · exact ⟨container, rfl⟩
  · rename_i hbelow
    rcases hqVisited with rfl | hmem
    · exact absurd (by simp [isRootName, Hierarchy.nameOf, Hierarchy.node?]) hbelow
    · exact Option.isSome_iff_exists.mp
        (hbuilt _ (Hierarchy.nameOf_mem_names hmem) (Bool.eq_false_iff.mpr hbelow))

/-- After wiring, a view hangs at the parent of the last node of its name, unless it spans it. -/
theorem Quiet.bears_or_spans (h : s.Quiet w₀ w) (hwellFormed : s.hierarchy.WellFormed)
    (hbuilt : ∀ name ∈ s.hierarchy.names, s.isRootName name = false → (s.bound? name).isSome)
    (hthere : w.store.Has container) (hown : ∀ name, s.bound? name ≠ some container)
    {name : String} {id : ViewId} (hid : s.bound? name = some id)
    (hview : (s.withContainer container).bound? name = some id) :
    ∃ above other, s.hierarchy.lastParent? name = some above ∧
      (s.withContainer container).bound? above = some other ∧
      (((s.withContainer container).wire w).store.Bears other id ∨
        ((s.withContainer container).wire w).store.Spans id other) := by
  have hmem : name ∈ s.hierarchy.names := by
    obtain ⟨hmem, -⟩ := h.nodes name id hid
    obtain ⟨node, hnode, rfl⟩ := List.mem_map.mp hmem
    exact Hierarchy.nameOf_mem_names hnode
  obtain ⟨node, p, hlast, rfl, hp⟩ := Hierarchy.exists_find? hmem
  have hvisited : node ∈ s.hierarchy.breadthFirst := by
    rcases hwellFormed.isVisited (Hierarchy.lt_size_of_parent? hp) with rfl | hvisited
    · cases hp
    · exact hvisited
  obtain ⟨other, hother⟩ := exists_viewOf_parent hbuilt hvisited hp
  have habove : s.hierarchy.lastParent? (s.hierarchy.nameOf node) =
      some (s.hierarchy.nameOf p) := by
    rw [Hierarchy.lastParent?, hlast, Option.bind_some, hp]
    rfl
  have hlink : (s.withContainer container).link? node = some (other, id) :=
    link?_eq_some_iff.mpr ⟨p, hp, hlast, hother, hview⟩
  refine ⟨_, other, habove, hother, ?_⟩
  rcases linked_wire (grounded_withContainer h.grounded hthere) hvisited hlink with
    hbears | hcontainer | hholds
  · exact Or.inl hbears
  · have hroot : (s.withContainer container).bound? rootName = some container :=
      viewOf_withContainer_zero
    rw [hroot, Option.some.injEq] at hcontainer
    exact absurd hid (hcontainer ▸ hown _)
  · exact Or.inr (ViewStore.spans_of_reaches _ hholds)

/-- After wiring, what hangs from a view of the scene is one of its views, and not the container. -/
theorem Quiet.exists_of_bears (h : s.Quiet w₀ w) (hthere : w.store.Has container) {name : String}
    {id child : ViewId} (hid : s.bound? name = some id)
    (hbears : ((s.withContainer container).wire w).store.Bears id child) :
    ∃ other, s.isRootName other = false ∧
      (s.withContainer container).bound? other = some child := by
  rcases bears_wireNodes (grounded_withContainer h.grounded hthere) hbears with
    hold | ⟨node, -, hhangs⟩
  · rw [ViewStore.Bears, h.bare name id hid] at hold
    cases hold
  · obtain ⟨other, above, hview, -, -⟩ := hhangs.lastParent
    refine ⟨other, ?_, hview⟩
    rw [Bool.eq_false_iff]
    intro hroot
    -- a name of the root stands for the container, which is hung nowhere
    rw [bound?_withContainer, if_pos hroot, Option.some.injEq] at hview
    refine hhangs.2 ?_
    rw [← hview]
    exact viewOf_withContainer_zero

/-- **A quiet scene hangs where its last nodes say once it is wired.** -/
theorem Quiet.hung (h : s.Quiet w₀ w) (hwellFormed : s.hierarchy.WellFormed)
    (hbuilt : ∀ name ∈ s.hierarchy.names, s.isRootName name = false → (s.bound? name).isSome)
    (hthere : w.store.Has container) (hown : ∀ name, s.bound? name ≠ some container) :
    (s.withContainer container).Hung container ((s.withContainer container).wire w).store where
  root := by
    intro name hname
    have hroot : s.isRootName name = true := hname
    rw [bound?_withContainer, if_pos hroot]
  below := fun name hname hcontainer => hown name (bound?_of_withContainer hname hcontainer)
  parent := fun _ _ hname hid _ hbears =>
    h.lastParent_of_bears hthere hown (bound?_of_withContainer hname hid) hbears
  hangs := fun _ _ hname hid =>
    h.bears_or_spans hwellFormed hbuilt hthere hown (bound?_of_withContainer hname hid) hid
  inside := fun _ _ hname hid _ hbears =>
    h.exists_of_bears hthere (bound?_of_withContainer hname hid) hbears

/-- Each view of a quiet scene is attached once at most when the scene is wired. -/
theorem Quiet.count_wire_le (h : s.Quiet w₀ w) (hthere : w.store.Has container)
    (hown : ∀ name, s.bound? name ≠ some container) {name : String} {id : ViewId}
    (hid : s.bound? name = some id) :
    ((s.withContainer container).wire w).store.attachments.count id ≤ 1 := by
  have hground := grounded_withContainer h.grounded hthere
  have hnone : w.store.attachments.count id = 0 := by
    rw [List.count_eq_zero, ViewStore.mem_attachments]
    rintro ⟨parent, hbears⟩
    exact h.fresh name id hid (h.old parent id hbears)
  have hnamed : ∀ node parent, (s.withContainer container).Hangs node parent id →
      s.hierarchy.find? name = some node := by
    intro node parent hhangs
    obtain ⟨p, -, hlast, -, hview⟩ := link?_eq_some_iff.mp hhangs.1
    rw [← h.eq_of_bound? hown hid hview]
    exact hlast
  have honly : ∀ a b p q, (s.withContainer container).Hangs a p id →
      (s.withContainer container).Hangs b q id → a = b := by
    intro a b p q ha hb
    have hfirst := hnamed a p ha
    rw [hnamed b q hb, Option.some.injEq] at hfirst
    exact hfirst.symm
  have hcount := count_wireNodes_le hground s.hierarchy.nodup_breadthFirst honly
  rw [hnone] at hcount
  exact hcount

end

/-! ## The first attach call -/

/-- Passes that leave the lists alone leave the views where they hang. -/
theorem Hung.of_sameTree {s : Scene} {container : ViewId} {w w' : World}
    (h : s.Hung container w.store) (hsame : SameTree w w') : s.Hung container w'.store := by
  have hsub : w'.store.subviews = w.store.subviews := funext hsame.2
  have hbears : w'.store.Bears = w.store.Bears := by
    unfold ViewStore.Bears
    rw [hsub]
  have hspans : w'.store.Spans = w.store.Spans := by
    unfold ViewStore.Spans
    rw [hbears]
  refine ⟨h.root, h.below, ?_, ?_, ?_⟩
  · rw [hbears]
    exact h.parent
  · rw [hbears, hspans]
    exact h.hangs
  · rw [hbears]
    exact h.inside

/-- **After the first attach call, the views of the rooted names hang in the container, and no
    others.**  The container is any view of the host's that is none of the scene's. -/
theorem spans_container_iff_rooted {d : Definition} {root : String} {data : DataBindings}
    {w₀ w₁ : World} {s s' : Scene} {past : List Record} {m : Moment} {container : ViewId}
    {w' : World} (hdoc : d.document.Reachable) (hmakes : d.catalogue.MakesBare)
    (hkeeps : d.catalogue.KeepsSubviews) (hclosed : w₀.store.Closed)
    (hload : load d root data [] w₀ = (.ok s, w₁))
    (hbuilt : ∀ name ∈ s.hierarchy.names, s.isRootName name = false → (s.bound? name).isSome)
    (hsession : Session ⟨s, w₁⟩ past m) (hnone : ∀ r ∈ past, r.call.isAttach = false)
    (hthere : m.world.store.Has container) (hown : ∀ name, m.scene.bound? name ≠ some container)
    (hok : m.scene.attach container m.world = (.ok (), s', w')) :
    ∀ name ∈ s'.hierarchy.names, ∃ id, s'.bound? name = some id ∧
      (w'.store.Spans container id ↔ s'.Rooted name) ∧
      (s'.isRootName name = true → id = container) ∧
      (s'.isRootName name = false → ∃ above other, s'.hierarchy.lastParent? name = some above ∧
        s'.bound? above = some other ∧
        ((w'.store.Bears other id ∧ w'.store.attachments.count id = 1) ∨
          (¬ s'.Rooted name ∧ w'.store.Spans id other ∧
            w'.store.attachments.count id = 0))) := by
  have hdefinition : s.definition = d := (loaded_of_load (List.forall_mem_nil _) hload).definition
  have hwellFormed := wellFormed_of_load hdoc hload
  have hloaded := quiet_of_load hmakes hkeeps hclosed hload
  rw [← hdefinition] at hkeeps
  have hquiet : m.scene.Quiet w₀ m.world := hsession.quiet hloaded hkeeps hnone
  have hsteady := hsession.steady
  rw [← hsteady.definition] at hkeeps
  rw [← hsteady.hierarchy] at hwellFormed hbuilt
  have hbuilt : ∀ name ∈ m.scene.hierarchy.names, m.scene.isRootName name = false →
      (m.scene.bound? name).isSome := by
    intro name hname hbelow
    rw [hsteady.isRootName] at hbelow
    rw [hsteady.bound name hbelow]
    exact hbuilt name hname hbelow
  obtain ⟨rfl, w₂, hbefore, hafter⟩ := exists_wired_of_attach hkeeps hquiet.bound?_rootName hok
  have hready := hquiet.of_sameTree hbefore
  have hthere := hthere.mono (Nat.le_of_eq hbefore.1.symm)
  have hwired := (hready.hung hwellFormed hbuilt hthere hown).of_sameTree hafter
  -- how far the scene has come is of no account for its views
  have hhung : ({ m.scene.withContainer container with state := .attached } : Scene).Hung container
      w'.store := ⟨hwired.root, hwired.below, hwired.parent, hwired.hangs, hwired.inside⟩
  intro name hname
  cases hroot : m.scene.isRootName name with
  | true =>
    have hid := hhung.root name hroot
    exact ⟨container, hid, hhung.spans_iff_rooted hid, fun _ => rfl,
      fun hbelow => absurd (hroot.symm.trans hbelow) (by decide)⟩
  | false =>
    obtain ⟨id, hid⟩ := Option.isSome_iff_exists.mp (hbuilt name hname hroot)
    have hview : (m.scene.withContainer container).bound? name = some id := by
      rw [bound?_withContainer, hroot]
      exact hid
    have honce : w'.store.attachments.count id ≤ 1 := by
      rw [(SameTree.grown hafter).attachments]
      exact hready.count_wire_le hthere hown hid
    exact ⟨id, hview, hhung.spans_iff_rooted hview,
      fun htrue => absurd (hroot.symm.trans htrue) (by decide),
      fun _ => hhung.count_cases hroot hview honce⟩

end Scene

/-! ## A name below itself -/

/-- `X` stands twice, and hangs where it stands last.  `A` stands below itself. -/
def repeated : Definition where
  document := (parseInto (.empty "sheet")
    "Main:\n  X\n  Y\n    X\n  A\n    B\n      A\n").document
  catalogue := .stock
  listener := none

/-- Loads the sheet. -/
def loadRepeated : Except Error Scene × World := Scene.load repeated "Main" .empty [] .empty

theorem isSome_loadRepeated : (Moment.ofLoad? loadRepeated).isSome = true := by
  decide +kernel

/-- The moment after the load. -/
def loadedRepeated : Moment := Option.get _ isSome_loadRepeated

theorem loadRepeated_eq : loadRepeated = (.ok loadedRepeated.scene, loadedRepeated.world) :=
  Moment.eq_of_ofLoad? (Option.some_get isSome_loadRepeated).symm

/-- The moment after the host has made a container. -/
def hostedRepeated : Moment := ((Call.create (.stock (.container {}))).run loadedRepeated).2

/-- What comes of attaching the scene to the container. -/
def attachedRepeated : Except Error Unit × Scene × World :=
  hostedRepeated.scene.attach ⟨4⟩ hostedRepeated.world

theorem repeated_computed :
    (∀ name ∈ loadedRepeated.scene.hierarchy.names,
      (loadedRepeated.scene.bound? name).isSome = true) ∧
    loadedRepeated.world.store.size = 4 ∧
    hostedRepeated.world.store.get? ⟨4⟩ = some (.stock (.container {})) ∧
    attachedRepeated.1.isOk = true ∧
    "A" ∈ attachedRepeated.2.1.hierarchy.names ∧
    attachedRepeated.2.1.bound? "A" = some ⟨2⟩ ∧
    attachedRepeated.2.2.store.subviews ⟨4⟩ = [⟨1⟩] ∧
    attachedRepeated.2.2.store.subviews ⟨1⟩ = [⟨0⟩] ∧
    attachedRepeated.2.2.store.subviews ⟨0⟩ = [] := by
  decide +kernel

theorem hostedRepeated_session : Session loadedRepeated
    [(Call.create (.stock (.container {}))).record loadedRepeated] hostedRepeated :=
  .call .start (.create (.stock (.container {}))) rfl

/-- The container is younger than the views of the scene. -/
theorem hostedRepeated_own (name : String) : hostedRepeated.scene.bound? name ≠ some ⟨4⟩ := by
  intro hid
  obtain ⟨-, hsize, -⟩ := repeated_computed
  have hgrounded := (Scene.loaded_of_load (List.forall_mem_nil _) loadRepeated_eq).grounded
  have hold : 4 < loadedRepeated.world.store.size := hgrounded name ⟨4⟩ hid
  omega

theorem attachedRepeated_computed :
    (["X", "Y", "A", "B"].map attachedRepeated.2.1.bound?) =
      [some ⟨0⟩, some ⟨1⟩, some ⟨2⟩, some ⟨3⟩] ∧
    (["X", "Y", "A", "B"].map attachedRepeated.2.1.hierarchy.lastParent?) =
      [some "Y", some rootName, some "B", some "A"] ∧
    (["X", "A", "B"].map attachedRepeated.2.1.isRootName) = [false, false, false] ∧
    (["X", "A", "B"].all fun name => decide (name ∈ attachedRepeated.2.1.hierarchy.names)) = true ∧
    attachedRepeated.2.2.store.attachments = [⟨0⟩, ⟨3⟩, ⟨1⟩] := by
  decide +kernel

/-- `X` is rooted, and hangs in `Y` alone, below the container.  `A` is not and hangs nowhere, and
    `B`, which hangs in `A`, is not below the container either. -/
theorem spans_container_iff_rooted_repeated : ∃ s' w',
    hostedRepeated.scene.attach ⟨4⟩ hostedRepeated.world = (.ok (), s', w') ∧
    (["X", "Y", "A", "B"].map s'.bound?) = [some ⟨0⟩, some ⟨1⟩, some ⟨2⟩, some ⟨3⟩] ∧
    (s'.Rooted "X" ∧ w'.store.Spans ⟨4⟩ ⟨0⟩ ∧ w'.store.Bears ⟨1⟩ ⟨0⟩ ∧
      w'.store.attachments.count ⟨0⟩ = 1) ∧
    (¬ s'.Rooted "A" ∧ ¬ w'.store.Spans ⟨4⟩ ⟨2⟩ ∧ w'.store.Spans ⟨2⟩ ⟨3⟩ ∧
      w'.store.attachments.count ⟨2⟩ = 0) ∧
    (¬ s'.Rooted "B" ∧ ¬ w'.store.Spans ⟨4⟩ ⟨3⟩ ∧ w'.store.Bears ⟨2⟩ ⟨3⟩ ∧
      w'.store.attachments.count ⟨3⟩ = 1) := by
  obtain ⟨hbuilt, -, hcontainer, hok, -⟩ := repeated_computed
  obtain ⟨hbound, hparents, hroots, hnames, hlist⟩ := attachedRepeated_computed
  have hattach : attachedRepeated = (.ok (), attachedRepeated.2.1, attachedRepeated.2.2) :=
    Prod.ext (eq_ok_of_isOk hok) rfl
  have hnone : ∀ r ∈ [(Call.create (.stock (.container {}))).record loadedRepeated],
      r.call.isAttach = false := by
    intro r hr
    rw [List.mem_singleton] at hr
    rw [hr]
    rfl
  have hall := Scene.spans_container_iff_rooted (.parse (.empty "sheet") _)
    Catalogue.makesBare_stock Catalogue.keepsSubviews_stock ViewStore.closed_empty loadRepeated_eq
    (fun name hname _ => hbuilt name hname) hostedRepeated_session hnone
    (ViewStore.has_iff.mpr ⟨_, hcontainer⟩) hostedRepeated_own hattach
  have hshown := hbound
  simp only [List.map_cons, List.map_nil, List.cons.injEq, and_true] at hbound hparents hroots
  obtain ⟨hviewX, hviewY, hviewA, hviewB⟩ := hbound
  obtain ⟨hparentX, hparentY, hparentA, hparentB⟩ := hparents
  obtain ⟨hrootX, hrootA, hrootB⟩ := hroots
  simp only [List.all_cons, List.all_nil, Bool.and_true, Bool.and_eq_true, decide_eq_true_eq]
    at hnames
  obtain ⟨hnameX, hnameA, hnameB⟩ := hnames
  obtain ⟨idX, hidX, hiffX, -, hplaceX⟩ := hall "X" hnameX
  obtain ⟨idA, hidA, hiffA, -, hplaceA⟩ := hall "A" hnameA
  obtain ⟨idB, hidB, hiffB, -, hplaceB⟩ := hall "B" hnameB
  obtain rfl := Option.some.inj (hidX.symm.trans hviewX)
  obtain rfl := Option.some.inj (hidA.symm.trans hviewA)
  obtain rfl := Option.some.inj (hidB.symm.trans hviewB)
  have hrootedX : attachedRepeated.2.1.Rooted "X" := .under hparentX (.under hparentY (.root rfl))
  have hX : attachedRepeated.2.2.store.Bears ⟨1⟩ ⟨0⟩ ∧
      attachedRepeated.2.2.store.attachments.count ⟨0⟩ = 1 := by
    obtain ⟨above, other, habove, hother, hcase⟩ := hplaceX hrootX
    obtain rfl := Option.some.inj (habove.symm.trans hparentX)
    obtain rfl := Option.some.inj (hother.symm.trans hviewY)
    rcases hcase with hhangs | ⟨hnot, -⟩
    · exact hhangs
    · exact absurd hrootedX hnot
  have hA : ¬ attachedRepeated.2.1.Rooted "A" ∧ attachedRepeated.2.2.store.Spans ⟨2⟩ ⟨3⟩ ∧
      attachedRepeated.2.2.store.attachments.count ⟨2⟩ = 0 := by
    obtain ⟨above, other, habove, hother, hcase⟩ := hplaceA hrootA
    obtain rfl := Option.some.inj (habove.symm.trans hparentA)
    obtain rfl := Option.some.inj (hother.symm.trans hviewB)
    rcases hcase with ⟨-, honce⟩ | hlost
    · rw [hlist] at honce
      exact absurd honce (by decide)
    · exact hlost
  -- the way up from `B` leads to `A`
  have hnotB : ¬ attachedRepeated.2.1.Rooted "B" := by
    intro hrooted
    cases hrooted with
    | root hroot =>
      rw [hrootB] at hroot
      cases hroot
    | under hparent hrooted =>
      obtain rfl := Option.some.inj (hparent.symm.trans hparentB)
      exact hA.1 hrooted
  have hB : attachedRepeated.2.2.store.Bears ⟨2⟩ ⟨3⟩ ∧
      attachedRepeated.2.2.store.attachments.count ⟨3⟩ = 1 := by
    obtain ⟨above, other, habove, hother, hcase⟩ := hplaceB hrootB
    obtain rfl := Option.some.inj (habove.symm.trans hparentB)
    obtain rfl := Option.some.inj (hother.symm.trans hviewA)
    rcases hcase with hhangs | ⟨-, -, hnever⟩
    · exact hhangs
    · rw [hlist] at hnever
      exact absurd hnever (by decide)
  exact ⟨_, _, hattach, hshown, ⟨hrootedX, hiffX.mpr hrootedX, hX⟩,
    ⟨hA.1, mt hiffA.mp hA.1, hA.2⟩, hnotB, mt hiffB.mp hnotB, hB⟩

/-- **A view can be lost by attachment.**  Every name is built and the first attach call succeeds,
    and yet the view of `A` is not below the container, which was bare. -/
theorem exists_lost_view : ∃ (s : Scene) (w : World) (past : List Record) (m : Moment)
    (s' : Scene) (w' : World) (container id : ViewId),
      Scene.load repeated "Main" .empty [] .empty = (.ok s, w) ∧
      (∀ name ∈ s.hierarchy.names, (s.bound? name).isSome = true) ∧
      Session ⟨s, w⟩ past m ∧ (∀ r ∈ past, r.call.isAttach = false) ∧
      m.world.store.get? container = some (.stock (.container {})) ∧
      (∀ name, m.scene.bound? name ≠ some container) ∧
      m.scene.attach container m.world = (.ok (), s', w') ∧
      "A" ∈ s'.hierarchy.names ∧ s'.bound? "A" = some id ∧ id ≠ container ∧
      ¬ w'.store.Spans container id := by
  obtain ⟨hbuilt, -, hcontainer, hok, hname, hid, hroot, hinner, hleaf⟩ := repeated_computed
  have hattach : attachedRepeated = (.ok (), attachedRepeated.2.1, attachedRepeated.2.2) :=
    Prod.ext (eq_ok_of_isOk hok) rfl
  refine ⟨_, _, _, _, _, _, ⟨4⟩, ⟨2⟩, loadRepeated_eq, hbuilt, hostedRepeated_session, ?_,
    hcontainer, hostedRepeated_own, hattach, hname, hid, by decide, ?_⟩
  · intro r hr
    rw [List.mem_singleton] at hr
    rw [hr]
    rfl
  · -- the container holds `Y`, which holds `X`, and that is all
    rw [ViewStore.spans_iff_of_ne (by decide), hroot]
    rintro ⟨y, hy, hspansY⟩
    rw [List.mem_singleton] at hy
    rw [hy, ViewStore.spans_iff_of_ne (by decide), hinner] at hspansY
    obtain ⟨x, hx, hspansX⟩ := hspansY
    rw [List.mem_singleton] at hx
    rw [hx, ViewStore.spans_iff_of_ne (by decide), hleaf] at hspansX
    obtain ⟨z, hz, -⟩ := hspansX
    cases hz

end ViewSheet
