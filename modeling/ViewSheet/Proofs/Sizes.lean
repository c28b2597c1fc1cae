/-
  Sizes: what the views of a scene are as large as once it hangs in a new container.

  1. **Program**: a load builds the views and sets their properties.  The first attach call sets
     those of the root on the container, hangs the views from one another, and hands everything over
     once more: level by level, and the root last.  Only then does a view take over the size of
     another, which may itself have its turn later.

  2. **Specification**: the size that construction alone gives a view depends on texts only
     (`constructedSize?`).  A reference is kept if both views have the same size in the end.

  3. **The crux** (`exists_standing`): wiring changes no size, so the last pass starts from these
     sizes and follows the links.  Whether two names stand for one view depends on the names alone,
     so two scenes can be compared link by link.

  4. **Result** (`matched_of_freshlyAttached`): a reference is kept unless one of its views is
     resized later.  Where that holds of all references on the way from a view, the order of the
     nodes makes no difference to its size.
-/
import ViewSheet.Proofs.Attaching
import ViewSheet.Proofs.Building
import ViewSheet.Proofs.Copying
import ViewSheet.Proofs.Locality
import ViewSheet.Proofs.Rebuild
import ViewSheet.Proofs.Relining

namespace ViewSheet

open Text

/-! ## Sizes by construction -/

namespace Scene

/-- The view that construction leaves under a name: a blank one with all properties set, which for
    the names of the root is the container. -/
def constructed? (s : Scene) (name : String) : Option View :=
  if s.isRootName name then
    some (s.definition.puts (·.setterKeys) s.data s.root ViewClass.container.blank)
  else if name ∈ s.nodeNames then
    (s.blankFor name).map (s.definition.puts (·.setterKeys) s.data name)
  else none

/-- The size that construction leaves under a name. -/
def constructedSize? (s : Scene) (name : String) : Option Vec2 :=
  (s.constructed? name).map (·.base.frame.size)

end Scene

/-- A scene that was loaded without views of the host's, and then attached to a new container.
    Whatever the host has done in between, it has left the views of the scene alone. -/
def Definition.FreshlyAttached (d : Definition) (root : String) (data : DataBindings) (s : Scene)
    (w : World) : Prop :=
  ∃ (loaded : Scene) (w₀ w₁ w₂ : World) (host : ViewId),
    d.loadTemplated root data w₀ = (.ok loaded, w₁) ∧
    (∀ name id, loaded.bound? name = some id → id ≠ host ∧ w₂.store.get? id = w₁.store.get? id) ∧
    w₂.store.get? host = some ViewClass.container.blank ∧
    loaded.attach host w₂ = (.ok (), s, w)

/-- Loads a sheet and attaches it to a container that is made for it. -/
def Definition.attachAnew? (d : Definition) (root : String) (data : DataBindings) : Option Moment :=
  match d.loadTemplated root data .empty with
  | (.error _, _) => none
  | (.ok loaded, w) => match loaded.attach w.store.fresh (w.addView ViewClass.container.blank) with
    | (.error _, _, _) => none
    | (.ok (), s, w') => some ⟨s, w'⟩

theorem Definition.freshlyAttached_get {d : Definition} {root : String} {data : DataBindings}
    (h : (d.attachAnew? root data).isSome = true) :
    d.FreshlyAttached root data (Option.get _ h).scene (Option.get _ h).world := by
  generalize hm : Option.get _ h = m
  have h : d.attachAnew? root data = some m := hm ▸ (Option.some_get h).symm
  unfold attachAnew? at h
  rcases hload : d.loadTemplated root data .empty with ⟨e | loaded, w⟩ <;> rw [hload] at h
  · cases h
  · dsimp only at h
    rcases hattach : loaded.attach w.store.fresh (w.addView ViewClass.container.blank) with
      ⟨e | ⟨⟩, s, w'⟩ <;> rw [hattach] at h
    · cases h
    · obtain rfl := Option.some.inj h
      have hloaded := Scene.loaded_of_load (List.forall_mem_nil _) (reporting_ok.mp hload)
      refine ⟨loaded, .empty, w, _, w.store.fresh, hload, fun name id hid => ?_, ?_, hattach⟩
      · have hne := (hloaded.grounded name id hid).ne_fresh
        exact ⟨hne, ViewStore.get?_add_of_ne _ _ hne⟩
      · exact ViewStore.get?_add_fresh _ _

/-! ## Before the last pass -/

namespace Scene

/-- The names that stand for views have sizes. -/
theorem Grounded.isSome_sizeOf {s : Scene} {w : World} (hs : s.Grounded w) (name : String) :
    (s.sizeOf w name).isSome = (s.bound? name).isSome := by
  rw [sizeOf]
  cases hid : s.bound? name with
  | none => rfl
  | some id =>
    obtain ⟨v, hv⟩ := ViewStore.has_iff.mp (hs name id hid)
    rw [Option.bind_some, hv]
    rfl

/-- Hanging a view into another changes no size. -/
theorem size_wireNode (s : Scene) (id : ViewId) (node : Nat) (w : World) :
    ((s.wireNode node w).store.get? id).map (·.base.frame.size) =
      (w.store.get? id).map (·.base.frame.size) := by
  rcases s.wireNode_cases node w with ⟨-, h⟩ | ⟨parent, child, -, ⟨-, hstore, -⟩ | ⟨-, h⟩⟩
  · rw [h]
  · rw [hstore]
  · rw [h]
    dsimp only
    by_cases hid : id = parent
    · subst hid
      rw [ViewStore.get?_attach_self, Option.map_map]
      congr 1
      funext v
      exact congrArg (·.frame.size) (v.base_withBase _)
    · rw [ViewStore.get?_attach_of_ne _ _ hid]

theorem sizeOf_wire (s : Scene) (w : World) : s.sizeOf (s.wire w) = s.sizeOf w := by
  funext name
  have hsize : ∀ id, ((s.wire w).store.get? id).map (·.base.frame.size) =
      (w.store.get? id).map (·.base.frame.size) := fun id =>
    wireNodes_rel (runs_eq fun w => (w.store.get? id).map (·.base.frame.size))
      (s.size_wireNode id) s.hierarchy.breadthFirst w
  rw [sizeOf, sizeOf, funext hsize]

/-- The container gets the properties of the root, and no other view is changed. -/
theorem get?_configureRoot {s : Scene} {w w' : World} (hdoc : s.definition.document.Indexed)
    (hkeeps : s.definition.catalogue.Keeps fun _ t => t.KeepsClass) (hs : s.Grounded w)
    {host : ViewId} (hhost : s.bound? s.root = some host) {blank : View}
    (hblank : w.store.get? host = some blank) (hok : s.configureRoot w = (.ok (), w')) :
    w'.store.get? host = some (s.definition.puts (·.setterKeys) s.data s.root blank) ∧
      ∀ id, id ≠ host → w'.store.get? id = w.store.get? id := by
  unfold configureRoot at hok
  rw [Definition.puts]
  cases hd : s.definition.document.get? s.root with
  | none =>
    rw [hd] at hok
    obtain ⟨-, rfl⟩ := Prod.mk.inj hok
    exact ⟨hblank, fun _ _ => rfl⟩
  | some d =>
    rw [hd] at hok
    dsimp only at hok ⊢
    have hname : s.bound? d.name = some host := by
      rw [(hdoc s.root d hd).named]
      exact hhost
    have hkeys : ∀ key ∈ d.setterKeys, key ∈ d.setterKeys := fun _ hkey => hkey
    have hset := (applyDeclaration_construction hkeeps hs hkeys).2
    have hothers : ∀ id, id ≠ host →
        (s.applyDeclaration .construction d d.setterKeys w).2.store.get? id =
          w.store.get? id := by
      intro id hne
      refine get?_applyDeclaration_of_ne ?_ d.setterKeys w
      rw [hname]
      exact fun h => hne (Option.some.inj h).symm
    rw [hok] at hset hothers
    exact ⟨hset rfl host blank hname hblank, hothers⟩

/-- Without initial views, the names of nodes stand for views as far as they get one. -/
theorem isSome_bound?_of_load {d : Definition} {root : String} {data : DataBindings}
    {s : Scene} {w w' : World} (hload : load d root data [] w = (.ok s, w')) {name : String}
    (hroot : s.isRootName name = false) (hnode : name ∈ s.nodeNames)
    (hblank : (s.blankFor name).isSome = true) : (s.bound? name).isSome = true := by
  obtain ⟨hierarchy, w₁, -, hbuilds, -⟩ := exists_builds_of_load (List.forall_mem_nil _) hload
  rw [hbuilds.isRootName_eq] at hroot
  rw [blankFor_congr hbuilds.definition_eq] at hblank
  exact hbuilds.all name hnode hroot hblank

/-- If the views are as a load has left them, and the container is configured, then the sizes are
    those by construction. -/
theorem sizeOf_withContainer {d : Definition} {root : String} {data : DataBindings}
    {loaded : Scene} {w₀ w₁ w : World} {host : ViewId}
    (hload : load d root data [] w₀ = (.ok loaded, w₁)) (hdressed : loaded.Dressed w₁)
    (hviews : ∀ name id, loaded.bound? name = some id → w.store.get? id = w₁.store.get? id)
    (hhost : w.store.get? host = some
      (loaded.definition.puts (·.setterKeys) loaded.data loaded.root ViewClass.container.blank)) :
    (loaded.withContainer host).sizeOf w = (loaded.withContainer host).constructedSize? := by
  funext name
  rw [sizeOf, constructedSize?, constructed?,
    show (loaded.withContainer host).isRootName name = loaded.isRootName name from rfl]
  cases hname : loaded.isRootName name with
  | true =>
    rw [bound?_withContainer, hname, if_pos rfl, if_pos rfl, Option.bind_some, hhost]
    rfl
  | false =>
    rw [bound?_withContainer, hname, if_neg Bool.false_ne_true, if_neg Bool.false_ne_true]
    cases hid : loaded.bound? name with
    | some id =>
      obtain ⟨blank, hblank, -, hv⟩ := hdressed.views name id hid
      have hnode : name ∈ (loaded.withContainer host).nodeNames := hdressed.nodes name id hid
      rw [Option.bind_some, hviews name id hid, hv, if_pos hnode,
        show (loaded.withContainer host).blankFor name = some blank from hblank]
      rfl
    | none =>
      -- no view was built, so the name is no node's, or its class is refused
      split
      · rename_i hnode
        cases hblank : (loaded.withContainer host).blankFor name with
        | none => rfl
        | some blank =>
          have hsome := isSome_bound?_of_load hload hname hnode
            (Option.isSome_of_eq_some (show loaded.blankFor name = some blank from hblank))
          rw [hid] at hsome
          cases hsome
      · rfl

/-- A scene that hangs in its container, with the sizes by construction. -/
structure Standing (s : Scene) (w : World) : Prop where
  grounded : s.Grounded w
  /-- Only the names of the root stand for one view together. -/
  apart : ∀ a b id, s.bound? a = some id → s.bound? b = some id →
    a = b ∨ s.isRootName a = true ∧ s.isRootName b = true
  roots : ∀ a b, s.isRootName a = true → s.isRootName b = true → s.bound? a = s.bound? b
  sizes : s.sizeOf w = s.constructedSize?

/-- A new container is configured. -/
theorem standing_of_configureRoot {d : Definition} {root : String} {data : DataBindings}
    {loaded : Scene} {w₀ w₁ w₂ w₃ : World} {host : ViewId} (hdoc : d.document.Indexed)
    (hkeeps : d.catalogue.Keeps fun _ t => t.KeepsClass)
    (hload : load d root data [] w₀ = (.ok loaded, w₁))
    (hviews : ∀ name id, loaded.bound? name = some id →
      id ≠ host ∧ w₂.store.get? id = w₁.store.get? id)
    (hblank : w₂.store.get? host = some ViewClass.container.blank)
    (hok : (loaded.withContainer host).configureRoot w₂ = (.ok (), w₃)) :
    (loaded.withContainer host).Standing w₃ := by
  have hloaded := loaded_of_load (List.forall_mem_nil _) hload
  have hdressed := dressed_of_load hdoc hkeeps hload
  obtain rfl := hloaded.definition
  have hgrounded : (loaded.withContainer host).Grounded w₂ := by
    refine grounded_withContainer (fun name id hid => ?_) (ViewStore.has_iff.mpr ⟨_, hblank⟩)
    obtain ⟨v, hv⟩ := ViewStore.has_iff.mp (hloaded.grounded name id hid)
    exact ViewStore.has_iff.mpr ⟨v, (hviews name id hid).2.trans hv⟩
  have hsize := (loaded.withContainer host).size_configureRoot w₂
  rw [hok] at hsize
  have hroots : ∀ name, loaded.isRootName name = true →
      (loaded.withContainer host).bound? name = some host := by
    intro name hname
    rw [bound?_withContainer, if_pos hname]
  obtain ⟨hhost, hrest⟩ := get?_configureRoot (s := loaded.withContainer host) hdoc hkeeps
    hgrounded (hroots loaded.root (by simp [isRootName])) hblank hok
  refine ⟨hgrounded.of_size hsize, fun a b id ha hb => ?_, fun a b ha hb => ?_,
    sizeOf_withContainer hload hdressed (fun name id hid => ?_) hhost⟩
  · rw [bound?_withContainer] at ha hb
    split at ha <;> rename_i hra <;> split at hb <;> rename_i hrb
    · exact Or.inr ⟨hra, hrb⟩
    · exact absurd (Option.some.inj ha).symm (hviews b id hb).1
    · exact absurd (Option.some.inj hb).symm (hviews a id ha).1
    · exact Or.inl (hdressed.apart a b id ha hb)
  · exact (hroots a ha).trans (hroots b hb).symm
  · exact (hrest id (hviews name id hid).1).trans (hviews name id hid).2

theorem Standing.wire {s : Scene} {w : World} (h : s.Standing w) : s.Standing (s.wire w) where
  grounded := h.grounded.of_size (s.extends_wireNodes s.hierarchy.breadthFirst w).size
  apart := h.apart
  roots := h.roots
  sizes := (s.sizeOf_wire w).trans h.sizes

end Scene

/-- **What is there before the last pass**, and what the pass does to it. -/
theorem Definition.FreshlyAttached.exists_standing {d : Definition} {root : String}
    {data : DataBindings} {s : Scene} {w : World} (h : d.FreshlyAttached root data s w)
    (hstock : d.catalogue = .stock) (hdoc : d.document.Indexed) :
    s.definition = d ∧ s.root = root ∧ s.data = data ∧
      ∃ w₁, s.Standing w₁ ∧ s.Copied s.links w₁ w ∧ s.Grounded w := by
  obtain ⟨loaded, w₀, w₁, w₂, host, hload, hviews, hblank, hattach⟩ := h
  have hload := reporting_ok.mp hload
  have hloaded := Scene.loaded_of_load (List.forall_mem_nil _) hload
  have hkeeps : d.catalogue.Keeps fun _ t => t.KeepsClass := by
    rw [hstock]
    exact Catalogue.plain_stock.imp fun _ _ h => h.keepsClass
  have hfree : (loaded.bound? rootName).isNone = true := by
    rw [hloaded.unattached rootName (by simp [Scene.isRootName])]
    rfl
  rcases loaded.attach_cases host w₂ with ⟨w₃, hsettle, heq⟩ | ⟨e, w₃, events, -, heq⟩ <;>
    rw [hattach] at heq
  · rw [Prod.mk.injEq, Prod.mk.injEq] at heq
    obtain ⟨-, rfl, rfl⟩ := heq
    rw [hfree, Scene.settle] at hsettle
    rcases hroot : (loaded.withContainer host).configureRoot w₂ with ⟨e | ⟨⟩, w₄⟩ <;>
      rw [hroot] at hsettle
    · cases hsettle
    · have happly : (loaded.withContainer host).applyAll .attached
          ((loaded.withContainer host).wire w₄) = (.ok (), w) := hsettle
      have hstanding :=
        (Scene.standing_of_configureRoot hdoc hkeeps hload hviews hblank hroot).wire
      obtain rfl := hloaded.definition
      have hcopied := Scene.copied_applyAll (s := loaded.withContainer host) hstock
        hstanding.grounded hdoc happly
      have hsize := (loaded.withContainer host).size_applyEach .attached
        (loaded.withContainer host).configured ((loaded.withContainer host).wire w₄)
      rw [← Scene.applyAll, happly] at hsize
      -- the state of the scene plays no part in any of this
      exact ⟨rfl, hloaded.root, hloaded.data, _,
        ⟨hstanding.grounded, hstanding.apart, hstanding.roots, hstanding.sizes⟩, hcopied,
        hstanding.grounded.of_size hsize⟩
  · cases heq

/-! ## Comparing scenes by their texts -/

namespace Definition

/-- The name to take a size over from depends on the text of the property alone. -/
theorem sizeSource?_texts (d : Definition) (data : DataBindings) (name : String) :
    d.sizeSource? data name =
      (NameMap.find "matchSize" (d.document.texts name)).bind fun value =>
        referred? (fill data value) := by
  rw [sizeSource?, Document.texts]
  cases d.document.get? name with
  | none => rfl
  | some decl =>
    have hfilled := decl.filled?_texts data "matchSize"
    rw [Option.bind_some, Option.map_some, Option.getD_some, Declaration.sizeSource?]
    calc (decl.filled? "matchSize" data).bind (fun p => referred? p.value)
        = ((decl.filled? "matchSize" data).map (·.value)).bind referred? := by
          cases decl.filled? "matchSize" data <;> rfl
      _ = _ := by
          rw [hfilled]
          cases NameMap.find "matchSize" decl.texts <;> rfl

end Definition

namespace Scene

theorem mem_links {s : Scene} {m A : String} : (m, A) ∈ s.links ↔ (m ∈ s.nodeNames ∨ m = s.root) ∧
    (s.bound? m).isSome = true ∧ s.definition.sizeSource? s.data m = some A := by
  rw [links, List.mem_filterMap, ← mem_declaredNames]
  constructor
  · rintro ⟨name, hname, hlink⟩
    rw [link] at hlink
    split at hlink
    · rename_i hbound
      obtain ⟨source, hsource, heq⟩ := Option.map_eq_some_iff.mp hlink
      obtain ⟨rfl, rfl⟩ := Prod.mk.inj heq
      exact ⟨hname, hbound, hsource⟩
    · cases hlink
  · rintro ⟨hname, hbound, hsource⟩
    refine ⟨m, hname, ?_⟩
    rw [link, if_pos hbound, hsource]
    rfl

/-- Two scenes with the same names and the same texts. -/
structure SameTexts (s t : Scene) : Prop where
  stock : s.definition.catalogue = .stock ∧ t.definition.catalogue = .stock
  root : t.root = s.root
  data : t.data = s.data
  nodes : ∀ name, name ∈ t.nodeNames ↔ name ∈ s.nodeNames
  texts : ∀ name, t.definition.document.texts name = s.definition.document.texts name

namespace SameTexts

variable {s t : Scene} (h : s.SameTexts t)
include h

theorem isRootName (name : String) : t.isRootName name = s.isRootName name := by
  rw [Scene.isRootName, Scene.isRootName, h.root]

theorem blankFor (name : String) : t.blankFor name = s.blankFor name := by
  unfold Scene.blankFor classFor
  rw [h.stock.1, h.stock.2, Document.className?_texts, Document.className?_texts, h.texts]

theorem constructed? (name : String) : t.constructed? name = s.constructed? name := by
  have hlineless : ∀ r : Scene, r.definition.catalogue = .stock →
      r.definition.catalogue.Keeps fun _ setter => Scan.Lineless setter.scan :=
    fun r hr => hr ▸ Catalogue.lineless_stock
  have hputs : ∀ name v, t.definition.puts (·.setterKeys) t.data name v =
      s.definition.puts (·.setterKeys) s.data name v := by
    intro name v
    rw [Definition.puts_texts (hlineless t h.stock.2),
      Definition.puts_texts (hlineless s h.stock.1), h.stock.1, h.stock.2, h.texts, h.data]
  rw [Scene.constructed?, Scene.constructed?, h.isRootName, h.root, hputs, h.blankFor,
    funext (hputs name)]
  simp only [h.nodes]

theorem constructedSize? (name : String) : t.constructedSize? name = s.constructedSize? name := by
  rw [Scene.constructedSize?, Scene.constructedSize?, h.constructed?]

theorem sizeSource? (name : String) : t.definition.sizeSource? t.data name =
    s.definition.sizeSource? s.data name := by
  rw [Definition.sizeSource?_texts, Definition.sizeSource?_texts, h.texts, h.data]

end SameTexts

namespace Standing

variable {s t : Scene} {w u : World}

theorem isSome_bound? (h : s.Standing w) (name : String) :
    (s.bound? name).isSome = (s.constructed? name).isSome := by
  rw [← h.grounded.isSome_sizeOf, h.sizes, constructedSize?, Option.isSome_map]

/-- Whether two names stand for one view can be told from the names. -/
theorem bound?_eq_iff (h : s.Standing w) (a b : String) : s.bound? a = s.bound? b ↔ a = b ∨
    (s.isRootName a = true ∧ s.isRootName b = true) ∨
    (s.constructed? a = none ∧ s.constructed? b = none) := by
  rw [← Option.not_isSome_iff_eq_none, ← Option.not_isSome_iff_eq_none, ← h.isSome_bound?,
    ← h.isSome_bound?, Option.not_isSome_iff_eq_none, Option.not_isSome_iff_eq_none]
  constructor
  · intro hsame
    cases ha : s.bound? a with
    | none => exact Or.inr (Or.inr ⟨rfl, hsame ▸ ha⟩)
    | some id =>
      rcases h.apart a b id ha (hsame ▸ ha) with hnames | hroots
      · exact Or.inl hnames
      · exact Or.inr (Or.inl hroots)
  · rintro (rfl | ⟨ha, hb⟩ | ⟨ha, hb⟩)
    · rfl
    · exact h.roots a b ha hb
    · rw [ha, hb]

/-- In scenes with the same texts the same names stand for one view. -/
theorem bound?_eq_congr (hs : s.Standing w) (ht : t.Standing u) (h : s.SameTexts t) (a b : String) :
    t.bound? a = t.bound? b ↔ s.bound? a = s.bound? b := by
  rw [hs.bound?_eq_iff, ht.bound?_eq_iff, h.isRootName, h.isRootName, h.constructed?,
    h.constructed?]

theorem mem_links_congr (hs : s.Standing w) (ht : t.Standing u) (h : s.SameTexts t)
    (l : String × String) : l ∈ t.links ↔ l ∈ s.links := by
  obtain ⟨m, A⟩ := l
  rw [mem_links, mem_links, h.nodes, h.root, hs.isSome_bound?, ht.isSome_bound?, h.constructed?,
    h.sizeSource?]

end Standing

/-! ## After the last pass -/

/-- What the sizes are in the end, and which references are kept. -/
structure Matched (s : Scene) (w : World) : Prop where
  /-- A node or the root that has a view hands its reference over. -/
  mem_iff : ∀ m A, (m, A) ∈ s.links ↔ (m ∈ s.nodeNames ∨ m = s.root) ∧
    (s.bound? m).isSome = true ∧ s.definition.sizeSource? s.data m = some A
  /-- Every such reference goes to a view. -/
  found : ∀ l ∈ s.links, (s.bound? l.2).isSome = true
  /-- From the sizes by construction on, the references have been followed in their order. -/
  followed : s.sizeOf w = s.copySizes s.links s.constructedSize?
  /-- A reference is kept unless one of its views is resized later. -/
  kept : ∀ before m A after, s.links = before ++ (m, A) :: after →
    (∀ l ∈ after, s.bound? l.1 ≠ s.bound? m ∧ s.bound? l.1 ≠ s.bound? A) →
    ∃ size, s.sizeOf w m = some size ∧ s.sizeOf w A = some size
  /-- What is taken over from a view that is not resized earlier is its size by construction. -/
  early : ∀ before m A after, s.links = before ++ (m, A) :: after →
    (∀ l ∈ before, s.bound? l.1 ≠ s.bound? A) → (∀ l ∈ after, s.bound? l.1 ≠ s.bound? m) →
    s.sizeOf w m = s.constructedSize? A
  /-- A view that no reference is for has the size that it had by construction. -/
  untouched : ∀ name, (∀ l ∈ s.links, s.bound? l.1 ≠ s.bound? name) →
    s.sizeOf w name = s.constructedSize? name

theorem Standing.matched {s : Scene} {w₁ w : World} (h : s.Standing w₁)
    (hcopied : s.Copied s.links w₁ w) (hs : s.Grounded w) : s.Matched w := by
  have hfollowed : s.sizeOf w = s.copySizes s.links s.constructedSize? := by
    rw [hcopied.1, h.sizes]
  refine ⟨fun _ _ => mem_links, hcopied.2, hfollowed, ?_, ?_, ?_⟩
  · intro before m A after hsplit hafter
    have hlink : (m, A) ∈ s.links := hsplit ▸ List.mem_append_right before List.mem_cons_self
    have hsome : (s.sizeOf w m).isSome = true := by
      rw [hs.isSome_sizeOf]
      exact (mem_links.mp hlink).2.1
    obtain ⟨size, hsize⟩ := Option.isSome_iff_exists.mp hsome
    have heq : s.sizeOf w m = s.sizeOf w A := by
      rw [hfollowed, hsplit]
      exact copySizes_eq rfl hafter
    exact ⟨size, hsize, heq ▸ hsize⟩
  · intro before m A after hsplit hbefore hafter
    rw [hfollowed, hsplit, copySizes_taken hafter, copySizes_of_ne hbefore]
  · intro name hnone
    rw [hfollowed, copySizes_of_ne hnone]

/-- In scenes with the same texts, sizes that are settled are the same. -/
theorem Standing.sizeOf_congr {s t : Scene} {w₁ w u₁ u : World} (hs : s.Standing w₁)
    (ht : t.Standing u₁) (hmatched : s.Matched w) (tmatched : t.Matched u) (h : s.SameTexts t)
    {name : String} (hsettled : s.SizeSettled s.links name)
    (tsettled : t.SizeSettled t.links name) : t.sizeOf u name = s.sizeOf w name := by
  rw [tmatched.followed, hmatched.followed, funext h.constructedSize?]
  exact hsettled.copySizes_congr (hs.bound?_eq_congr ht h) (hs.mem_links_congr ht h) tsettled

end Scene

/-- **References are kept as far as the order allows.**  In a scene that was loaded and attached to
    a new container, a view has the size of the one it refers to unless one of the two is resized
    later.  A size that is settled does not depend on the order of the nodes. -/
theorem matched_of_freshlyAttached {d : Definition} {root : String} {data : DataBindings}
    {s : Scene} {w : World} (hstock : d.catalogue = .stock) (hdoc : d.document.Reachable)
    (h : d.FreshlyAttached root data s w) :
    s.Matched w ∧
    ∀ (d' : Definition) (s' : Scene) (w' : World), d'.catalogue = .stock → d'.document.Reachable →
      (∀ name, d'.document.texts name = d.document.texts name) →
      d'.FreshlyAttached root data s' w' → (∀ name, name ∈ s'.nodeNames ↔ name ∈ s.nodeNames) →
      ∀ name, s.SizeSettled s.links name → s'.SizeSettled s'.links name →
        s'.sizeOf w' name = s.sizeOf w name := by
  obtain ⟨rfl, hroot, hdata, w₁, hstanding, hcopied, hgrounded⟩ :=
    h.exists_standing hstock hdoc.indexed
  have hmatched := hstanding.matched hcopied hgrounded
  refine ⟨hmatched, fun d' s' w' hstock' hdoc' htexts h' hnodes name hsettled hsettled' => ?_⟩
  obtain ⟨rfl, hroot', hdata', u₁, hstanding', hcopied', hgrounded'⟩ :=
    h'.exists_standing hstock' hdoc'.indexed
  have hsame : s.SameTexts s' := ⟨⟨hstock, hstock'⟩, hroot'.trans hroot.symm,
    hdata'.trans hdata.symm, hnodes, htexts⟩
  exact hstanding.sizeOf_congr hstanding' hmatched (hstanding'.matched hcopied' hgrounded') hsame
    hsettled hsettled'

/-! ## A chain of references -/

/-- `B` takes over the size of `C`, and `C` and `E` that of `D`. -/
def chained (nodes : String) : Definition where
  document := (parseInto (.empty "sheet") ("Main:\n" ++ nodes ++ "B:\n  .matchSize = C\n"
    ++ "C:\n  .matchSize = D\nD:\n  .size = \x7b7, 7\x7d\nE:\n  .matchSize = D\n")).document
  catalogue := .stock
  listener := none

theorem reachable_chained (nodes : String) : (chained nodes).document.Reachable := by
  unfold chained
  dsimp only
  exact .parse (.empty "sheet") _

/-- Each view comes after the one that it refers to. -/
def forwards : Definition := chained "  D\n  E\n  C\n  B\n"

/-- So it does here, where `B` is a level below the others. -/
def levelled : Definition := chained "  D\n    B\n  C\n  E\n"

theorem isSome_forwards : (forwards.attachAnew? "Main" .empty).isSome = true := by
  decide +kernel

theorem isSome_levelled : (levelled.attachAnew? "Main" .empty).isSome = true := by
  decide +kernel

/-- The moment after the attach call. -/
def attachedForwards : Moment := Option.get _ isSome_forwards

/-- The moment after the attach call. -/
def attachedLevelled : Moment := Option.get _ isSome_levelled

theorem chained_computed :
    (levelled.document.declarations.entries.map fun p => (p.1, p.2.texts)) =
      (forwards.document.declarations.entries.map fun p => (p.1, p.2.texts)) ∧
    attachedForwards.scene.links = [("E", "D"), ("C", "D"), ("B", "C")] ∧
    attachedLevelled.scene.links = [("C", "D"), ("E", "D"), ("B", "C")] ∧
    attachedForwards.scene.nodeNames = ["D", "E", "C", "B"] ∧
    attachedLevelled.scene.nodeNames = ["D", "C", "E", "B"] ∧
    attachedForwards.scene.settles attachedForwards.scene.links 3 "B" = true ∧
    attachedLevelled.scene.settles attachedLevelled.scene.links 3 "B" = true ∧
    attachedForwards.scene.sizeOf attachedForwards.world "B" = some ⟨.ofNat 7, .ofNat 7⟩ := by
  decide +kernel

/-- In both orders `B` gets the size of `D`, by way of `C`. -/
theorem matched_of_freshlyAttached_forwards :
    (∀ name, levelled.document.texts name = forwards.document.texts name) ∧
    attachedForwards.scene.links = [("E", "D"), ("C", "D"), ("B", "C")] ∧
    attachedLevelled.scene.links = [("C", "D"), ("E", "D"), ("B", "C")] ∧
    attachedForwards.scene.SizeSettled attachedForwards.scene.links "B" ∧
    attachedLevelled.scene.SizeSettled attachedLevelled.scene.links "B" ∧
    attachedForwards.scene.Matched attachedForwards.world ∧
    attachedForwards.scene.sizeOf attachedForwards.world "B" = some ⟨.ofNat 7, .ofNat 7⟩ ∧
    attachedLevelled.scene.sizeOf attachedLevelled.world "B" =
      attachedForwards.scene.sizeOf attachedForwards.world "B" := by
  obtain ⟨hentries, hlinks, hlinks', hnodes, hnodes', hsettles, hsettles', hsize⟩ :=
    chained_computed
  have htexts : ∀ name, levelled.document.texts name = forwards.document.texts name := by
    intro name
    rw [Document.texts_eq, Document.texts_eq, hentries]
  have hsame : ∀ name, name ∈ attachedLevelled.scene.nodeNames ↔
      name ∈ attachedForwards.scene.nodeNames := by
    intro name
    rw [hnodes, hnodes']
    exact List.Perm.mem_iff (by decide)
  have hsettled := Scene.sizeSettled_of_settles hsettles
  have hsettled' := Scene.sizeSettled_of_settles hsettles'
  obtain ⟨hmatched, horder⟩ := matched_of_freshlyAttached (d := forwards) rfl (reachable_chained _)
    (Definition.freshlyAttached_get isSome_forwards)
  exact ⟨htexts, hlinks, hlinks', hsettled, hsettled', hmatched, hsize,
    horder levelled _ _ rfl (reachable_chained _) htexts
      (Definition.freshlyAttached_get isSome_levelled) hsame "B" hsettled hsettled'⟩

/-! ## References that are not kept -/

/-- References that go to views, to others than their own, and not in circles. -/
structure Definition.PlainReferences (d : Definition) (data : DataBindings) (s : Scene) : Prop where
  apart : ∀ m A, d.sizeSource? data m = some A →
    (s.bound? A).isSome = true ∧ s.bound? A ≠ s.bound? m
  acyclic : ∃ rank : String → Nat, ∀ m A, d.sizeSource? data m = some A → rank A < rank m

/-- The references of all declarations, with the names that have them. -/
def Definition.references (d : Definition) (data : DataBindings) : List (String × String) :=
  d.document.declarations.entries.filterMap fun p => (p.2.sizeSource? data).map (p.1, ·)

theorem Definition.plainReferences_of_references {d : Definition} {data : DataBindings} {s : Scene}
    (rank : String → Nat) (h : ∀ l ∈ d.references data,
      (s.bound? l.2).isSome = true ∧ s.bound? l.2 ≠ s.bound? l.1 ∧ rank l.2 < rank l.1) :
    d.PlainReferences data s := by
  have hmem : ∀ m A, d.sizeSource? data m = some A → (m, A) ∈ d.references data := by
    intro m A hsource
    obtain ⟨decl, hdecl, hsource⟩ := Option.bind_eq_some_iff.mp hsource
    exact List.mem_filterMap.mpr ⟨(m, decl), NameMap.mem_of_get? hdecl, by rw [hsource]; rfl⟩
  exact ⟨fun m A hsource => ⟨(h _ (hmem m A hsource)).1, (h _ (hmem m A hsource)).2.1⟩, rank,
    fun m A hsource => (h _ (hmem m A hsource)).2.2⟩

/-- Each view comes before the one that it refers to. -/
def backwards : Definition := chained "  B\n  C\n  D\n  E\n"

theorem isSome_backwards : (backwards.attachAnew? "Main" .empty).isSome = true := by
  decide +kernel

/-- The moment after the attach call. -/
def attachedBackwards : Moment := Option.get _ isSome_backwards

/-- How far the names on these sheets are from one with a size of its own. -/
def chainRank (name : String) : Nat := if name = "D" then 0 else if name = "B" then 2 else 1

theorem backwards_computed :
    (backwards.document.declarations.entries.map fun p => (p.1, p.2.texts)) =
      (forwards.document.declarations.entries.map fun p => (p.1, p.2.texts)) ∧
    (∀ l ∈ backwards.references .empty, (attachedBackwards.scene.bound? l.2).isSome = true ∧
      attachedBackwards.scene.bound? l.2 ≠ attachedBackwards.scene.bound? l.1 ∧
      chainRank l.2 < chainRank l.1) ∧
    backwards.sizeSource? .empty "B" = some "C" ∧
    (attachedBackwards.scene.bound? "B").isSome = true ∧
    attachedBackwards.scene.nodeNames = ["B", "C", "D", "E"] ∧
    attachedForwards.scene.nodeNames = ["D", "E", "C", "B"] ∧
    attachedBackwards.scene.sizeOf attachedBackwards.world "B" ≠
      attachedBackwards.scene.sizeOf attachedBackwards.world "C" ∧
    attachedBackwards.scene.sizeOf attachedBackwards.world "B" ≠
      attachedForwards.scene.sizeOf attachedForwards.world "B" := by
  decide +kernel

/-- What is stated for the root's other name, which is no node here, is not handed over. -/
def overlooked : Definition where
  document := (parseInto (.empty "sheet")
    "Main:\n  B\n$root:\n  .matchSize = B\nB:\n  .size = \x7b7, 7\x7d\n").document
  catalogue := .stock
  listener := none

theorem reachable_overlooked : overlooked.document.Reachable := by
  unfold overlooked
  dsimp only
  exact .parse (.empty "sheet") _

theorem isSome_overlooked : (overlooked.attachAnew? "Main" .empty).isSome = true := by
  decide +kernel

/-- The moment after the attach call. -/
def attachedOverlooked : Moment := Option.get _ isSome_overlooked

theorem overlooked_computed :
    (∀ l ∈ overlooked.references .empty, (attachedOverlooked.scene.bound? l.2).isSome = true ∧
      attachedOverlooked.scene.bound? l.2 ≠ attachedOverlooked.scene.bound? l.1 ∧
      l.2.length < l.1.length) ∧
    overlooked.sizeSource? .empty rootName = some "B" ∧
    (attachedOverlooked.scene.bound? rootName).isSome = true ∧
    attachedOverlooked.scene.sizeOf attachedOverlooked.world rootName ≠
      attachedOverlooked.scene.sizeOf attachedOverlooked.world "B" := by
  decide +kernel

/-- With the nodes in one order `B` does not get the size of `C`, and with the nodes in the other it
    gets another size; and a root's other name does not get the size of `B` either. -/
theorem exists_reference_not_kept :
    (backwards.catalogue = .stock ∧ backwards.document.Reachable ∧
      backwards.FreshlyAttached "Main" .empty attachedBackwards.scene attachedBackwards.world ∧
      backwards.PlainReferences .empty attachedBackwards.scene ∧
      backwards.sizeSource? .empty "B" = some "C" ∧
      (attachedBackwards.scene.bound? "B").isSome = true ∧
      attachedBackwards.scene.sizeOf attachedBackwards.world "B" ≠
        attachedBackwards.scene.sizeOf attachedBackwards.world "C") ∧
    (forwards.catalogue = .stock ∧ forwards.document.Reachable ∧
      (∀ name, backwards.document.texts name = forwards.document.texts name) ∧
      (∀ name, name ∈ attachedBackwards.scene.nodeNames ↔
        name ∈ attachedForwards.scene.nodeNames) ∧
      forwards.FreshlyAttached "Main" .empty attachedForwards.scene attachedForwards.world ∧
      attachedBackwards.scene.sizeOf attachedBackwards.world "B" ≠
        attachedForwards.scene.sizeOf attachedForwards.world "B") ∧
    overlooked.catalogue = .stock ∧ overlooked.document.Reachable ∧
      overlooked.FreshlyAttached "Main" .empty attachedOverlooked.scene attachedOverlooked.world ∧
      overlooked.PlainReferences .empty attachedOverlooked.scene ∧
      overlooked.sizeSource? .empty rootName = some "B" ∧
      (attachedOverlooked.scene.bound? rootName).isSome = true ∧
      attachedOverlooked.scene.sizeOf attachedOverlooked.world rootName ≠
        attachedOverlooked.scene.sizeOf attachedOverlooked.world "B" := by
  obtain ⟨hentries, hplain, hsource, hbound, hnodes, hnodes', hkept, horder⟩ := backwards_computed
  obtain ⟨oplain, osource, obound, okept⟩ := overlooked_computed
  have htexts : ∀ name, backwards.document.texts name = forwards.document.texts name := by
    intro name
    rw [Document.texts_eq, Document.texts_eq, hentries]
  have hsame : ∀ name, name ∈ attachedBackwards.scene.nodeNames ↔
      name ∈ attachedForwards.scene.nodeNames := by
    intro name
    rw [hnodes, hnodes']
    exact List.Perm.mem_iff (by decide)
  exact ⟨⟨rfl, reachable_chained _, Definition.freshlyAttached_get isSome_backwards,
      Definition.plainReferences_of_references chainRank hplain, hsource, hbound, hkept⟩,
    ⟨rfl, reachable_chained _, htexts, hsame, Definition.freshlyAttached_get isSome_forwards,
      horder⟩,
    rfl, reachable_overlooked, Definition.freshlyAttached_get isSome_overlooked,
    Definition.plainReferences_of_references String.length oplain, osource, obound, okept⟩

end ViewSheet
