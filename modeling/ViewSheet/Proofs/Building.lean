/-
  Building: a load builds exactly the views that are allowed.

  1. **Program**: `load` goes through the names of the hierarchy, looks up the class of each, asks
     the catalogue whether it may be built, and then hands all properties over.

  2. **Specification**: `Built` says which name stands for which view, by the document, the
     catalogue and the initial views alone.  A name with initial views has the last of them.  Any
     other has a new view of its class if the class descends from the base class and is not
     abstract, and no view else.

  3. **The crux**: names may stand in the hierarchy several times.  The lemmas on `Builds` say that
     a name is built once and keeps its view; that no view is left over is shown along the same walk
     (`exists_name_of_new`).

  4. **Result** (`load_built`): whatever is refused, all views are built before the first setter
     runs.  The setters of a name without a view have no turns, so a load fails only with the turn
     of a name that has one.
-/
import Mathlib.Data.List.Induction
import ViewSheet.Proofs.Ancestry
import ViewSheet.Proofs.StockSetters
import ViewSheet.Proofs.Turns

namespace ViewSheet

/-! ## What is allowed -/

/-- The last of the views that are handed in for a name. -/
def given? (views : List (String × ViewId)) (name : String) : Option ViewId :=
  (views.reverse.find? fun p => p.1 = name).map (·.2)

namespace Definition

/-- The class of a name's view: the declared one if it is registered, and the base class otherwise.
    The text of the class is taken as it is written. -/
def classOf (d : Definition) (name : String) : String :=
  match (d.document.get? name).bind (·.property? "class") with
  | some p => if (d.catalogue.classes.get? p.value).isSome then p.value else Catalogue.baseClass
  | none => Catalogue.baseClass

/-- The view that a name's view starts as, if its class descends from the base class and is not
    abstract. -/
def Allows (d : Definition) (name : String) (v : View) : Prop :=
  d.catalogue.Descends (d.classOf name) Catalogue.baseClass ∧
    d.catalogue.instantiate? (d.classOf name) = some v

end Definition

namespace Scene

theorem classFor_eq (s : Scene) (name : String) :
    (s.classFor name).2 = s.definition.classOf name := by
  unfold classFor Definition.classOf
  cases s.definition.document.get? name with
  | none => rfl
  | some d =>
    rw [Option.bind_some, Option.bind_some, Declaration.className?]
    -- the key of the class is `class`
    rw [show Declaration.classKey = "class" from rfl]
    cases d.property? "class" with
    | none => rfl
    | some p =>
      rw [Option.map_some]
      dsimp only
      rw [Catalogue.hasClass, NameMap.contains]
      split <;> rfl

theorem blankFor_eq_some_iff {s : Scene} {name : String} {v : View} :
    s.blankFor name = some v ↔ s.definition.Allows name v := by
  rw [blankFor, classFor_eq, Definition.Allows, ← Catalogue.isSubclass_iff]
  split
  · rename_i hdescends
    exact (and_iff_right hdescends).symm
  · rename_i hnot
    exact iff_of_false (by rintro ⟨⟩) fun h => hnot h.1

end Scene

/-- Of several pairs for one name the last counts. -/
theorem NameMap.get?_ofList {ν : Type} (pairs : List (String × ν)) (name : String) :
    (NameMap.ofList pairs).get? name = (pairs.reverse.find? fun p => p.1 = name).map (·.2) := by
  induction pairs using List.reverseRecOn with
  | nil => rfl
  | append_singleton front p ih =>
    rw [NameMap.ofList, List.foldl_append, List.foldl_cons, List.foldl_nil, NameMap.get?_insert,
      List.reverse_append, List.reverse_singleton, List.singleton_append, List.find?_cons]
    by_cases hname : name = p.1
    · simp [hname]
    · rw [if_neg hname]
      simpa [ofList, Ne.symm hname] using ih

theorem get?_ofList_views (views : List (String × ViewId)) (name : String) :
    (NameMap.ofList (views.map fun (name, id) => (name, some id))).get? name =
      (given? views name).map some := by
  rw [NameMap.get?_ofList, given?, ← List.map_reverse, List.find?_map, Option.map_map,
    Option.map_map]
  rfl

theorem Hierarchy.WellFormed.mem_names_iff {h : Hierarchy} (hwf : h.WellFormed) {name : String} :
    name ∈ h.names ↔ name ∈ h.breadthFirst.map h.nameOf := by
  constructor
  · intro hname
    obtain ⟨n, hmem, rfl⟩ := List.mem_map.mp hname
    obtain ⟨i, hn⟩ := List.mem_iff_getElem?.mp hmem
    have hlt : i + 1 < h.size := Nat.succ_lt_succ (List.getElem?_eq_some_iff.mp hn).1
    -- the root is no node of the list, so the node is among those visited
    have hvisited := (hwf.isVisited hlt).resolve_left (Nat.succ_ne_zero i)
    refine List.mem_map.mpr ⟨i + 1, hvisited, ?_⟩
    have hnode : h.node? (i + 1) = some n := hn
    rw [Hierarchy.nameOf, hnode]
  · intro hname
    obtain ⟨node, hnode, rfl⟩ := List.mem_map.mp hname
    exact nameOf_mem_names hnode

namespace Scene

/-! ## What is built -/

/-- **The views that are built**, before any setter has a turn. -/
structure Built (d : Definition) (hierarchy : Hierarchy) (views : List (String × ViewId))
    (w : World) (s : Scene) (w₁ : World) : Prop where
  definition_eq : s.definition = d
  hierarchy_eq : s.hierarchy = hierarchy
  /-- A name with initial views stands for the last of them. -/
  given : ∀ name ∈ hierarchy.names, s.isRootName name = false → ∀ id,
    given? views name = some id → s.bound? name = some id
  /-- Any other name stands for a view exactly if its class is allowed. -/
  allowed : ∀ name ∈ hierarchy.names, s.isRootName name = false → given? views name = none →
    ((s.bound? name).isSome ↔ d.catalogue.Descends (d.classOf name) Catalogue.baseClass ∧
      (d.catalogue.instantiate? (d.classOf name)).isSome)
  /-- Such a view is a new one of the class. -/
  new : ∀ name ∈ hierarchy.names, s.isRootName name = false → given? views name = none →
    ∀ id, s.bound? name = some id → ¬ w.store.Has id ∧
      ∃ v, d.catalogue.instantiate? (d.classOf name) = some v ∧ w₁.store.get? id = some v
  /-- Distinct names have distinct new views. -/
  apart : ∀ a b id, s.bound? a = some id → s.bound? b = some id → ¬ w.store.Has id → a = b
  /-- There are no other new views. -/
  named : ∀ id, w₁.store.Has id → ¬ w.store.Has id → ∃ name ∈ hierarchy.names,
    s.isRootName name = false ∧ s.bound? name = some id
  /-- Views that were there are as before. -/
  old : ∀ id, w.store.Has id → w₁.store.get? id = w.store.get? id

/-- Every new view has a name. -/
theorem exists_name_of_new (names : List String) {s : Scene} {w : World} (hs : s.Grounded w)
    {id : ViewId} (hid : (buildNames names s w).2.store.Has id) (hnew : ¬ w.store.Has id) :
    ∃ name ∈ names, s.isRootName name = false ∧
      (buildNames names s w).1.bound? name = some id := by
  induction names generalizing s w with
  | nil => exact absurd hid hnew
  | cons name rest ih =>
    have hbuilds := builds_buildName name hs
    have hground := hbuilds.grounded hs
    by_cases hthere : (s.buildName name w).2.store.Has id
    · -- the first name has made the view, and keeps it
      obtain ⟨w₁, hretold, ⟨-, h⟩ | ⟨hroot, -, v, -, h⟩⟩ := s.buildName_cases name w
      · rw [h, hretold.1] at hthere
        exact absurd hthere hnew
      · have hfresh : id = w.store.fresh := by
          rw [h, World.store_addView, hretold.1] at hthere
          refine Decidable.byContradiction fun hne => hnew ?_
          obtain ⟨u, hu⟩ := ViewStore.has_iff.mp hthere
          rw [ViewStore.get?_add_of_ne _ _ hne] at hu
          exact ViewStore.has_iff.mpr ⟨u, hu⟩
        refine ⟨name, List.mem_cons_self, hroot, ?_⟩
        refine (builds_buildNames rest hground).kept name id ?_
        rw [h, bound?_insert, if_pos rfl, hfresh]
    · obtain ⟨other, hmem, hroot, hbound⟩ := ih hground hid hthere
      rw [hbuilds.isRootName_eq] at hroot
      exact ⟨other, List.mem_cons_of_mem name hmem, hroot, hbound⟩

/-- **Building the names of a hierarchy builds what is allowed.** -/
theorem built_of_buildNames {d : Definition} {root : String} {hierarchy : Hierarchy}
    {data : DataBindings} {views : List (String × ViewId)} {w w₁ : World} {s : Scene}
    (hwf : hierarchy.WellFormed) (hviews : ∀ p ∈ views, w.store.Has p.2)
    (hbuilt : buildNames (bare d root hierarchy data views).nodeNames
      (bare d root hierarchy data views) w = (s, w₁)) : Built d hierarchy views w s w₁ := by
  have hbuilds := builds_of_buildNames hviews hbuilt
  have hground := grounded_bare hviews d root hierarchy data
  have hbare : ∀ name, s.isRootName name = false →
      (bare d root hierarchy data views).bound? name = given? views name := by
    intro name hroot
    rw [hbuilds.isRootName_eq] at hroot
    rw [bound?_bare, hroot, get?_ofList_views]
    cases given? views name <;> rfl
  -- a name without initial views that is bound has got its view here
  have hmade : ∀ name, s.isRootName name = false → given? views name = none → ∀ id,
      s.bound? name = some id →
      ¬ w.store.Has id ∧ ∃ v, d.Allows name v ∧ w₁.store.get? id = some v := by
    intro name hroot hnone id hid
    rcases hbuilds.made name id hid with hold | ⟨-, -, hnew, v, hblank, hv⟩
    · rw [hbare name hroot, hnone] at hold
      cases hold
    · exact ⟨hnew, v, blankFor_eq_some_iff.mp hblank, hv⟩
  refine ⟨hbuilds.definition_eq, hbuilds.hierarchy_eq, ?_, ?_, ?_, hbuilds.apart, ?_, hbuilds.old⟩
  · intro name _ hroot id hid
    exact hbuilds.kept name id ((hbare name hroot).trans hid)
  · intro name hname hroot hnone
    constructor
    · intro hbound
      obtain ⟨id, hid⟩ := Option.isSome_iff_exists.mp hbound
      obtain ⟨-, v, hallows, -⟩ := hmade name hroot hnone id hid
      exact ⟨hallows.1, Option.isSome_iff_exists.mpr ⟨v, hallows.2⟩⟩
    · rintro ⟨hdescends, hfactory⟩
      obtain ⟨v, hv⟩ := Option.isSome_iff_exists.mp hfactory
      have hblank : (bare d root hierarchy data views).blankFor name = some v :=
        blankFor_eq_some_iff.mpr ⟨hdescends, hv⟩
      rw [hbuilds.isRootName_eq] at hroot
      exact hbuilds.all name (hwf.mem_names_iff.mp hname) hroot
        (Option.isSome_iff_exists.mpr ⟨v, hblank⟩)
  · intro name _ hroot hnone id hid
    obtain ⟨hnew, v, hallows, hv⟩ := hmade name hroot hnone id hid
    exact ⟨hnew, v, hallows.2, hv⟩
  · intro id hid hnew
    have hnamed := exists_name_of_new (bare d root hierarchy data views).nodeNames hground
      (by rw [hbuilt]; exact hid) hnew
    rw [hbuilt] at hnamed
    obtain ⟨name, hname, hroot, hbound⟩ := hnamed
    exact ⟨name, hwf.mem_names_iff.mpr hname, (hbuilds.isRootName_eq name).trans hroot, hbound⟩

/-! ## What the setters do to it -/

/-- The declaration of a turn has a view. -/
theorem Turns.bound {s : Scene} {a b : World} {xs : List Execution} {r : Except Error Unit}
    (h : s.Turns a xs r b) {x : Execution} (hx : x ∈ xs) : (s.bound? x.declaration).isSome := by
  have hturned : ∀ {w w' : World} {y : Execution} {q : Except Error Unit}, s.Turned w y q w' →
      (s.bound? y.declaration).isSome := by
    rintro w w' y q (⟨ready, -, -⟩ | ⟨ready, -, -⟩ | ⟨ready, -⟩) <;> exact by simp [ready.bound]
  induction h with
  | none => cases hx
  | next first _ ih =>
    rcases List.mem_cons.mp hx with rfl | hlater
    · exact hturned first
    · exact ih hlater
  | failed last =>
    rw [List.mem_singleton.mp hx]
    exact hturned last

/-- Every view of the first world is there in the second, as a view of the same class. -/
def SameClasses (a b : World) : Prop :=
  ∀ id, (b.store.get? id).map (·.className) = (a.store.get? id).map (·.className)

theorem runs_sameClasses : Runs SameClasses :=
  ⟨fun _ _ => rfl, fun h k id => (k id).trans (h id)⟩

/-- Setters that keep the class of a view leave views of the classes that were built. -/
theorem sameClasses_applyAll {s : Scene}
    (hkeeps : s.definition.catalogue.Keeps fun _ t => t.KeepsClass) (w : World) :
    SameClasses w (s.applyAll .construction w).2 := by
  refine applyEach_rel runs_sameClasses (fun d _ id _ key w other => ?_) w
  by_cases hne : other = id
  · subst hne
    have hclass : ∀ p v,
        (s.receipt .construction other key p w v).view.className = v.className := by
      intro p v
      rcases Catalogue.view_receive_cases s.definition.catalogue key .construction
        (.start p.value p.line) v with h | ⟨setter, value, hfound, -, h⟩
      · rw [receipt, turn, h]
      · rw [receipt, turn, h, Setter.handOver_construction, hkeeps.setter? hfound value v]
    have hreceived : ∀ p v, w.store.get? other = some v →
        ((s.received .construction d other key p w v).store.get? other).map (·.className) =
          (w.store.get? other).map (·.className) := by
      intro p v hv
      rw [store_received, ViewStore.get?_set_self hv, hv, Option.map_some, Option.map_some,
        hclass p v]
    rcases applyKey_cases s .construction d other key w with
      ⟨-, h⟩ | ⟨p, v, -, hv, ⟨-, h⟩ | ⟨e, -, h⟩⟩ <;> rw [h]
    · exact hreceived p v hv
    · exact hreceived p v hv
  · rw [get?_applyKey_of_ne s .construction d hne key w]

/-- **A load builds exactly the allowed views.**  It builds them all, hands over the properties of
    the names that have a view, in order and up to the first failure, and fails only if a setter
    does. -/
theorem load_built {d : Definition} {root : String} {hierarchy : Hierarchy}
    {views : List (String × ViewId)} {w : World} (hdoc : d.document.Reachable)
    (hfound : (d.document.get? root).bind (·.hierarchy) = some hierarchy)
    (hviews : ∀ p ∈ views, w.store.Has p.2) (data : DataBindings) :
    ∃ s w₁ xs r w', Built d hierarchy views w s w₁ ∧ s.root = root ∧
      s.Turns w₁ xs r w' ∧ xs <+: s.allHandings .construction ∧
      (r = .ok () → xs = s.allHandings .construction) ∧
      (∀ name, s.bound? name = none → ∀ x ∈ xs, x.declaration ≠ name) ∧
      (d.catalogue.Keeps (fun _ t => t.KeepsClass) → SameClasses w₁ w') ∧
      load d root data views w = match r with
        | .ok () => (.ok s, w')
        | .error e => (.error (e.during "while building views"), w') := by
  rcases hbuilt : buildNames (bare d root hierarchy data views).nodeNames
    (bare d root hierarchy data views) w with ⟨s, w₁⟩
  have hbuilds := builds_of_buildNames hviews hbuilt
  have hground := hbuilds.grounded (grounded_bare hviews d root hierarchy data)
  have hspec := built_of_buildNames (hdoc.wellFormed hfound) hviews hbuilt
  have hindexed : s.definition.document.Indexed := by
    rw [hspec.definition_eq]
    exact hdoc.indexed
  obtain ⟨xs, hturns, hdue, hall⟩ := turns_applyAll hindexed hground .construction
  refine ⟨s, w₁, xs, (s.applyAll .construction w₁).1, (s.applyAll .construction w₁).2, hspec,
    hbuilds.root_eq, hturns, hdue, hall, fun name hnone x hx heq => ?_, fun hkeeps => ?_, ?_⟩
  · have hbound := hturns.bound hx
    rw [heq, hnone] at hbound
    cases hbound
  · exact sameClasses_applyAll (hspec.definition_eq ▸ hkeeps) w₁
  · rw [load_eq hfound data views w hbuilt]
    rcases s.applyAll .construction w₁ with ⟨e | _, w₂⟩ <;> rfl

end Scene

/-! ## A sheet with all kinds of names -/

/-- `A` stands twice, the class of `B` is unknown, that of `C` is abstract, and that of `E` is a
    placeholder.  `D` is stated nowhere. -/
def mixedText : String :=
  "Main:\n  A\n  B\n    A\n  C\n  D\n  E\nA:\n  .class = Label\n  .text = Hi\n"
    ++ "B:\n  .class = Nowhere\nC:\n  .class = Control\n  .alpha = lots\n"
    ++ "E:\n  .class = #\x7bkind\x7d\n"

/-- The sheet with the stock classes. -/
def mixed : Definition where
  document := (parseInto (.empty "sheet") mixedText).document
  catalogue := .stock
  listener := none

theorem reachable_mixed : mixed.document.Reachable := by
  unfold mixed
  dsimp only
  exact .parse (.empty "sheet") mixedText

theorem isSome_mixed : ((mixed.document.get? "Main").bind (·.hierarchy)).isSome = true := by
  decide +kernel

/-- The hierarchy on the sheet. -/
def mixedHierarchy : Hierarchy := Option.get _ isSome_mixed

/-- Two views of the host's. -/
def twoViews : World := (World.empty.addView (.stock (.container {}))).addView (.stock (.label {}))

/-- Both are handed in for `D`. -/
def forD : List (String × ViewId) := [("D", ⟨0⟩), ("D", ⟨1⟩)]

/-- Loads the sheet. -/
def loadMixed : Except Error Scene × World :=
  Scene.load mixed "Main" (.ofList [("kind", "Label")]) forD twoViews

theorem isSome_loadMixed : (Moment.ofLoad? loadMixed).isSome = true := by
  decide +kernel

/-- The moment after the load. -/
def loadedMixed : Moment := Option.get _ isSome_loadMixed

theorem mixed_computed : (∀ p ∈ forD, p.2.index < twoViews.store.size) ∧
    (["A", "B", "C", "D", "E"].map loadedMixed.scene.bound?) =
      [some ⟨2⟩, some ⟨3⟩, none, some ⟨1⟩, some ⟨4⟩] ∧
    ([⟨1⟩, ⟨2⟩, ⟨3⟩, ⟨4⟩].map fun id => (loadedMixed.world.store.get? id).map (·.className)) =
      [some "Label", some "Label", some "Container", some "Container"] ∧
    loadedMixed.world.executions = [⟨.construction, "A", "text", "Hi"⟩] := by
  decide +kernel

/-- `A` gets one label for both places, `C` is refused with its setter that could not be read, `D`
    has the view handed in last, and `B` and `E` get views of the base class.  The load succeeds. -/
theorem load_built_mixed : mixed.document.Reachable ∧ (∀ p ∈ forD, twoViews.store.Has p.2) ∧
    ∃ s w₁ xs w', Scene.Built mixed mixedHierarchy forD twoViews s w₁ ∧
      s.Turns w₁ xs (.ok ()) w' ∧ xs = s.allHandings .construction ∧
      (∀ x ∈ xs, x.declaration ≠ "C") ∧
      Scene.load mixed "Main" (.ofList [("kind", "Label")]) forD twoViews = (.ok s, w') ∧
      (["A", "B", "C", "D", "E"].map s.bound?) =
        [some ⟨2⟩, some ⟨3⟩, none, some ⟨1⟩, some ⟨4⟩] ∧
      ([⟨1⟩, ⟨2⟩, ⟨3⟩, ⟨4⟩].map fun id => (w'.store.get? id).map (·.className)) =
        [some "Label", some "Label", some "Container", some "Container"] ∧
      w'.executions = [⟨.construction, "A", "text", "Hi"⟩] := by
  obtain ⟨hviews, hbound, hclasses, hexec⟩ := mixed_computed
  obtain ⟨s, w₁, xs, r, w', hbuilt, -, hturns, -, hall, hskipped, -, hload⟩ :=
    Scene.load_built reachable_mixed (Option.some_get isSome_mixed).symm hviews
      (.ofList [("kind", "Label")])
  have hloaded : Scene.load mixed "Main" (.ofList [("kind", "Label")]) forD twoViews =
      (.ok loadedMixed.scene, loadedMixed.world) :=
    Moment.eq_of_ofLoad? (Option.some_get isSome_loadMixed).symm
  -- the load has succeeded, so all that was due was taken
  rw [hloaded] at hload
  cases r with
  | error e => cases (Prod.mk.inj hload).1
  | ok _ =>
    rw [Prod.mk.injEq, Except.ok.injEq] at hload
    obtain ⟨rfl, rfl⟩ := hload
    have hunbound : loadedMixed.scene.bound? "C" = none := by
      have hnth := congrArg (fun found => found[2]?) hbound
      exact Option.some.inj hnth
    exact ⟨reachable_mixed, hviews, _, w₁, xs, _, hbuilt, hturns, hall rfl, hskipped "C" hunbound,
      hloaded, hbound, hclasses, hexec⟩

end ViewSheet
