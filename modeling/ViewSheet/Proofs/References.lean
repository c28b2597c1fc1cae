/-
  References: which view a property means that names one.

  1. **Program**: the properties `matchSize` and `inputAccessoryView` hold the name of a view.  What
     is looked up is the identifier that the text starts with, and the rest is ignored
     (`identifier_start`).  A tree takes any text without blanks for a name.

  2. **Specification**: a name is looked up as it stands exactly if it is made of letters from A to
     Z, digits and underscores (`referred?_eq_self_iff`).  Of any other name the longest part in
     front is looked up, which is the name of another view or of none.

  3. **The crux** (`applyDeclaration_matchSize`, `applyDeclaration_accessory`): what handing such a
     property over comes to, whatever its text is.

  4. **Result** (`references_exact`): in the tree of an accepted source the names made of these
     characters are the ones that can be referred to, and a reference to one of them finds its view.
     A reference to another name may find a view that is not meant (`reference_strays`).
-/
import ViewSheet.Proofs.Building
import ViewSheet.Proofs.Inheritance
import ViewSheet.Proofs.Outline
import ViewSheet.Proofs.Session

namespace ViewSheet

open Text

/-! ## What is looked up -/

/-- The identifier that a text starts with, blanks apart. -/
def referred? (text : String) : Option String :=
  let name := (trimStart text.toList).takeWhile isIdentifierChar
  if name.isEmpty then none else some (String.ofList name)

/-- Every character is a letter from A to Z, a digit or an underscore. -/
def IsIdentifier (name : String) : Prop := ∀ c ∈ name.toList, isIdentifierChar c = true

instance (name : String) : Decidable (IsIdentifier name) :=
  List.decidableBAll (fun c => isIdentifierChar c = true) name.toList

/-- The complaint about a text that starts with no identifier. -/
def noIdentifier (p : PropertyText) : Error :=
  (Cursor.start p.value p.line).expected "an identifier"

theorem identifier_start (p : PropertyText) :
    (Cursor.identifier (.start p.value p.line)).1 = match referred? p.value with
      | some name => .ok name
      | none => .error (noIdentifier p) := by
  rw [referred?, Cursor.identifier, Cursor.someRun, Cursor.run, Cursor.skipBlanks, Cursor.start]
  dsimp only
  split
  · rfl
  · rfl

/-- **A name is looked up as it stands exactly if it is an identifier.** -/
theorem referred?_eq_self_iff {name : String} (hfull : name ≠ "")
    (hsolid : ∀ c ∈ name.toList, isBlank c = false) :
    referred? name = some name ↔ IsIdentifier name := by
  have htrim : trimStart name.toList = name.toList := by
    obtain ⟨c, cs, hcs⟩ := List.exists_cons_of_ne_nil
      (fun h => hfull (String.toList_inj.mp h) : name.toList ≠ [])
    rw [hcs] at hsolid ⊢
    exact trimStart_cons (hsolid c List.mem_cons_self) cs
  rw [referred?, htrim]
  constructor
  · intro h c hc
    split at h
    · cases h
    · rw [Option.some.injEq, ← String.toList_inj, String.toList_ofList] at h
      rw [← h] at hc
      exact List.mem_takeWhile_imp hc
  · intro h
    rw [List.takeWhile_eq_self_iff.mpr h, String.ofList_toList]
    exact if_neg fun hempty => hfull (String.toList_inj.mp (List.isEmpty_iff.mp hempty))

/-- What is looked up is the front of the name. -/
theorem prefix_of_referred? {name found : String} (hsolid : ∀ c ∈ name.toList, isBlank c = false)
    (h : referred? name = some found) : found.toList <+: name.toList := by
  have htrim : trimStart name.toList = name.toList := by
    cases hcs : name.toList with
    | nil => rfl
    | cons c cs =>
      rw [hcs] at hsolid
      exact trimStart_cons (hsolid c List.mem_cons_self) cs
  rw [referred?, htrim] at h
  split at h
  · cases h
  · rw [← Option.some.inj h, String.toList_ofList]
    exact List.takeWhile_prefix _

/-! ## What the setters make of it -/

/-- The view with the size of another. -/
def View.sizedLike (v u : View) : View :=
  v.withBase { v.base with frame := v.base.frame.withSize u.base.frame.size }

theorem View.sizedLike_self (v : View) : v.sizedLike v = v := v.withBase_base

section
variable {V α : Type} (cls : ViewClass V) (name : String) (kind : Kind α)
  (change : Surroundings → V → α → List Event × Except Error Unit × V) (around : Surroundings)
  (cursor : Cursor) {v : View} {part : V}

/-- A property for later scans its text and hands the value to its hook. -/
theorem ViewClass.result_attachedProperty (hpart : cls.get? v = some part) :
    ((cls.attachedProperty name kind change).setter.execute (.attached around) cursor v).result =
      match (kind.scan cursor).1 with
      | .error e => .error e
      | .ok a => (change around part a).2.1 := by
  have hscan : (cls.attachedProperty name kind change).setter.scan = kind.scanValue := rfl
  rw [Setter.execute, hscan, Kind.scanValue]
  rcases kind.scan cursor with ⟨e | a, after⟩
  · rfl
  · show ((cls.attachedProperty name kind change).setter.handOver (.attached around) v
      (kind.inject a)).2.1 = _
    simp only [Setter.handOver, Registration.setter, attachedProperty, onAttached, List.foldl_cons,
      List.foldl_nil, Setter.withHook, hpart, kind.project_inject]

/-- The view has the part that the hook leaves, also if it fails. -/
theorem ViewClass.view_attachedProperty (hpart : cls.get? v = some part) :
    ((cls.attachedProperty name kind change).setter.execute (.attached around) cursor v).view =
      match (kind.scan cursor).1 with
      | .error _ => v
      | .ok a => cls.set v (change around part a).2.2 := by
  have hscan : (cls.attachedProperty name kind change).setter.scan = kind.scanValue := rfl
  rw [Setter.execute, hscan, Kind.scanValue]
  rcases kind.scan cursor with ⟨e | a, after⟩
  · rfl
  · show ((cls.attachedProperty name kind change).setter.handOver (.attached around) v
      (kind.inject a)).2.2 = _
    simp only [Setter.handOver, Registration.setter, attachedProperty, onAttached, List.foldl_cons,
      List.foldl_nil, Setter.withHook, hpart, kind.project_inject]

end

namespace Catalogue

/-- Any view of a stock class takes over the size of the view that is looked up. -/
theorem receive_matchSize {v : View} (hclass : stock.hasClass v.className = true)
    (around : Surroundings) (p : PropertyText) :
    let receipt := stock.receive "matchSize" (.attached around) (.start p.value p.line) v
    match referred? p.value with
    | none => receipt.result = .error (noIdentifier p) ∧ receipt.view = v
    | some name => receipt.result = (matchSize around v.base name).2.1 ∧
        receipt.view = v.withBase (matchSize around v.base name).2.2 := by
  dsimp only
  rw [result_receive, view_receive, setter?_matchSize hclass]
  dsimp only
  rw [ViewClass.result_attachedProperty ViewClass.container _ _ _ _ _ rfl,
    ViewClass.view_attachedProperty ViewClass.container _ _ _ _ _ rfl,
    show Kind.identifier.scan = Cursor.identifier from rfl, identifier_start]
  cases referred? p.value <;> exact ⟨rfl, rfl⟩

/-- A text field notes the name that is looked up. -/
theorem receive_accessory (t : TextField) (around : Surroundings) (p : PropertyText) :
    let receipt := stock.receive "inputAccessoryView" (.attached around) (.start p.value p.line)
      (.stock (.textField t))
    match referred? p.value with
    | none => receipt.result = .error (noIdentifier p) ∧ receipt.view = .stock (.textField t)
    | some name => receipt.result = (attachAccessory around t name).2.1 ∧
        receipt.view = .stock (.textField (attachAccessory around t name).2.2) := by
  have hsetter := setter?_textField (r := ViewClass.textField.attachedProperty
    "inputAccessoryView" .identifier attachAccessory) (List.mem_of_getElem? (i := 7) rfl)
  dsimp only
  rw [result_receive, view_receive,
    show (View.stock (.textField t)).className = "TextField" from rfl,
    show "inputAccessoryView" = (ViewClass.textField.attachedProperty "inputAccessoryView"
      .identifier attachAccessory).property from rfl, hsetter]
  dsimp only
  rw [ViewClass.result_attachedProperty ViewClass.textField _ _ _ _ _ rfl,
    ViewClass.view_attachedProperty ViewClass.textField _ _ _ _ _ rfl,
    show Kind.identifier.scan = Cursor.identifier from rfl, identifier_start]
  cases referred? p.value <;> exact ⟨rfl, rfl⟩

end Catalogue

namespace Scene

variable {s : Scene} {w : World} {d : Declaration} {i : ViewId} {v : View} {p : PropertyText}

/-- The complaint that a name stands for no view. -/
def unknownView (name : String) : Error :=
  .of (.unknownView s!"Unknown view {name} in view hierarchy")

/-- The note of the declaration that a failed property belongs to. -/
def setting (d : Declaration) : String := s!"while setting properties for {d.name}"

theorem lookup_of_some {name : String} {j : ViewId} (h : s.bound? name = some j) :
    (⟨s.bindings, w.store, i⟩ : Surroundings).lookup name = .ok j := by
  rw [Surroundings.lookup, ViewBindings.lookup, ← bound?, h]

theorem lookup_of_none {name : String} (h : s.bound? name = none) :
    (⟨s.bindings, w.store, i⟩ : Surroundings).lookup name = .error (unknownView name) := by
  rw [Surroundings.lookup, ViewBindings.lookup, ← bound?, h]
  rfl

/-- Handing one property over to the view of its declaration. -/
theorem applyDeclaration_single (phase : Phase) {key : String} (hname : s.bound? d.name = some i)
    (hv : w.store.get? i = some v) (hp : d.filled? key s.data = some p) :
    let after := s.applyDeclaration phase d [key] w
    let receipt := s.receipt phase i key p w v
    (∀ e, receipt.result = .error e → after.1 = .error (e.during (setting d))) ∧
    (receipt.result = .ok () → after.1 = .ok ()) ∧
    after.2.store = w.store.set i receipt.view := by
  have hafter : s.applyDeclaration phase d [key] w = s.applyKey phase d i key w := by
    rw [applyDeclaration, hname]
    show s.applyKeys phase d i [key] w = _
    rw [applyKeys]
    rcases s.applyKey phase d i key w with ⟨e | ⟨⟩, w'⟩ <;> rfl
  dsimp only
  rw [hafter]
  rcases s.applyKey_cases phase d i key w with
    ⟨hnone | hnone, -⟩ | ⟨q, u, hq, hu, hcases⟩
  · rw [handing, hp] at hnone
    cases hnone
  · rw [hv] at hnone
    cases hnone
  · rw [hp, Option.some.injEq] at hq
    rw [hv, Option.some.injEq] at hu
    subst hq hu
    rcases hcases with ⟨hr, happly⟩ | ⟨e, hr, happly⟩ <;> rw [happly, hr]
    · exact ⟨(by rintro _ ⟨⟩), fun _ => rfl, rfl⟩
    · refine ⟨?_, (by rintro ⟨⟩), rfl⟩
      rintro _ ⟨⟩
      rfl

/-- **Taking over a size.**  The view under the identifier that the text starts with lends its size;
    without such a view, or without an identifier, the property fails. -/
theorem applyDeclaration_matchSize (hstock : s.definition.catalogue = .stock)
    (hname : s.bound? d.name = some i) (hv : w.store.get? i = some v)
    (hclass : Catalogue.stock.hasClass v.className = true)
    (hp : d.filled? "matchSize" s.data = some p) :
    let after := s.applyDeclaration .attached d ["matchSize"] w
    match referred? p.value with
    | none => after.1 = .error ((noIdentifier p).during (setting d)) ∧ after.2.store = w.store
    | some name => match s.bound? name with
      | none => after.1 = .error ((unknownView name).during (setting d)) ∧ after.2.store = w.store
      | some j => after.1 = .ok () ∧
          after.2.store.get? i = some (v.sizedLike ((w.store.get? j).getD v)) := by
  obtain ⟨hfailed, htaken, hstore⟩ := applyDeclaration_single .attached hname hv hp
  have hreceipt := Catalogue.receive_matchSize hclass ⟨s.bindings, w.store, i⟩ p
  rw [← hstock] at hreceipt
  -- the store is the same if the view is, and else the view has been changed in it
  have hsame : ∀ u, (s.receipt .attached i "matchSize" p w v).view = u →
      (u = v → (s.applyDeclaration .attached d ["matchSize"] w).2.store = w.store) ∧
        (s.applyDeclaration .attached d ["matchSize"] w).2.store.get? i = some u := by
    rintro u rfl
    rw [hstore]
    refine ⟨fun hu => ?_, ViewStore.get?_set_self hv _⟩
    rw [hu, ViewStore.set_self hv]
  cases hfound : referred? p.value with
  | none =>
    rw [hfound] at hreceipt
    exact ⟨hfailed _ hreceipt.1, (hsame v hreceipt.2).1 rfl⟩
  | some name =>
    rw [hfound] at hreceipt
    dsimp only at hreceipt ⊢
    rw [matchSize] at hreceipt
    cases hbound : s.bound? name with
    | none =>
      rw [lookup_of_none hbound] at hreceipt
      exact ⟨hfailed _ hreceipt.1, (hsame _ hreceipt.2).1 v.withBase_base⟩
    | some j =>
      rw [lookup_of_some hbound] at hreceipt
      dsimp only at hreceipt ⊢
      have hlent : ∀ u, (s.receipt .attached i "matchSize" p w v).result = .ok () →
          (s.receipt .attached i "matchSize" p w v).view = v.sizedLike u →
          (s.applyDeclaration .attached d ["matchSize"] w).1 = .ok () ∧
            (s.applyDeclaration .attached d ["matchSize"] w).2.store.get? i =
              some (v.sizedLike u) :=
        fun u hresult hview => ⟨htaken hresult, (hsame _ hview).2⟩
      rw [Surroundings.inspect] at hreceipt
      by_cases hself : j = i
      · -- the view itself is passed over, which is to lend its size to itself
        rw [if_pos hself] at hreceipt
        rw [hself, hv, Option.getD_some]
        refine hlent v hreceipt.1 ?_
        rw [View.sizedLike_self]
        exact hreceipt.2.trans v.withBase_base
      · rw [if_neg hself] at hreceipt
        cases hu : w.store.get? j with
        | none =>
          rw [hu] at hreceipt
          rw [Option.getD_none]
          exact hlent v hreceipt.1
            (by rw [View.sizedLike_self]; exact hreceipt.2.trans v.withBase_base)
        | some u =>
          rw [hu] at hreceipt
          exact hlent u hreceipt.1 hreceipt.2

/-- **Noting an accessory.**  The identifier that the text starts with is noted if it stands for a
    view, and passed over if not. -/
theorem applyDeclaration_accessory (hstock : s.definition.catalogue = .stock)
    (hname : s.bound? d.name = some i) {t : TextField}
    (hv : w.store.get? i = some (.stock (.textField t)))
    (hp : d.filled? "inputAccessoryView" s.data = some p) :
    let after := s.applyDeclaration .attached d ["inputAccessoryView"] w
    match referred? p.value with
    | none => after.1 = .error ((noIdentifier p).during (setting d)) ∧ after.2.store = w.store
    | some name => after.1 = .ok () ∧ after.2.store.get? i = some (.stock (.textField
        (if (s.bound? name).isSome then { t with accessory := some name } else t))) := by
  obtain ⟨hfailed, htaken, hstore⟩ := applyDeclaration_single .attached hname hv hp
  have hreceipt := Catalogue.receive_accessory t ⟨s.bindings, w.store, i⟩ p
  rw [← hstock] at hreceipt
  dsimp only
  cases hfound : referred? p.value with
  | none =>
    rw [hfound] at hreceipt
    refine ⟨hfailed _ hreceipt.1, hstore.trans ?_⟩
    rw [show (s.receipt .attached i "inputAccessoryView" p w (.stock (.textField t))).view = _ from
      hreceipt.2, ViewStore.set_self hv]
  | some name =>
    rw [hfound] at hreceipt
    dsimp only at hreceipt ⊢
    rw [attachAccessory_ok] at hreceipt
    refine ⟨htaken hreceipt.1, ?_⟩
    rw [hstore, ViewStore.get?_set_self hv, show (s.receipt .attached i "inputAccessoryView" p w
      (.stock (.textField t))).view = _ from hreceipt.2, attachAccessory]
    cases hbound : s.bound? name with
    | none =>
      rw [lookup_of_none hbound]
      rfl
    | some j =>
      rw [lookup_of_some hbound]
      rfl

end Scene

/-! ## Names of a tree -/

/-- A parse that does not fail gives what it has come to. -/
theorem parse_of_failure {source identifier : String}
    (h : (parseInto (.empty identifier) source).failure = none) :
    (parse source identifier).2 = .ok (parseInto (.empty identifier) source).document := by
  rw [parse, h]

/-- What a parse gives has been parsed. -/
theorem reachable_of_parse {source identifier : String} {doc : Document}
    (h : (parse source identifier).2 = .ok doc) : doc.Reachable := by
  rw [Grammar.parse_eq] at h
  split at h
  · cases h
  · rw [← Except.ok.inj h]
    exact (Document.Reachable.empty identifier).parse source

/-- The names in the tree of a loaded scene can stand on a line of their own. -/
theorem isViewName_of_load {source identifier : String} {d : Definition}
    (hparse : (parse source identifier).2 = .ok d.document) {root : String} {data : DataBindings}
    {views : List (String × ViewId)} {w w₁ : World} {s : Scene}
    (hviews : ∀ p ∈ views, w.store.Has p.2) (hload : Scene.load d root data views w = (.ok s, w₁))
    {name : String} (hname : name ∈ s.nodeNames) : IsViewName name.toList := by
  obtain ⟨tree, w', hfound, hbuilds, -⟩ := Scene.exists_builds_of_load hviews hload
  obtain ⟨decl, hdecl, htree⟩ := Option.bind_eq_some_iff.mp hfound
  obtain ⟨b, hb, -, -, -, hfull, hread⟩ := planted_of_parse hparse root decl tree hdecl htree
  have hnames : name ∈ tree.names := by
    obtain ⟨node, hnode, rfl⟩ := List.mem_map.mp hname
    have hhierarchy : s.hierarchy = tree := hbuilds.hierarchy_eq
    rw [hhierarchy] at hnode ⊢
    exact Hierarchy.nameOf_mem_names hnode
  exact (printable_of_read hb hfull hread).2.named name hnames

/-- **References find what they name, if the name is an identifier.**  Let `m` and `n` be names in a
    loaded tree that stand for views, and let a property of `m` hold the name `n`.  The name is
    looked up as it stands exactly if it is an identifier.  Then the view of `m` takes over the size
    of the view of `n`, or notes the name `n`.  Otherwise the front of the name is looked up. -/
theorem references_exact {source identifier : String} {d : Definition}
    (hparse : (parse source identifier).2 = .ok d.document) (hstock : d.catalogue = .stock)
    {root : String} {data : DataBindings} {views : List (String × ViewId)} {w₀ w₁ : World}
    {s : Scene} (hviews : ∀ p ∈ views, w₀.store.Has p.2)
    (hload : Scene.load d root data views w₀ = (.ok s, w₁)) {m n : String} {i j : ViewId}
    (hm : s.bound? m = some i) (hn : s.bound? n = some j) (hnode : n ∈ s.nodeNames)
    (hplain : placeholders n = []) {decl : Declaration} (hdecl : d.document.get? m = some decl)
    {w : World} {v u : View} (hv : w.store.get? i = some v) (hu : w.store.get? j = some u)
    (hclass : Catalogue.stock.hasClass v.className = true) (container : ViewId) :
    let attached := s.withContainer container
    (referred? n = some n ↔ IsIdentifier n) ∧
    (IsIdentifier n →
      (∀ line, decl.property? "matchSize" = some ⟨n, line⟩ →
        let after := attached.applyDeclaration .attached decl ["matchSize"] w
        after.1 = .ok () ∧ after.2.store.get? i = some (v.sizedLike u)) ∧
      ∀ line t, decl.property? "inputAccessoryView" = some ⟨n, line⟩ → v = .stock (.textField t) →
        let after := attached.applyDeclaration .attached decl ["inputAccessoryView"] w
        after.1 = .ok () ∧ after.2.store.get? i =
          some (.stock (.textField { t with accessory := some n }))) ∧
    (¬ IsIdentifier n → ∀ found, referred? n = some found →
      found.toList <+: n.toList ∧ found ≠ n) := by
  intro attached
  have hname : IsViewName n.toList := isViewName_of_load hparse hviews hload hnode
  have hfull : n ≠ "" := fun h => hname.full (by rw [h]; rfl)
  have hexact := referred?_eq_self_iff hfull hname.solid
  have hloaded := Scene.loaded_of_load hviews hload
  have hsetters : attached.definition.catalogue = .stock :=
    (congrArg Definition.catalogue hloaded.definition).trans hstock
  -- names that are bound by loading are not those of the root
  have hbound : ∀ {name : String} {id : ViewId}, s.bound? name = some id →
      attached.bound? name = some id := by
    intro name id hid
    rw [Scene.bound?_withContainer]
    split
    · rename_i hroot
      rw [hloaded.unattached name hroot] at hid
      cases hid
    · exact hid
  have hnamed : decl.name = m := ((reachable_of_parse hparse).indexed m decl hdecl).named
  have hmbound : attached.bound? decl.name = some i := hnamed ▸ hbound hm
  have hnbound := hbound hn
  refine ⟨hexact, fun hidentifier => ⟨fun line hproperty => ?_, fun line t hproperty ht => ?_⟩,
    fun hnot found hfound => ⟨prefix_of_referred? hname.solid hfound, ?_⟩⟩
  · have hafter := Scene.applyDeclaration_matchSize hsetters hmbound hv hclass
      (Declaration.filled?_of_plain hproperty hplain attached.data)
    dsimp only at hafter
    rw [hexact.mpr hidentifier] at hafter
    dsimp only at hafter
    rw [hnbound] at hafter
    dsimp only at hafter
    rw [hu, Option.getD_some] at hafter
    exact hafter
  · have hafter := Scene.applyDeclaration_accessory hsetters hmbound (ht ▸ hv)
      (Declaration.filled?_of_plain hproperty hplain attached.data)
    dsimp only at hafter
    rw [hexact.mpr hidentifier] at hafter
    dsimp only at hafter
    rw [hnbound, if_pos (show (some j).isSome = true from rfl)] at hafter
    exact hafter
  · rintro rfl
    exact hnot (hexact.mp hfound)

/-! ## Bars -/

/-- Two views that refer to others whose names start alike. -/
def barsText : String :=
  "Main:\n A\n B\n bar\n bar_\n bar-\nA:\n .matchSize = bar_\nB:\n .matchSize = bar-\n"
    ++ "bar:\n .size = \x7b1, 1\x7d\n"

/-- The sheet with the stock classes. -/
def bars : Definition where
  document := (parseInto (.empty "sheet") barsText).document
  catalogue := .stock
  listener := none

theorem parse_bars : (parse barsText "sheet").2 = .ok bars.document := by
  have hfailure : (parseInto (.empty "sheet") barsText).failure = none := by decide +kernel
  rw [parse_of_failure hfailure, bars]

theorem isSome_loadBars :
    (Moment.ofLoad? (Scene.load bars "Main" .empty [] .empty)).isSome = true := by
  decide +kernel

/-- The moment after loading the sheet. -/
def loadedBars : Moment := Option.get _ isSome_loadBars

theorem load_bars : Scene.load bars "Main" .empty [] .empty =
    (.ok loadedBars.scene, loadedBars.world) :=
  Moment.eq_of_ofLoad? (Option.some_get isSome_loadBars).symm

theorem bars_computed :
    (bars.document.get? "A").bind (·.property? "matchSize") = some ⟨"bar_", 8⟩ ∧
    (bars.document.get? "A").isSome = true ∧
    (loadedBars.world.store.get? ⟨0⟩).map (·.className) = some "Container" ∧
    (loadedBars.world.store.get? ⟨3⟩).isSome = true ∧
    loadedBars.scene.bound? "A" = some ⟨0⟩ ∧ loadedBars.scene.bound? "bar_" = some ⟨3⟩ ∧
    "bar_" ∈ loadedBars.scene.nodeNames ∧ placeholders "bar_" = [] ∧
    Catalogue.stock.hasClass "Container" = true := by
  decide +kernel

/-- What the one view refers to is found under its whole name. -/
theorem references_exact_bars : ∃ decl v u,
    bars.document.get? "A" = some decl ∧ loadedBars.world.store.get? ⟨0⟩ = some v ∧
    loadedBars.world.store.get? ⟨3⟩ = some u ∧
    ((loadedBars.scene.withContainer ⟨5⟩).applyDeclaration .attached decl ["matchSize"]
      loadedBars.world).2.store.get? ⟨0⟩ = some (v.sizedLike u) := by
  obtain ⟨hproperty, hdecl, hv, hu, hA, hbar, hnode, hplain, hclass⟩ := bars_computed
  obtain ⟨decl, hdecl⟩ := Option.isSome_iff_exists.mp hdecl
  obtain ⟨u, hu⟩ := Option.isSome_iff_exists.mp hu
  obtain ⟨v, hv, hname⟩ := Option.map_eq_some_iff.mp hv
  rw [hdecl, Option.bind_some] at hproperty
  obtain ⟨-, hexact, -⟩ := references_exact parse_bars rfl (List.forall_mem_nil _) load_bars hA hbar
    hnode hplain hdecl hv hu (hname ▸ hclass) ⟨5⟩
  exact ⟨decl, v, u, hdecl, hv, hu, ((hexact (by decide)).1 8 hproperty).2⟩

/-- A hyphen ends the identifier: the other view takes over the size of `bar`, where its property
    names `bar-`. -/
theorem reference_strays :
    let attached := loadedBars.scene.attach ⟨5⟩ (loadedBars.world.addView (.stock (.container {})))
    let sizeOf (id : ViewId) := (attached.2.2.store.get? id).map (·.base.frame.size)
    (parse barsText "sheet").2 = .ok bars.document ∧
    ((bars.document.get? "B").bind (·.property? "matchSize")).map (·.value) = some "bar-" ∧
    loadedBars.scene.bound? "B" = some ⟨1⟩ ∧ loadedBars.scene.bound? "bar" = some ⟨2⟩ ∧
    loadedBars.scene.bound? "bar-" = some ⟨4⟩ ∧ attached.1 = .ok () ∧
    sizeOf ⟨1⟩ = sizeOf ⟨2⟩ ∧ sizeOf ⟨1⟩ ≠ sizeOf ⟨4⟩ := by
  refine ⟨parse_bars, ?_⟩
  decide +kernel

end ViewSheet
