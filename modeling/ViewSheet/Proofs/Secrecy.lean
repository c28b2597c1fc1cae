/-
  Secrecy: what a secure field hides shows in no output.

  1. **Specification**: a key is *secret* in a document if it is mentioned as the whole text of
     secure text fields alone (`Document.Secret`).  What is to be seen of a scene that is loaded and
     hung into a new container is its printed tree, or an error, and all that was told
     (`Studio.realized`).

  2. **Two runs**: with data that differ at a secret key the same views are built
     (`buildNames_withData`), and the scenes are twins (`twins_of_secret`).  So both runs go on in
     lockstep, and leave worlds that look alike but for hidden fields (`load_lookAlike`).

  3. **One run**: once the properties have been handed over, every hidden field is secure, and that
     is not undone when the container settles (`secure_of_load`, `secureAt_settle`).

  4. **Result** (`realized_of_secret`): both runs show the same.
-/
import ViewSheet.Proofs.Building
import ViewSheet.Proofs.Effects
import ViewSheet.Proofs.Lockstep
import ViewSheet.Proofs.Rebuild
import ViewSheet.Proofs.Substitution
import ViewSheet.Studio.Tree

namespace ViewSheet

open Text

/-! ## Secret keys -/

namespace Declaration

/-- Some property's text holds the placeholder of the key. -/
def Mentions (d : Declaration) (key : String) : Prop :=
  ∃ property p, d.property? property = some p ∧ key ∈ placeholders p.value

/-- The declaration is one of a secure text field, and the key stands for its text as a whole and
    for nothing else. -/
structure Hides (d : Declaration) (key : String) : Prop where
  whole : ∀ property p, d.property? property = some p → key ∈ placeholders p.value →
    property = "text" ∧ p.value = String.ofList (placeholderFor key)
  field : d.className? = some "TextField"
  cover : ∃ q, d.property? "secureTextEntry" = some q ∧ placeholders q.value = [] ∧
    (Cursor.flag (.start q.value q.line)).1 = .ok true

instance (d : Declaration) (key : String) : Decidable (d.Mentions key) :=
  decidable_of_iff (∃ property ∈ d.properties.keys, ∃ p ∈ d.property? property,
      key ∈ placeholders p.value) <| by
    constructor
    · rintro ⟨property, -, p, hp, hkey⟩
      exact ⟨property, p, hp, hkey⟩
    · rintro ⟨property, p, hp, hkey⟩
      exact ⟨property, NameMap.mem_keys_iff.mpr (Option.isSome_of_eq_some hp), p, hp, hkey⟩

instance (d : Declaration) (key : String) : Decidable (d.Hides key) :=
  decidable_of_iff ((∀ property ∈ d.properties.keys, ∀ p ∈ d.property? property,
      key ∈ placeholders p.value →
        property = "text" ∧ p.value = String.ofList (placeholderFor key)) ∧
    d.className? = some "TextField" ∧
    ∃ q ∈ d.property? "secureTextEntry", placeholders q.value = [] ∧
      (Cursor.flag (.start q.value q.line)).1 = .ok true) <| by
    constructor
    · rintro ⟨hwhole, hfield, hcover⟩
      refine ⟨fun property p hp => hwhole property ?_ p hp, hfield, hcover⟩
      exact NameMap.mem_keys_iff.mpr (Option.isSome_of_eq_some hp)
    · rintro ⟨hwhole, hfield, hcover⟩
      exact ⟨fun property _ => hwhole property, hfield, hcover⟩

end Declaration

/-- Where the key is mentioned, it is hidden. -/
def Document.Secret (doc : Document) (key : String) : Prop :=
  ∀ name d, doc.get? name = some d → d.Mentions key → d.Hides key

/-- Bindings that differ in the text of one key alone, of which as many characters are left when its
    lines are trimmed. -/
structure DataBindings.SameBut (key : String) (a b : DataBindings) : Prop where
  others : ∀ k, k ≠ key → b.get? k = a.get? k
  length : ∃ x y, a.get? key = some x ∧ b.get? key = some y ∧
    (trimmedByLine y).length = (trimmedByLine x).length

/-- A placeholder that is a whole text is filled with the bound text. -/
theorem fill_placeholderFor {data : DataBindings} {key text : String} (hkey : IsKey key)
    (h : data.get? key = some text) : fill data (String.ofList (placeholderFor key)) = text := by
  have hopen : (key.toList ++ ['\x7d']).dropWhile (!isBrace ·) = ['\x7d'] := by
    rw [List.dropWhile_append_of_pos fun c hc => by rw [hkey.2 c hc]; rfl]
    rfl
  have htake : (key.toList ++ ['\x7d']).takeWhile (!isBrace ·) = key.toList := by
    rw [List.takeWhile_append_of_pos fun c hc => by rw [hkey.2 c hc]; rfl]
    exact List.append_nil _
  have hfull : key.toList.isEmpty = false := by
    rw [List.isEmpty_eq_false_iff]
    exact fun hnil => hkey.1 (String.toList_inj.mp hnil)
  have hkeys : placeholders (String.ofList (placeholderFor key)) = [key] := by
    rw [placeholders, String.toList_ofList, placeholderFor_eq, placeholdersIn_open hopen, htake,
      if_pos rfl, hfull, if_neg Bool.false_ne_true, placeholdersIn]
    exact congrArg (fun k => [k]) String.ofList_toList
  have hself : replaceAll (placeholderFor key) text.toList (placeholderFor key ++ []) =
      text.toList ++ replaceAll (placeholderFor key) text.toList [] :=
    replaceAll_append_self (List.cons_ne_nil _ _)
  rw [List.append_nil] at hself
  rw [fill, hkeys, String.toList_ofList, fillKeys, h]
  dsimp only
  rw [fillKeys, hself, show replaceAll (placeholderFor key) text.toList [] = [] from rfl,
    List.append_nil, String.ofList_toList]

namespace Scene

variable {s : Scene} {key : String} {a b : DataBindings}

/-- The views of the declarations that mention the key. -/
def Conceals (s : Scene) (key : String) (id : ViewId) : Prop :=
  ∃ name d, s.bound? name = some id ∧ s.definition.document.get? name = some d ∧ d.Mentions key

/-- Two scenes are twins if their data differ at a secret key. -/
theorem twins_of_secret (hstock : s.definition.catalogue = .stock)
    (hdoc : s.definition.document.Indexed) (hsecret : s.definition.document.Secret key)
    (hdata : DataBindings.SameBut key s.data b) (host : ViewId) :
    Twins (s.Conceals key) host s (s.withData b) := by
  refine ⟨⟨b, rfl⟩, hstock, fun name d property hd => ?_⟩
  by_cases hmentioned : ∃ p, d.property? property = some p ∧ key ∈ placeholders p.value
  · obtain ⟨p, hp, hkey⟩ := hmentioned
    have hmentions : d.Mentions key := ⟨property, p, hp, hkey⟩
    obtain ⟨hproperty, hvalue⟩ := (hsecret name d hd hmentions).whole property p hp hkey
    obtain ⟨x, y, hx, hy, hlength⟩ := hdata.length
    have hfilled : ∀ {data : DataBindings} {text}, data.get? key = some text →
        d.filled? property data = some ⟨text, p.line⟩ := by
      intro data text htext
      rw [Declaration.filled?, hp, Option.map_some, hvalue,
        fill_placeholderFor (mem_placeholders.mp hkey).1 htext]
    refine Or.inr ⟨hproperty, ⟨_, _, hfilled hx, hfilled hy, rfl, hlength⟩, fun id hid => Or.inl ?_⟩
    rw [(hdoc name d hd).named] at hid
    exact ⟨name, d, hid, hd, hmentions⟩
  · refine Or.inl (Declaration.filled?_congr fun p hp k hk => hdata.others k ?_)
    rintro rfl
    exact hmentioned ⟨p, hp, hk⟩

/-! ## Loading -/

theorem buildAs_withData (s : Scene) (data : DataBindings) (name className : String) (w : World) :
    (s.withData data).buildAs name className w =
      ((s.buildAs name className w).1.withData data, (s.buildAs name className w).2) := by
  have hcatalogue : (s.withData data).definition.catalogue = s.definition.catalogue := rfl
  unfold buildAs
  rw [hcatalogue]
  rcases s.definition.catalogue.isSubclass className Catalogue.baseClass with ⟨events, _ | _⟩
  · rfl
  · cases s.definition.catalogue.instantiate? className with
    | none => rfl
    | some v => rfl

theorem buildName_withData (s : Scene) (data : DataBindings) (name : String) (w : World) :
    (s.withData data).buildName name w =
      ((s.buildName name w).1.withData data, (s.buildName name w).2) := by
  have hroot : (s.withData data).isRootName name = s.isRootName name := rfl
  have hbound : (s.withData data).bound? name = s.bound? name := rfl
  unfold buildName
  rw [hroot, hbound]
  split
  · rfl
  · split
    · rfl
    · exact s.buildAs_withData data name _ _

/-- Which views are built does not depend on the data. -/
theorem buildNames_withData (names : List String) (s : Scene) (data : DataBindings) (w : World) :
    buildNames names (s.withData data) w =
      ((buildNames names s w).1.withData data, (buildNames names s w).2) := by
  induction names generalizing s w with
  | nil => rfl
  | cons name rest ih =>
    rw [buildNames, buildName_withData]
    exact ih _ _

/-- A name that is declared a text field starts as one. -/
theorem blankFor_textField (hstock : s.definition.catalogue = .stock) {name : String}
    {d : Declaration} (hd : s.definition.document.get? name = some d)
    (hclass : d.className? = some "TextField") :
    s.blankFor name = some (.stock (.textField {})) := by
  have hknown : Catalogue.stock.hasClass "TextField" = true := rfl
  have hfor : (s.classFor name).2 = "TextField" := by
    rw [classFor, hd, Option.bind_some, hclass, hstock]
    dsimp only
    rw [if_pos hknown]
  have hchain := Catalogue.chain_stock _ (List.mem_of_getElem? (l := Catalogue.stockChains)
    (i := 5) rfl)
  have hdescends : (Catalogue.stock.isSubclass "TextField" Catalogue.baseClass).2 = true := by
    rw [Catalogue.isSubclass]
    dsimp only at hchain
    rw [hchain]
    rfl
  rw [blankFor, hfor, hstock, if_pos hdescends]
  rfl

section
variable {names : List String} {d : Definition} {root : String} {hierarchy : Hierarchy}
  {w w₁ w₂ : World} (hbuilds : Builds names (bare d root hierarchy a []) w s w₁)
  (hstock : s.definition.catalogue = .stock) (hsecret : s.definition.document.Secret key)
include hbuilds hstock hsecret

/-- The views that hide the key are new text fields. -/
theorem get?_of_conceals {id : ViewId} (hid : s.Conceals key id) :
    w₁.store.get? id = some (.stock (.textField {})) := by
  obtain ⟨name, decl, hbound, hdecl, hmentions⟩ := hid
  obtain ⟨-, -, -, v, hblank, hv⟩ := hbuilds.made_of_bare hbound
  rw [blankFor_textField hstock hdecl (hsecret name decl hdecl hmentions).field,
    Option.some.injEq] at hblank
  exact hblank ▸ hv

theorem lookAlike_of_builds : LookAlike (s.Conceals key) w₁.store.fresh w₁ w₁ := by
  refine .refl (fun id v hid hv => ?_) fun v hv => ?_
  · rw [get?_of_conceals hbuilds hstock hsecret hid, Option.some.injEq] at hv
    exact hv ▸ rfl
  · exact absurd (ViewStore.has_iff.mpr ⟨v, hv⟩) (ViewStore.not_has_fresh w₁.store)

end

end Scene

/-! ## Covers stay on -/

namespace Declaration

variable {d : Declaration} {c : Catalogue} {data : DataBindings} {v : View} {key : String}

/-- What a property makes of a view is what handing its text over leaves, if anything does. -/
theorem put_cases (d : Declaration) (c : Catalogue) (data : DataBindings) (v : View)
    (key : String) : d.put c v.className data v key = v ∨ ∃ cursor,
      d.put c v.className data v key = (c.receive key .construction cursor v).view := by
  unfold put effect?
  cases d.filled? key data with
  | none => exact Or.inl rfl
  | some p =>
    rw [Option.bind_some]
    rcases c.receive_construction key p v with ⟨f, hf, -, hview⟩ | ⟨hf, -⟩
    · rw [hf]
      exact Or.inr ⟨_, hview.symm⟩
    · rw [hf]
      exact Or.inl rfl

theorem put_of_receive {p : PropertyText} (hp : d.filled? key data = some p)
    (h : (c.receive key .construction (.start p.value p.line) v).result = .ok ()) :
    d.put c v.className data v key =
      (c.receive key .construction (.start p.value p.line) v).view := by
  unfold put effect?
  rw [hp, Option.bind_some]
  rcases c.receive_construction key p v with ⟨f, hf, -, hview⟩ | ⟨-, e, hr⟩
  · rw [hf]
    exact hview.symm
  · rw [hr] at h
    cases h

/-- Once all properties are set, a text field is covered if it is to be. -/
theorem secure_puts (hides : d.Hides key) (data : DataBindings) {keys : List String}
    (hform : v.form = .stock (.textField {})) (h : "secureTextEntry" ∈ keys ∨ v.Secure) :
    (d.puts .stock "TextField" data keys v).Secure := by
  induction keys generalizing v with
  | nil => exact h.resolve_left List.not_mem_nil
  | cons k rest ih =>
    obtain ⟨t, rfl⟩ := View.exists_textField_of_form hform
    -- one property is set, and then the others
    show (d.puts .stock "TextField" data rest
      (d.put .stock (View.stock (.textField t)).className data (.stock (.textField t)) k)).Secure
    by_cases hcover : k = "secureTextEntry"
    · obtain ⟨q, hq, hplain, hflag⟩ := hides.cover
      obtain ⟨htaken, hcovered⟩ := Catalogue.receive_cover t hflag
      rw [hcover, put_of_receive (filled?_of_plain hq hplain data) htaken, hcovered]
      exact ih rfl (Or.inr rfl)
    · have hrest : "secureTextEntry" ∈ rest ∨ (View.stock (.textField t)).Secure :=
        h.imp_left fun hmem => (List.mem_cons.mp hmem).resolve_left fun heq => hcover heq.symm
      rcases d.put_cases .stock data (.stock (.textField t)) k with hsame | ⟨cursor, hput⟩
      · rw [hsame]
        exact ih hform hrest
      · rw [hput]
        exact ih ((Catalogue.form_receive k _ cursor _).trans hform) (hrest.imp_right fun hsecure =>
          Catalogue.secure_receive cursor hsecure fun _ => hcover)

end Declaration

namespace Scene

variable {s : Scene} {key : String} {a : DataBindings} {d : Definition} {root : String}
  {hierarchy : Hierarchy} {w w₁ w₂ : World}

/-- **A load covers what it hides.** -/
theorem secure_of_load (hbuilds : Builds s.nodeNames (bare d root hierarchy a []) w s w₁)
    (hstock : s.definition.catalogue = .stock) (hdoc : s.definition.document.Indexed)
    (hsecret : s.definition.document.Secret key)
    (hpass : s.applyAll .construction w₁ = (.ok (), w₂)) {id : ViewId} (hid : s.Conceals key id)
    {v : View} (hv : w₂.store.get? id = some v) : v.Secure := by
  have hblank := get?_of_conceals hbuilds hstock hsecret hid
  obtain ⟨name, decl, hbound, hdecl, hmentions⟩ := hid
  have hides := hsecret name decl hdecl hmentions
  have hkeeps : s.definition.catalogue.Keeps fun _ t => t.KeepsClass := by
    rw [hstock]
    exact Catalogue.plain_stock.imp fun _ _ h => h.keepsClass
  rw [applyAll, applyEach_construction] at hpass
  have hview := (constructEach_configured hdoc hkeeps
    (hbuilds.grounded (grounded_bare (List.forall_mem_nil _) d root hierarchy a))
    (fun m n id hm hn => hbuilds.apart m n id hm hn (hbuilds.made_of_bare hm).2.2.1)
    (fun m id hm => (hbuilds.made_of_bare hm).2.1)
    fun (d : Declaration) _ (h : _ ∈ d.setterKeys) => h).2 (by rw [hpass]) name id _ hbound hblank
  rw [hpass, hv, Option.some.injEq, Definition.puts, hdecl, hstock] at hview
  rw [hview]
  refine decl.secure_puts hides s.data rfl (Or.inl ?_)
  obtain ⟨q, hq, -⟩ := hides.cover
  refine List.mem_filter.mpr ⟨NameMap.mem_keys_iff.mpr ?_, by decide⟩
  rw [show decl.properties.get? "secureTextEntry" = some q from hq]
  rfl

end Scene

/-- The view, if it is there, is a covered text field. -/
def World.SecureAt (w : World) (id : ViewId) : Prop := ∀ v, w.store.get? id = some v → v.Secure

namespace Scene

variable {s : Scene} {w : World}

theorem runs_secureAt (id : ViewId) : Runs fun a b => a.SecureAt id → b.SecureAt id :=
  ⟨fun _ h => h, fun h k ha => k (h ha)⟩

/-- With a look around, nothing takes a cover off. -/
theorem secureAt_applyKey (hstock : s.definition.catalogue = .stock) (d : Declaration)
    (other : ViewId) (key : String) {id : ViewId} (h : w.SecureAt id) :
    (s.applyKey .attached d other key w).2.SecureAt id := by
  intro v hv
  by_cases hid : id = other
  · subst hid
    have hreceived : ∀ p u, w.store.get? id = some u →
        (s.received .attached d id key p w u).store.get? id = some v → v.Secure := by
      intro p u hu hv
      rw [store_received, ViewStore.get?_set_self hu, receipt, hstock, Option.some.injEq] at hv
      rw [← hv]
      exact Catalogue.secure_receive _ (h u hu) (by rintro ⟨⟩)
    rcases s.applyKey_cases .attached d id key w with
      ⟨-, heq⟩ | ⟨p, u, -, hu, ⟨-, heq⟩ | ⟨e, -, heq⟩⟩ <;> rw [heq] at hv
    · exact h v hv
    · exact hreceived p u hu hv
    · exact hreceived p u hu hv
  · rw [s.get?_applyKey_of_ne .attached d hid] at hv
    exact h v hv

theorem secureAt_wireNode (node : Nat) {id : ViewId} (h : w.SecureAt id) :
    (s.wireNode node w).SecureAt id := by
  intro v hv
  rcases s.wireNode_cases node w with
    ⟨-, heq⟩ | ⟨parent, child, -, ⟨-, hstore, -⟩ | ⟨-, heq⟩⟩
  · rw [heq] at hv
    exact h v hv
  · rw [hstore] at hv
    exact h v hv
  · rw [heq] at hv
    by_cases hid : id = parent
    · subst hid
      rw [ViewStore.get?_attach_self] at hv
      obtain ⟨u, hu, rfl⟩ := Option.map_eq_some_iff.mp hv
      exact (h u hu).addSubview child
    · rw [ViewStore.get?_attach_of_ne _ _ hid] at hv
      exact h v hv

/-- **Settling a container leaves covers on.**  The container is the only view that has a turn at
    construction. -/
theorem secureAt_settle (hstock : s.definition.catalogue = .stock)
    (hdoc : s.definition.document.Indexed) {host id : ViewId} (hhost : s.bound? s.root = some host)
    (hne : id ≠ host) (first : Bool) (h : w.SecureAt id) : (s.settle first w).2.SecureAt id := by
  have hroot : (s.configureRoot w).2.SecureAt id := by
    unfold configureRoot
    cases hd : s.definition.document.get? s.root with
    | none => exact h
    | some d =>
      refine applyDeclaration_rel (runs_secureAt id) (fun other hother key w h v hv => ?_)
        d.setterKeys w h
      rw [(hdoc s.root d hd).named, hhost, Option.some.injEq] at hother
      rw [s.get?_applyKey_of_ne .construction d (hother ▸ hne)] at hv
      exact h v hv
  unfold settle
  rcases hsettled : s.configureRoot w with ⟨e | ⟨⟩, w'⟩ <;> rw [hsettled] at hroot
  · exact hroot
  · cases first with
    | false => exact hroot
    | true =>
      have hwired : (s.wire w').SecureAt id :=
        wireNodes_rel (runs_secureAt id) (fun node _ => secureAt_wireNode node) _ w' hroot
      exact applyEach_rel (runs_secureAt id)
        (fun d _ other _ key _ => secureAt_applyKey hstock d other key) _ hwired

/-- Nor does it take a cover off that the container is new. -/
theorem secureAt_hang (hstock : s.definition.catalogue = .stock)
    (hdoc : s.definition.document.Indexed) {host id : ViewId} (hfresh : w.store.fresh = host)
    (hne : id ≠ host) (first : Bool) (h : w.SecureAt id) :
    ((s.withContainer host).settle first (w.addView ViewClass.container.blank)).2.SecureAt id := by
  have hroot : (s.withContainer host).bound? (s.withContainer host).root = some host := by
    rw [bound?_withContainer, if_pos (by simp [isRootName, withContainer])]
  have hadded : (w.addView ViewClass.container.blank).SecureAt id := by
    intro v hv
    rw [World.store_addView, ViewStore.get?_add_of_ne _ _ (hfresh ▸ hne)] at hv
    exact h v hv
  exact secureAt_settle (s := s.withContainer host) hstock hdoc hroot hne first hadded

end Scene

namespace Scene

variable {d : Definition} {key : String} {a b : DataBindings}

/-- **Loading** with data that differ at a secret key fails alike, or gives twins in worlds that
    look alike, and covers what is hidden. -/
theorem load_lookAlike (hstock : d.catalogue = .stock) (hdoc : d.document.Indexed)
    (hsecret : d.document.Secret key) (hdata : DataBindings.SameBut key a b) (root : String)
    (w : World) :
    (∃ e w₂ w₃, load d root a [] w = (.error e, w₂) ∧ load d root b [] w = (.error e, w₃) ∧
      w₃.journal = w₂.journal) ∨
    ∃ s w₂ w₃, load d root a [] w = (.ok s, w₂) ∧ load d root b [] w = (.ok (s.withData b), w₃) ∧
      s.definition = d ∧ s.Twins (s.Conceals key) w₂.store.fresh (s.withData b) ∧
      LookAlike (s.Conceals key) w₂.store.fresh w₂ w₃ ∧ ¬ s.Conceals key w₂.store.fresh ∧
      ∀ id, s.Conceals key id → w₂.SecureAt id := by
  cases hfound : (d.document.get? root).bind (·.hierarchy) with
  | none =>
    have hload : ∀ data, load d root data [] w = (.error (.of (.unknownHierarchy
        s!"Attempt to load unknown view hierarchy: {root}")), w) := fun data => by
      rw [load, hfound]
    exact Or.inl ⟨_, w, w, hload a, hload b, rfl⟩
  | some hierarchy =>
    rcases hbuilt : buildNames (bare d root hierarchy a []).nodeNames
      (bare d root hierarchy a []) w with ⟨s, w₁⟩
    -- the same views are built
    have hbuilt' : buildNames (bare d root hierarchy b []).nodeNames
        (bare d root hierarchy b []) w = (s.withData b, w₁) := by
      have hagain := buildNames_withData (bare d root hierarchy a []).nodeNames
        (bare d root hierarchy a []) b w
      rw [hbuilt] at hagain
      exact hagain
    have hbuilds := builds_of_buildNames (List.forall_mem_nil _) hbuilt
    have hnames : s.nodeNames = (bare d root hierarchy a []).nodeNames := by
      rw [nodeNames, nodeNames, hbuilds.hierarchy_eq]
    rw [← hnames] at hbuilds
    have hdefinition : s.definition = d := hbuilds.definition_eq
    have hsdata : s.data = a := hbuilds.data_eq
    rw [← hdefinition] at hstock hdoc hsecret
    rw [← hsdata] at hdata
    -- and the pass goes on in lockstep
    have htwins := twins_of_secret hstock hdoc hsecret hdata w₁.store.fresh
    have hsize := s.size_applyEach .construction s.configured w₁
    obtain ⟨hresult, hafter⟩ := htwins.agrees_applyAll .construction w₁ w₁
      (lookAlike_of_builds hbuilds hstock hsecret)
    rw [load_eq hfound a [] w hbuilt, load_eq hfound b [] w hbuilt']
    rcases hpass : s.applyAll .construction w₁ with ⟨e | ⟨⟩, w₂⟩ <;>
      rcases hpass' : (s.withData b).applyAll .construction w₁ with ⟨e' | ⟨⟩, w₃⟩ <;>
      rw [hpass, hpass'] at hresult hafter
    · obtain rfl := Except.error.inj hresult
      exact Or.inl ⟨_, w₂, w₃, rfl, rfl, hafter.journal⟩
    · cases hresult
    · cases hresult
    · have hfresh : w₂.store.fresh = w₁.store.fresh := by
        rw [← applyAll, hpass] at hsize
        exact congrArg ViewId.mk hsize
      refine Or.inr ⟨s, w₂, w₃, rfl, rfl, hdefinition, ?_⟩
      rw [hfresh]
      refine ⟨htwins, hafter, fun hid => ?_, fun id hid v hv =>
        secure_of_load hbuilds hstock hdoc hsecret hpass hid hv⟩
      exact ViewStore.not_has_fresh w₁.store
        (ViewStore.has_iff.mpr ⟨_, get?_of_conceals hbuilds hstock hsecret hid⟩)

end Scene

/-! ## What is to be seen -/

namespace Studio

/-- What is to be seen of a scene that is hung into a new container: its tree or an error, and all
    that was told. -/
def hung (s : Scene) (w : World) : Except Error String × List Event :=
  match s.attach w.store.fresh (w.addView ViewClass.container.blank) with
  | (.error e, _, w) => (.error e, w.journal)
  | (.ok (), s, w) => (.ok (tree s w), w.journal)

/-- What is to be seen of a hierarchy that is loaded and hung into a new container. -/
def realized (d : Definition) (root : String) (data : DataBindings) (w : World) :
    Except Error String × List Event :=
  match d.loadTemplated root data w with
  | (.error e, w) => (.error e, w.journal)
  | (.ok s, w) => hung s w

section
variable {hidden : ViewId → Prop} {host : ViewId} {a b : World} {s t : Scene}
  (hsecure : ∀ id, hidden id → a.SecureAt id)
include hsecure

/-- A covered field is described without its text, and any other view is the same. -/
theorem describe_lookAlike (h : LookAlike hidden host a b)
    (hbound : ∀ name, t.bound? name = s.bound? name) (name : String) :
    describe t b name = describe s a name := by
  unfold describe
  rw [hbound]
  cases s.bound? name with
  | none => rfl
  | some id =>
    rw [Option.bind_some, Option.bind_some]
    cases hu : a.store.get? id with
    | none => rw [h.get?_eq_none_iff.mpr hu]
    | some u =>
      obtain ⟨v, hv, hveiled, hplain⟩ := h.exists_get? hu
      rw [hv]
      by_cases hhidden : hidden id
      · have hsecureu := hsecure id hhidden u hu
        have hsecurev := hsecureu.of_veiled hveiled
        dsimp only
        rw [← hsecureu.summary_veiled, ← hsecurev.summary_veiled, ← u.className_veiled,
          ← v.className_veiled, hveiled]
      · rw [hplain hhidden]

/-- The trees of worlds that look alike are the same if the hidden fields are covered. -/
theorem tree_lookAlike (h : LookAlike hidden host a b) (hroot : t.root = s.root)
    (hhierarchy : t.hierarchy = s.hierarchy) (hbound : ∀ name, t.bound? name = s.bound? name) :
    tree t b = tree s a := by
  have hline : ∀ depth name, nodeLine t b depth name = nodeLine s a depth name := by
    intro depth name
    rw [nodeLine, nodeLine, describe_lookAlike hsecure h hbound]
  unfold tree
  rw [hroot, hhierarchy]
  simp only [hline]

/-- Twins that are hung into new containers show the same if the hidden fields are covered. -/
theorem hung_lookAlike (h : s.Twins hidden host t) (hab : LookAlike hidden host a b)
    (hdoc : s.definition.document.Indexed) (hfresh : a.store.fresh = host)
    (hhost : ¬ hidden host) : hung t b = hung s a := by
  have hfresh' : b.store.fresh = host := (congrArg ViewId.mk hab.size).trans hfresh
  have hfirst : t.bound? rootName = s.bound? rootName ∧ t.definition = s.definition := by
    obtain ⟨data, rfl⟩ := h.withData
    exact ⟨rfl, rfl⟩
  -- both settle in lockstep, and covers stay on
  obtain ⟨hresult, hafter⟩ := h.withContainer.agrees_settle (s.bound? rootName).isNone _ _
    (hab.addContainer hfresh hhost)
  have hcovered : ∀ id, hidden id → ((s.withContainer host).settle (s.bound? rootName).isNone
      (a.addView ViewClass.container.blank)).2.SecureAt id := by
    intro id hid
    refine Scene.secureAt_hang h.stock hdoc hfresh (fun heq => hhost (heq ▸ hid)) _ ?_
    exact hsecure id hid
  unfold hung
  rw [hfresh, hfresh', Scene.attach_eq, Scene.attach_eq, hfirst.1, hfirst.2]
  rcases hs : (s.withContainer host).settle (s.bound? rootName).isNone
    (a.addView ViewClass.container.blank) with ⟨e | ⟨⟩, a'⟩ <;>
    rcases ht : (t.withContainer host).settle (s.bound? rootName).isNone
      (b.addView ViewClass.container.blank) with ⟨e' | ⟨⟩, b'⟩ <;>
    rw [hs, ht] at hresult hafter <;> rw [hs] at hcovered
  · obtain rfl := Except.error.inj hresult
    exact congrArg (fun journal => (Except.error e', journal)) (hafter.tell _).journal
  · cases hresult
  · cases hresult
  · obtain ⟨data, rfl⟩ := h.withData
    have hfinal : LookAlike hidden host (a'.tell (heard s.definition.listener (.ok ())))
        (b'.tell (heard s.definition.listener (.ok ()))) := hafter.tell _
    refine Prod.ext (congrArg Except.ok (tree_lookAlike hcovered hfinal ?_ ?_ fun name => ?_))
      hfinal.journal <;> dsimp only <;> split_ifs <;> rfl

end

/-- **What secure fields hide does not show.**  If a key of the data is mentioned as the whole text
    of secure text fields alone, then another text of it of the same length gives the same tree, or
    the same error, and the same is told. -/
theorem realized_of_secret {d : Definition} {key : String} {a b : DataBindings}
    (hstock : d.catalogue = .stock) (hdoc : d.document.Reachable) (hsecret : d.document.Secret key)
    (hdata : DataBindings.SameBut key a b) (root : String) (w : World) :
    realized d root b w = realized d root a w := by
  unfold realized Definition.loadTemplated
  rcases Scene.load_lookAlike hstock hdoc.indexed hsecret hdata root w with
    ⟨e, w₂, w₃, ha, hb, hjournal⟩ |
    ⟨s, w₂, w₃, ha, hb, rfl, htwins, hlook, hhost, hsecure⟩
  · rw [ha, hb, Definition.reporting_eq, Definition.reporting_eq]
    exact congrArg (fun journal => (Except.error e, journal ++ heard d.listener _)) hjournal
  · rw [ha, hb]
    exact hung_lookAlike hsecure htwins hlook hdoc.indexed rfl hhost

end Studio

/-! ## A vault -/

/-- A field that covers its text, and one that does not. -/
def vaultText : String :=
  "Main:\n A\n B\nA:\n .class = TextField\n .secureTextEntry = true\n .text = #\x7bpin\x7d\n"
    ++ "B:\n .class = TextField\n .text = #\x7bname\x7d\n"

/-- The sheet with the stock classes. -/
def vault : Definition where
  document := (parseInto (.empty "sheet") vaultText).document
  catalogue := .stock
  listener := none

theorem reachable_vault : vault.document.Reachable := by
  unfold vault
  dsimp only
  exact .parse (.empty "sheet") vaultText

/-- A pin, and a name that is no secret. -/
def vaultData (pin : String) : DataBindings := .ofList [("name", "Ann"), ("pin", pin)]

theorem vault_computed :
    (∀ p ∈ vault.document.declarations.entries, p.2.Mentions "pin" → p.2.Hides "pin") ∧
    (∀ k ∈ (vaultData "1234").changedKeys (vaultData " 56 7 "), k = "pin") ∧
    (vaultData "1234").get? "pin" = some "1234" ∧ (vaultData " 56 7 ").get? "pin" = some " 56 7 " ∧
    (trimmedByLine " 56 7 ").length = (trimmedByLine "1234").length := by
  decide +kernel

namespace Studio

theorem isOk_realized_vault :
    (realized vault "Main" (vaultData "1234") .empty).1.isOk = true := by
  decide +kernel

/-- Two pins that have four characters without the blanks around them show the same. -/
theorem realized_vault : (realized vault "Main" (vaultData "1234") .empty).1.isOk = true ∧
    realized vault "Main" (vaultData " 56 7 ") .empty =
      realized vault "Main" (vaultData "1234") .empty := by
  obtain ⟨hsecret, hchanged, hold, hnew, hlength⟩ := vault_computed
  refine ⟨isOk_realized_vault, realized_of_secret rfl reachable_vault
    (Document.forall_get? hsecret) ⟨fun k hk => ?_, _, _, hold, hnew, hlength⟩ "Main" .empty⟩
  by_contra hne
  exact hk (hchanged k (DataBindings.mem_changedKeys.mpr (Ne.symm hne)))

end Studio

end ViewSheet
