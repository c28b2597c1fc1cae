/-
  Lockstep: two scenes that differ in texts which are not to be seen.

  1. **Specification**: two worlds *look alike* if they differ in nothing but the texts of some
     hidden text fields, and these are of the same length (`LookAlike`).  Two scenes are *twins* if
     they differ in data alone, and the data in texts that go to hidden fields or to a container,
     which has no text (`Scene.Twins`).

  2. **The crux** (`Twins.agrees_applyKey`): handing one property over gives the same in both and
     leaves worlds that look alike.  Either both texts are the same, or both are taken by fields of
     which only the length shows, or both are refused alike.

  3. **Result**: what each step keeps, a pass keeps, and so does settling a container
     (`Twins.agrees_applyAll`, `Twins.agrees_settle`).
-/
import ViewSheet.Proofs.Locality
import ViewSheet.Proofs.Mentions
import ViewSheet.Proofs.Veiling

namespace ViewSheet

open Text

/-! ## Worlds that look alike -/

/-- The worlds differ in the texts of hidden text fields alone, and these are of the same length.
    The host's container, as soon as it is there, is no text field. -/
structure LookAlike (hidden : ViewId → Prop) (host : ViewId) (a b : World) : Prop where
  journal : b.journal = a.journal
  size : b.store.size = a.store.size
  veiled : ∀ id, (b.store.get? id).map View.veiled = (a.store.get? id).map View.veiled
  plain : ∀ id, ¬ hidden id → b.store.get? id = a.store.get? id
  fields : ∀ id v, hidden id → a.store.get? id = some v → v.form = .stock (.textField {})
  container : ∀ v, a.store.get? host = some v → v.form = .stock (.container {})

namespace LookAlike

variable {hidden : ViewId → Prop} {host : ViewId} {a b : World}

theorem bases (h : LookAlike hidden host a b) (id : ViewId) :
    (b.store.get? id).map View.base = (a.store.get? id).map View.base := by
  have hveiled := congrArg (Option.map View.base) (h.veiled id)
  rw [Option.map_map, Option.map_map] at hveiled
  have hcomp : View.base ∘ View.veiled = View.base := funext View.base_veiled
  rw [hcomp] at hveiled
  exact hveiled

theorem subviews (h : LookAlike hidden host a b) (id : ViewId) :
    b.store.subviews id = a.store.subviews id := by
  have hread : ∀ s : ViewStore,
      s.subviews id = (((s.get? id).map View.base).map Container.subviews).getD [] := by
    intro s
    rw [ViewStore.subviews]
    cases s.get? id <;> rfl
  rw [hread, hread, h.bases]

theorem holds (h : LookAlike hidden host a b) (view target : ViewId) :
    b.store.holds view target = a.store.holds view target := by
  rw [ViewStore.holds, ViewStore.holds, h.size]
  exact ViewStore.reaches_congr (R := fun _ => True) (fun id _ => h.subviews id)
    (fun _ _ _ _ => trivial) target _ trivial

/-- A view of the one world is in the other as well, and looks the same. -/
theorem exists_get? (h : LookAlike hidden host a b) {id : ViewId} {u : View}
    (hu : a.store.get? id = some u) :
    ∃ v, b.store.get? id = some v ∧ v.veiled = u.veiled ∧ (¬ hidden id → v = u) := by
  have hveiled := h.veiled id
  rw [hu, Option.map_some] at hveiled
  obtain ⟨v, hv, heq⟩ := Option.map_eq_some_iff.mp hveiled
  refine ⟨v, hv, heq, fun hplain => ?_⟩
  have hsame := h.plain id hplain
  rw [hu, hv, Option.some.injEq] at hsame
  exact hsame

/-- Both worlds have the view or neither has it. -/
theorem get?_eq_none_iff (h : LookAlike hidden host a b) {id : ViewId} :
    b.store.get? id = none ↔ a.store.get? id = none := by
  rw [← Option.map_eq_none_iff (f := View.veiled), h.veiled, Option.map_eq_none_iff]

/-- A world looks like itself. -/
theorem refl {w : World} (hfields : ∀ id v, hidden id → w.store.get? id = some v →
      v.form = .stock (.textField {}))
    (hcontainer : ∀ v, w.store.get? host = some v → v.form = .stock (.container {})) :
    LookAlike hidden host w w :=
  ⟨rfl, rfl, fun _ => rfl, fun _ _ => rfl, hfields, hcontainer⟩

theorem tell (h : LookAlike hidden host a b) (events : List Event) :
    LookAlike hidden host (a.tell events) (b.tell events) :=
  ⟨congrArg (· ++ events) h.journal, h.size, h.veiled, h.plain, h.fields, h.container⟩

/-- The record of texts is not looked at. -/
theorem enter (h : LookAlike hidden host a b) (x y : Execution) :
    LookAlike hidden host (a.enter x) (b.enter y) :=
  ⟨h.journal, h.size, h.veiled, h.plain, h.fields, h.container⟩

theorem setView (h : LookAlike hidden host a b) {id : ViewId} {old u v : View}
    (hold : a.store.get? id = some old) (hform : u.form = old.form) (hveiled : v.veiled = u.veiled)
    (hplain : ¬ hidden id → v = u) : LookAlike hidden host (a.setView id u) (b.setView id v) := by
  obtain ⟨old', hold', -⟩ := h.exists_get? hold
  have hu : (a.store.set id u).get? id = some u := ViewStore.get?_set_self hold u
  have hv : (b.store.set id v).get? id = some v := ViewStore.get?_set_self hold' v
  have hothers : ∀ other, other ≠ id → (a.store.set id u).get? other = a.store.get? other ∧
      (b.store.set id v).get? other = b.store.get? other := fun other hne =>
    ⟨ViewStore.get?_set_of_ne a.store u hne, ViewStore.get?_set_of_ne b.store v hne⟩
  have hforms : ∀ other w, (a.store.set id u).get? other = some w →
      ∃ w', a.store.get? other = some w' ∧ w.form = w'.form := by
    intro other w hw
    by_cases hid : other = id
    · subst hid
      rw [hu, Option.some.injEq] at hw
      exact ⟨old, hold, hw ▸ hform⟩
    · rw [(hothers other hid).1] at hw
      exact ⟨w, hw, rfl⟩
  refine ⟨h.journal, ?_, fun other => ?_, fun other hother => ?_, fun other w hhidden hw => ?_,
    fun w hw => ?_⟩
  · rw [World.store_setView, World.store_setView, ViewStore.size_set, ViewStore.size_set, h.size]
  · show ((b.store.set id v).get? other).map _ = ((a.store.set id u).get? other).map _
    by_cases hid : other = id
    · rw [hid, hu, hv, Option.map_some, Option.map_some, hveiled]
    · rw [(hothers other hid).1, (hothers other hid).2, h.veiled]
  · show (b.store.set id v).get? other = (a.store.set id u).get? other
    by_cases hid : other = id
    · rw [hid, hu, hv, hplain (hid ▸ hother)]
    · rw [(hothers other hid).1, (hothers other hid).2, h.plain other hother]
  · obtain ⟨w', hw', heq⟩ := hforms other w hw
    exact heq.trans (h.fields other w' hhidden hw')
  · obtain ⟨w', hw', heq⟩ := hforms host w hw
    exact heq.trans (h.container w' hw')

/-- The host puts its container into both worlds. -/
theorem addContainer (h : LookAlike hidden host a b) (hfresh : a.store.fresh = host)
    (hhost : ¬ hidden host) :
    LookAlike hidden host (a.addView ViewClass.container.blank)
      (b.addView ViewClass.container.blank) := by
  have hfresh' : b.store.fresh = host := (congrArg ViewId.mk h.size).trans hfresh
  have hnew : ∀ w : World, w.store.fresh = host →
      (w.store.add ViewClass.container.blank).get? host = some ViewClass.container.blank := by
    rintro w rfl
    exact ViewStore.get?_add_fresh w.store _
  have hothers : ∀ w : World, w.store.fresh = host → ∀ id, id ≠ host →
      (w.store.add ViewClass.container.blank).get? id = w.store.get? id := by
    rintro w rfl id hid
    exact ViewStore.get?_add_of_ne w.store _ hid
  refine ⟨h.journal, ?_, fun id => ?_, fun id hid => ?_, fun id v hhidden hv => ?_, fun v hv => ?_⟩
  · rw [World.store_addView, World.store_addView, ViewStore.size_add, ViewStore.size_add, h.size]
  · rw [World.store_addView, World.store_addView]
    by_cases hid : id = host
    · rw [hid, hnew a hfresh, hnew b hfresh']
    · rw [hothers a hfresh id hid, hothers b hfresh' id hid, h.veiled]
  · rw [World.store_addView, World.store_addView]
    by_cases hhost : id = host
    · rw [hhost, hnew a hfresh, hnew b hfresh']
    · rw [hothers a hfresh id hhost, hothers b hfresh' id hhost, h.plain id hid]
  · rw [World.store_addView, hothers a hfresh id fun hid => hhost (hid ▸ hhidden)] at hv
    exact h.fields id v hhidden hv
  · rw [World.store_addView, hnew a hfresh, Option.some.injEq] at hv
    exact hv ▸ rfl

/-- A view is attached to another in both worlds. -/
theorem attach (h : LookAlike hidden host a b) (parent child : ViewId) :
    LookAlike hidden host { a with store := a.store.attach parent child }
      { b with store := b.store.attach parent child } := by
  have hform : ∀ id v, (a.store.attach parent child).get? id = some v →
      ∃ v', a.store.get? id = some v' ∧ v.form = v'.form := by
    intro id v hv
    by_cases hid : id = parent
    · subst hid
      rw [ViewStore.get?_attach_self] at hv
      obtain ⟨v', hv', rfl⟩ := Option.map_eq_some_iff.mp hv
      exact ⟨v', hv', View.form_withBase v' _⟩
    · rw [ViewStore.get?_attach_of_ne _ _ hid] at hv
      exact ⟨v, hv, rfl⟩
  have hveiled : View.veiled ∘ (·.addSubview child) = (·.addSubview child) ∘ View.veiled :=
    funext fun v => v.veiled_addSubview child
  refine ⟨h.journal, ?_, fun id => ?_, fun id hid => ?_, fun id v hhidden hv => ?_, fun v hv => ?_⟩
  · exact (ViewStore.size_attach _ _ _).trans (h.size.trans (ViewStore.size_attach _ _ _).symm)
  · show ((b.store.attach parent child).get? id).map _ =
      ((a.store.attach parent child).get? id).map _
    by_cases hid : id = parent
    · subst hid
      rw [ViewStore.get?_attach_self, ViewStore.get?_attach_self, Option.map_map, Option.map_map,
        hveiled, ← Option.map_map, ← Option.map_map, h.veiled]
    · rw [ViewStore.get?_attach_of_ne _ _ hid, ViewStore.get?_attach_of_ne _ _ hid, h.veiled]
  · show (b.store.attach parent child).get? id = (a.store.attach parent child).get? id
    by_cases hparent : id = parent
    · subst hparent
      rw [ViewStore.get?_attach_self, ViewStore.get?_attach_self, h.plain id hid]
    · rw [ViewStore.get?_attach_of_ne _ _ hparent, ViewStore.get?_attach_of_ne _ _ hparent,
        h.plain id hid]
  · obtain ⟨v', hv', heq⟩ := hform id v hv
    exact heq.trans (h.fields id v' hhidden hv')
  · obtain ⟨v', hv', heq⟩ := hform host v hv
    exact heq.trans (h.container v' hv')

end LookAlike

/-! ## Steps in two worlds -/

/-- Both steps give the same, and leave related worlds. -/
def Agrees (R : World → World → Prop) (f g : World → Except Error Unit × World) : Prop :=
  ∀ a b, R a b → (g b).1 = (f a).1 ∧ R (f a).2 (g b).2

/-- One step after the other, unless the first one fails. -/
def andThen (f g : World → Except Error Unit × World) (w : World) : Except Error Unit × World :=
  match f w with
  | (.error e, w) => (.error e, w)
  | (.ok (), w) => g w

section
variable {R : World → World → Prop} {f g f' g' : World → Except Error Unit × World}

theorem agrees_skip : Agrees R (fun w => (.ok (), w)) fun w => (.ok (), w) := fun _ _ h => ⟨rfl, h⟩

theorem Agrees.andThen (hf : Agrees R f f') (hg : Agrees R g g') :
    Agrees R (andThen f g) (ViewSheet.andThen f' g') := by
  intro a b h
  obtain ⟨hresult, hafter⟩ := hf a b h
  unfold ViewSheet.andThen
  rcases ha : f a with ⟨e | ⟨⟩, a'⟩ <;> rcases hb : f' b with ⟨e' | ⟨⟩, b'⟩ <;>
    rw [ha, hb] at hresult hafter
  · exact ⟨hresult, hafter⟩
  · cases hresult
  · cases hresult
  · exact hg a' b' hafter

end

/-- What two setters made of views looks alike. -/
structure Matching (hidden : Prop) (x y : Receipt) : Prop where
  events : y.events = x.events
  result : y.result = x.result
  veiled : y.view.veiled = x.view.veiled
  plain : ¬ hidden → y.view = x.view

namespace Scene

/-! ## Twins -/

/-- Two texts on one line of the sheet that have as many characters without the blanks around their
    own lines. -/
def SameLength (p q : PropertyText) : Prop :=
  q.line = p.line ∧ (trimmedByLine q.value).length = (trimmedByLine p.value).length

/-- Fields that look alike still do when each has taken a text, and the texts are of one length. -/
theorem receive_text_matching {hidden : Prop} (hhidden : hidden) {x y : TextField}
    (hveiled : y.veiled = x.veiled) {p q : PropertyText} (hlength : SameLength p q)
    {turn turn' : Turn} (hturn : turn.Alike turn') :
    Matching hidden
      (Catalogue.stock.receive "text" turn (.start p.value p.line) (.stock (.textField x)))
      (Catalogue.stock.receive "text" turn' (.start q.value q.line) (.stock (.textField y))) := by
  obtain ⟨hevents, hresult, hview⟩ := Catalogue.receive_text turn p x
  obtain ⟨hevents', hresult', hview'⟩ := Catalogue.receive_text turn' q y
  refine ⟨hevents'.trans hevents.symm, hresult'.trans hresult.symm, ?_,
    fun hnot => absurd hhidden hnot⟩
  rw [hview, hview']
  cases hturn with
  | construction =>
    exact congrArg (fun t => View.stock (.textField t))
      (TextField.veiled_of_length hveiled hlength.2)
  | attached _ => exact congrArg (fun t => View.stock (.textField t)) hveiled

/-- The scenes differ in data alone.  A text that differs is one of a declaration whose view is
    hidden or the host's container. -/
structure Twins (hidden : ViewId → Prop) (host : ViewId) (s t : Scene) : Prop where
  withData : ∃ data, t = s.withData data
  stock : s.definition.catalogue = .stock
  texts : ∀ name d key, s.definition.document.get? name = some d →
    d.filled? key t.data = d.filled? key s.data ∨
      (key = "text" ∧
        (∃ p q, d.filled? key s.data = some p ∧ d.filled? key t.data = some q ∧ SameLength p q) ∧
        ∀ id, s.bound? d.name = some id → hidden id ∨ id = host)

namespace Twins

variable {hidden : ViewId → Prop} {host : ViewId} {s t : Scene}

/-- What two setters make of views that look alike. -/
theorem receipt_lookAlike (h : Twins hidden host s t) {a b : World}
    (hab : LookAlike hidden host a b) {id : ViewId} {u v : View} (hu : a.store.get? id = some u)
    (hv : b.store.get? id = some v) {key : String} {p q : PropertyText} (htexts : q = p ∨
      (key = "text" ∧ SameLength p q ∧ (hidden id ∨ id = host))) (phase : Phase) :
    Matching (hidden id) (s.receipt phase id key p a u) (t.receipt phase id key q b v) := by
  obtain ⟨data, rfl⟩ := h.withData
  obtain ⟨v', hv', hveiled, hplain⟩ := hab.exists_get? hu
  obtain rfl : v' = v := Option.some.inj (hv'.symm.trans hv)
  have hturn : (s.turn phase a id).Alike ((s.withData data).turn phase b id) := by
    cases phase with
    | construction => exact .construction
    | attached => exact .attached ⟨rfl, rfl, hab.bases⟩
  have hstock : (s.withData data).definition.catalogue = .stock := h.stock
  unfold receipt
  rw [hstock, h.stock]
  by_cases hhidden : hidden id
  · obtain ⟨x, rfl⟩ := View.exists_textField_of_form (hab.fields id u hhidden hu)
    obtain ⟨y, rfl⟩ : ∃ y, v' = .stock (.textField y) := by
      rcases v' with ⟨⟨⟩⟩ | _
      case stock.textField y => exact ⟨y, rfl⟩
      all_goals cases hveiled
    by_cases hkey : key = "text"
    · -- both fields take their texts, which are of one length
      have hlength : SameLength p q := by
        rcases htexts with rfl | ⟨-, hlength, -⟩
        · exact ⟨rfl, rfl⟩
        · exact hlength
      subst hkey
      exact receive_text_matching hhidden (StockView.textField.inj (View.stock.inj hveiled)) hlength
        hturn
    · -- the veil is carried
      obtain rfl : q = p := htexts.resolve_right fun hother => hkey hother.1
      obtain ⟨hevents, hresult, hview⟩ := Catalogue.receive_alike (c := .stock)
        View.className_veiled hveiled (fun r hr => Catalogue.carries_veiled.setter? hr hkey) hturn
        (.start q.value q.line)
      exact ⟨hevents, hresult, hview, fun hnot => absurd hhidden hnot⟩
  · obtain rfl := hplain hhidden
    rcases htexts with rfl | ⟨rfl, hlength, hhost⟩
    · -- the same text for the same view
      obtain ⟨hevents, hresult, hview⟩ :=
        Catalogue.receive_same hturn key (.start q.value q.line) v'
      exact ⟨hevents, hresult, congrArg View.veiled hview, fun _ => hview⟩
    · -- the container refuses both texts
      obtain rfl := hhost.resolve_left hhidden
      obtain ⟨c, rfl⟩ := View.exists_container_of_form (hab.container _ hu)
      rw [Catalogue.receive_text_container, Catalogue.receive_text_container]
      refine ⟨rfl, ?_, rfl, fun _ => rfl⟩
      rw [show (Cursor.start q.value q.line).line = q.line from rfl, hlength.1]
      rfl

/-- **Handing one property over** agrees in both scenes. -/
theorem agrees_applyKey (h : Twins hidden host s t) {name : String} {d : Declaration}
    (hd : s.definition.document.get? name = some d) {id : ViewId}
    (hid : s.bound? d.name = some id) (phase : Phase) (key : String) :
    Agrees (LookAlike hidden host) (s.applyKey phase d id key) (t.applyKey phase d id key) := by
  intro a b hab
  have hboth : ∀ p q, d.filled? key s.data = some p → d.filled? key t.data = some q →
      q = p ∨ key = "text" ∧ SameLength p q ∧ (hidden id ∨ id = host) := by
    intro p q hp hq
    rcases h.texts name d key hd with hsame | ⟨hkey, ⟨p', q', hp', hq', hlength⟩, hwhere⟩
    · rw [hp, hq, Option.some.injEq] at hsame
      exact Or.inl hsame
    · obtain rfl := Option.some.inj (hp.symm.trans hp')
      obtain rfl := Option.some.inj (hq.symm.trans hq')
      exact Or.inr ⟨hkey, hlength, hwhere id hid⟩
  -- whether there is anything to hand over does not depend on the data
  have hnothing : (t.handing phase d key = none ∨ b.store.get? id = none) ↔
      (s.handing phase d key = none ∨ a.store.get? id = none) := by
    simp only [handing, Declaration.filled?, Option.map_eq_none_iff, hab.get?_eq_none_iff]
  have hsomething : ∀ {r : Scene} {w : World} {p : PropertyText} {v : View},
      d.filled? key r.data = some p → w.store.get? id = some v →
      ¬ (r.handing phase d key = none ∨ w.store.get? id = none) := by
    rintro r w p v hp hv (hnone | hnone)
    · rw [handing, hp] at hnone
      cases hnone
    · rw [hv] at hnone
      cases hnone
  rcases s.applyKey_cases phase d id key a with
    ⟨hnone, ha⟩ | ⟨p, u, hp, hu, hs⟩ <;>
    rcases t.applyKey_cases phase d id key b with
      ⟨hnone', hb⟩ | ⟨q, v, hq, hv, ht⟩
  · rw [ha, hb]
    exact ⟨rfl, hab⟩
  · exact absurd (hnothing.mpr hnone) (hsomething hq hv)
  · exact absurd (hnothing.mp hnone') (hsomething hp hu)
  · obtain ⟨hevents, hresult, hveiled, hplain⟩ :=
      h.receipt_lookAlike hab hu hv (hboth p q hp hq) phase
    have hform : (s.receipt phase id key p a u).view.form = u.form := by
      rw [receipt, h.stock]
      exact Catalogue.form_receive key _ _ u
    have hafter : LookAlike hidden host (s.received phase d id key p a u)
        (t.received phase d id key q b v) := by
      rw [received, received, hevents]
      exact ((hab.enter _ _).setView hu hform hveiled hplain).tell _
    rcases hs with ⟨hru, ha⟩ | ⟨e, hru, ha⟩ <;> rcases ht with ⟨hrv, hb⟩ | ⟨e', hrv, hb⟩ <;>
      rw [hru, hrv] at hresult <;> rw [ha, hb]
    · exact ⟨rfl, hafter⟩
    · cases hresult
    · cases hresult
    · obtain rfl := Except.error.inj hresult
      exact ⟨rfl, hafter⟩

/-! ## Passes -/

theorem agrees_applyKeys (h : Twins hidden host s t) {name : String} {d : Declaration}
    (hd : s.definition.document.get? name = some d) {id : ViewId}
    (hid : s.bound? d.name = some id) (phase : Phase) (keys : List String) :
    Agrees (LookAlike hidden host) (s.applyKeys phase d id keys) (t.applyKeys phase d id keys) := by
  have hcons : ∀ (r : Scene) key rest, r.applyKeys phase d id (key :: rest) =
      andThen (r.applyKey phase d id key) (r.applyKeys phase d id rest) := fun _ _ _ => rfl
  induction keys with
  | nil => exact agrees_skip
  | cons key rest ih =>
    rw [hcons, hcons]
    exact (h.agrees_applyKey hd hid phase key).andThen ih

theorem agrees_applyDeclaration (h : Twins hidden host s t) {name : String} {d : Declaration}
    (hd : s.definition.document.get? name = some d) (phase : Phase) (keys : List String) :
    Agrees (LookAlike hidden host) (s.applyDeclaration phase d keys)
      (t.applyDeclaration phase d keys) := by
  have hbound : t.bound? d.name = s.bound? d.name := by
    obtain ⟨data, rfl⟩ := h.withData
    rfl
  unfold applyDeclaration
  rw [hbound]
  cases hid : s.bound? d.name with
  | none => exact agrees_skip
  | some id => exact h.agrees_applyKeys hd hid phase keys

theorem agrees_applyEach (h : Twins hidden host s t) (phase : Phase) {ds : List Declaration}
    (hds : ∀ d ∈ ds, ∃ name, s.definition.document.get? name = some d) :
    Agrees (LookAlike hidden host) (s.applyEach phase ds) (t.applyEach phase ds) := by
  have hcons : ∀ (r : Scene) d rest, r.applyEach phase (d :: rest) =
      andThen (r.applyDeclaration phase d d.setterKeys) (r.applyEach phase rest) :=
    fun _ _ _ => rfl
  induction ds with
  | nil => exact agrees_skip
  | cons d rest ih =>
    obtain ⟨name, hd⟩ := hds d List.mem_cons_self
    rw [hcons, hcons]
    exact (h.agrees_applyDeclaration hd phase d.setterKeys).andThen
      (ih fun e he => hds e (List.mem_cons_of_mem d he))

/-- **A pass** agrees in both scenes. -/
theorem agrees_applyAll (h : Twins hidden host s t) (phase : Phase) :
    Agrees (LookAlike hidden host) (s.applyAll phase) (t.applyAll phase) := by
  have hconfigured : t.configured = s.configured := by
    obtain ⟨data, rfl⟩ := h.withData
    rfl
  unfold applyAll
  rw [hconfigured]
  refine h.agrees_applyEach phase fun d hd => ?_
  obtain ⟨⟨name, -, hname⟩, -⟩ := mem_configured.mp hd
  exact ⟨name, hname⟩

theorem agrees_configureRoot (h : Twins hidden host s t) :
    Agrees (LookAlike hidden host) s.configureRoot t.configureRoot := by
  have hsame : t.definition = s.definition ∧ t.root = s.root := by
    obtain ⟨data, rfl⟩ := h.withData
    exact ⟨rfl, rfl⟩
  unfold configureRoot
  rw [hsame.1, hsame.2]
  cases hd : s.definition.document.get? s.root with
  | none => exact agrees_skip
  | some d => exact h.agrees_applyDeclaration hd .construction d.setterKeys

theorem lookAlike_wireNode (h : Twins hidden host s t) {a b : World}
    (hab : LookAlike hidden host a b) (node : Nat) :
    LookAlike hidden host (s.wireNode node a) (t.wireNode node b) := by
  obtain ⟨data, rfl⟩ := h.withData
  show LookAlike hidden host (s.wireNode node a) (s.wireNode node b)
  unfold wireNode
  dsimp only
  cases s.hierarchy.parent? node with
  | none => exact hab
  | some p =>
    dsimp only
    split
    · exact hab
    · cases s.bound? (s.hierarchy.nameOf p) with
      | none => exact hab
      | some parent =>
        cases s.bound? (s.hierarchy.nameOf node) with
        | none => exact hab
        | some child =>
          -- the lists of attached views are the same in both worlds
          dsimp only
          rw [hab.holds]
          split
          · exact hab.tell _
          · exact hab.attach parent child

theorem lookAlike_wire (h : Twins hidden host s t) {a b : World} (hab : LookAlike hidden host a b) :
    LookAlike hidden host (s.wire a) (t.wire b) := by
  have hnodes : ∀ nodes a b, LookAlike hidden host a b →
      LookAlike hidden host (s.wireNodes nodes a) (t.wireNodes nodes b) := by
    intro nodes
    induction nodes with
    | nil => exact fun _ _ hab => hab
    | cons node rest ih => exact fun a b hab => ih _ _ (h.lookAlike_wireNode hab node)
  have hhierarchy : t.hierarchy = s.hierarchy := by
    obtain ⟨data, rfl⟩ := h.withData
    rfl
  unfold wire
  rw [hhierarchy]
  exact hnodes _ a b hab

/-- **Settling a container** agrees in both scenes. -/
theorem agrees_settle (h : Twins hidden host s t) (first : Bool) :
    Agrees (LookAlike hidden host) (s.settle first) (t.settle first) := by
  have hsettle : ∀ r : Scene, r.settle first = andThen r.configureRoot fun w =>
      if first then r.applyAll .attached (r.wire w) else (.ok (), w) := fun _ => rfl
  rw [hsettle, hsettle]
  refine h.agrees_configureRoot.andThen ?_
  cases first with
  | false => exact agrees_skip
  | true => exact fun a b hab => h.agrees_applyAll .attached _ _ (h.lookAlike_wire hab)

/-- The twins still are twins when both have their containers. -/
theorem withContainer (h : Twins hidden host s t) :
    Twins hidden host (s.withContainer host) (t.withContainer host) := by
  obtain ⟨data, rfl⟩ := h.withData
  refine ⟨⟨data, rfl⟩, h.stock, fun name d key hd => ?_⟩
  rcases h.texts name d key hd with hsame | ⟨hkey, htexts, hwhere⟩
  · exact Or.inl hsame
  · refine Or.inr ⟨hkey, htexts, fun id hid => ?_⟩
    rw [bound?_withContainer] at hid
    split at hid
    · exact Or.inr (Option.some.inj hid).symm
    · exact hwhere id hid

end Twins

end Scene

end ViewSheet
