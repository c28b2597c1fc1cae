/-
  Veiling: what setters make of a text field whose text is not to be seen.

  1. **Specification**: a *veiled* text field has a bullet in the place of every character of its
     text, a *covered* one is secure.  Both exchange one part of a text field (`View.mapField`).
     The text of a secure field is all that veiling takes away, so its summary stays the same
     (`View.Secure.summary_veiled`).

  2. **The crux** (`Setter.Carries`): a setter may be given a changed view, in surroundings that
     have the same containers, and what comes of it is changed in the same way.  Every stock setter
     carries veils but those of texts, and covers but those of `secureTextEntry`.

  3. **Result** (`receive_alike`): views that look alike still do when they have been handed the
     same text, and the same was told.
-/
import ViewSheet.Proofs.Inheritance
import ViewSheet.Proofs.Receiving
import ViewSheet.Proofs.Upkeep
import ViewSheet.View.Summary

namespace ViewSheet

open Text

/-! ## Veils and covers -/

namespace TextField

/-- The text field with a bullet for each character of its text. -/
def veiled (t : TextField) : TextField :=
  { t with text := String.ofList (t.text.toList.map fun _ => '•') }

/-- The text field with its text covered. -/
def covered (t : TextField) : TextField := { t with secure := true }

/-- Of texts that are put in, only the length is seen through a veil. -/
theorem veiled_of_length {t u : TextField} (htu : u.veiled = t.veiled) {x y : String}
    (h : y.length = x.length) :
    veiled { u with text := y } = veiled { t with text := x } := by
  have hothers : { u with text := y } = { t with text := y } :=
    congrArg (fun t : TextField => { t with text := y }) htu
  have hbullets : y.toList.map (fun _ => '•') = x.toList.map fun _ => '•' := by
    rw [List.map_const', List.map_const', String.length_toList, String.length_toList, h]
  rw [hothers]
  simp only [veiled, hbullets]

end TextField

namespace StockView

/-- Changes a text field; other views stay as they are. -/
def mapField (g : TextField → TextField) : StockView → StockView
  | textField t => textField (g t)
  | other => other

/-- The new view of the same class. -/
def form : StockView → StockView
  | container _ => container {}
  | control _ => control {}
  | label _ => label {}
  | button _ => button {}
  | stack _ => stack {}
  | textField _ => textField {}

end StockView

namespace View

/-- Changes the text field that a view is, or embeds; other views stay as they are. -/
def mapField (g : TextField → TextField) (v : View) : View := v.withCore (v.core.mapField g)

/-- The view with its text veiled, if it is a text field. -/
def veiled : View → View := mapField TextField.veiled

/-- The view with its text covered, if it is a text field. -/
def covered : View → View := mapField TextField.covered

/-- The new view of the same class. -/
def form (v : View) : View := v.withCore v.core.form

/-- A text field whose text does not show. -/
def Secure : View → Prop
  | stock (.textField t) => t.secure = true
  | _ => False

theorem exists_textField_of_form {v : View} (h : v.form = stock (.textField {})) :
    ∃ t, v = stock (.textField t) := by
  rcases v with ⟨⟨⟩⟩ | _
  case stock.textField t => exact ⟨t, rfl⟩
  all_goals cases h

theorem exists_container_of_form {v : View} (h : v.form = stock (.container {})) :
    ∃ c, v = stock (.container c) := by
  rcases v with ⟨⟨⟩⟩ | _
  case stock.container c => exact ⟨c, rfl⟩
  all_goals cases h

theorem secure_iff {v : View} :
    v.Secure ↔ v.form = stock (.textField {}) ∧ v.covered = v := by
  constructor
  · intro h
    rcases v with ⟨⟨⟩⟩ | _
    case stock.textField t =>
      have hsecure : t.secure = true := h
      refine ⟨rfl, ?_⟩
      show stock (.textField t.covered) = _
      rw [TextField.covered, ← hsecure]
    all_goals exact h.elim
  · rintro ⟨hform, hcovered⟩
    obtain ⟨t, rfl⟩ := exists_textField_of_form hform
    exact (congrArg TextField.secure (StockView.textField.inj (stock.inj hcovered))).symm

theorem form_withCore {v : View} {core : StockView} (h : core.form = v.core.form) :
    (v.withCore core).form = v.form := by
  rw [form, form, core_withCore, withCore_withCore, h]

theorem form_withBase (v : View) (base : Container) : (v.withBase base).form = v.form := by
  refine form_withCore ?_
  cases v.core <;> rfl

theorem className_veiled (v : View) : v.veiled.className = v.className := by
  refine className_withCore ?_
  cases v.core <;> rfl

theorem base_veiled (v : View) : v.veiled.base = v.base := by
  rw [veiled, mapField, base, base, core_withCore]
  cases v.core <;> rfl

theorem veiled_addSubview (v : View) (child : ViewId) :
    (v.addSubview child).veiled = v.veiled.addSubview child := by
  rcases v with ⟨⟨⟩⟩ | ⟨_, ⟨⟩, _⟩ <;> rfl

theorem Secure.addSubview {v : View} (h : v.Secure) (child : ViewId) :
    (v.addSubview child).Secure := by
  rcases v with ⟨⟨⟩⟩ | _ <;> exact h

/-- The cover shows through a veil. -/
theorem Secure.of_veiled {u v : View} (h : u.Secure) (hveiled : v.veiled = u.veiled) :
    v.Secure := by
  obtain ⟨t, rfl⟩ := exists_textField_of_form (secure_iff.mp h).1
  rcases v with ⟨⟨⟩⟩ | _
  case stock.textField t' =>
    exact (congrArg TextField.secure (StockView.textField.inj (stock.inj hveiled))).trans h
  all_goals cases hveiled

/-- The summary of a secure field does not tell more than that of the veiled one. -/
theorem Secure.summary_veiled {v : View} (h : v.Secure) : v.veiled.summary = v.summary := by
  obtain ⟨t, rfl⟩ := exists_textField_of_form (secure_iff.mp h).1
  have hsecure : t.secure = true := h
  have hshown : t.veiled.shown = t.shown := by
    simp [TextField.shown, TextField.veiled, hsecure]
  show t.veiled.summary = t.summary
  rw [TextField.summary, hshown]
  rfl

end View

/-! ## What setters carry -/

/-- Surroundings in which the same names stand for views with the same containers. -/
structure Surroundings.Alike (a b : Surroundings) : Prop where
  bindings : b.bindings = a.bindings
  busy : b.busy = a.busy
  bases : ∀ id, (b.store.get? id).map View.base = (a.store.get? id).map View.base

/-- The same turn, with a look at surroundings that are alike. -/
inductive Turn.Alike : Turn → Turn → Prop
  | construction : Alike .construction .construction
  | attached {a b : Surroundings} (h : a.Alike b) : Alike (.attached a) (.attached b)

theorem Turn.Alike.refl (turn : Turn) : turn.Alike turn := by
  cases turn with
  | construction => exact .construction
  | attached around => exact .attached ⟨rfl, rfl, fun _ => rfl⟩

/-- Given a changed view, the setter does the same and leaves the view changed in the same way. -/
def Setter.Carries (f : View → View) (s : Setter) : Prop :=
  ∀ turn turn', turn.Alike turn' → ∀ v value, s.handOver turn' (f v) value =
    ((s.handOver turn v value).1, (s.handOver turn v value).2.1, f (s.handOver turn v value).2.2)

/-- Changing the view changes the part of it that belongs to the class. -/
structure ViewClass.Carries {V : Type} (cls : ViewClass V) (f : View → View) (g : V → V) :
    Prop where
  get? : ∀ v, cls.get? (f v) = (cls.get? v).map g
  set : ∀ v p q, cls.get? v = some p → cls.set (f v) (g q) = f (cls.set v q)

namespace ViewClass

section
variable {V α : Type} {cls : ViewClass V} {name : String} {kind : Kind α} {f : View → View}
  {g : V → V}

theorem carries_id (cls : ViewClass V) : cls.Carries id id :=
  ⟨fun v => by simp, fun _ _ _ _ => rfl⟩

theorem carries_property {change : V → α → V} (h : cls.Carries f g)
    (hchange : ∀ p a, change (g p) a = g (change p a)) :
    (cls.property name kind change).setter.Carries f := by
  intro turn turn' hturn v value
  cases hturn with
  | attached _ => rfl
  | construction =>
    simp only [Setter.handOver, Registration.setter, property, onConstruction, List.foldl_cons,
      List.foldl_nil, Setter.withHook, h.get?]
    cases hv : cls.get? v with
    | none => rfl
    | some p =>
      cases kind.project value with
      | none => rfl
      | some a =>
        dsimp only [Option.map_some]
        rw [hchange, h.set v p _ hv]

theorem carries_attachedProperty
    {change : Surroundings → V → α → List Event × Except Error Unit × V}
    (h : cls.Carries f g) (hchange : ∀ a b, a.Alike b → ∀ p x,
      change b (g p) x = ((change a p x).1, (change a p x).2.1, g (change a p x).2.2)) :
    (cls.attachedProperty name kind change).setter.Carries f := by
  intro turn turn' hturn v value
  cases hturn with
  | construction => rfl
  | @attached a b hab =>
    simp only [Setter.handOver, Registration.setter, attachedProperty, onAttached, List.foldl_cons,
      List.foldl_nil, Setter.withHook, h.get?]
    cases hv : cls.get? v with
    | none => rfl
    | some p =>
      cases kind.project value with
      | none => rfl
      | some x =>
        dsimp only [Option.map_some]
        rw [hchange a b hab p x, h.set v p _ hv]

end

/-! ## Changes of text fields -/

/-- The change leaves alone what a text field shares with other controls. -/
structure Inner (g : TextField → TextField) : Prop where
  control : ∀ t, (g t).control = t.control
  with_control : ∀ t c, g { t with control := c } = { g t with control := c }

variable {g : TextField → TextField}

theorem carries_container (h : Inner g) : container.Carries (View.mapField g) id where
  get? v := by
    have hbase : (v.core.mapField g).base = v.core.base := by
      cases v.core with
      | textField t => exact congrArg Control.base (h.control t)
      | _ => rfl
    show some (v.mapField g).base = some v.base
    rw [View.mapField, View.base, View.core_withCore, hbase]
    rfl
  set v p q _ := by
    have hcore : (v.core.mapField g).withBase q = (v.core.withBase q).mapField g := by
      cases v.core with
      | textField t =>
        show StockView.textField { g t with control := { (g t).control with base := q } } = _
        rw [h.control, ← h.with_control]
        rfl
      | _ => rfl
    show (v.mapField g).withBase q = (v.withBase q).mapField g
    simp only [View.mapField, View.withBase, View.core_withCore, View.withCore_withCore, hcore]

theorem carries_control (h : Inner g) : control.Carries (View.mapField g) id where
  get? v := by
    rcases v with ⟨⟨⟩⟩ | ⟨_, ⟨⟩, _⟩ <;> first
      | rfl
      | exact congrArg some (h.control _)
  set v p q _ := by
    rcases v with ⟨⟨⟩⟩ | ⟨_, ⟨⟩, _⟩ <;> first
      | rfl
      | exact congrArg (View.stock ∘ StockView.textField) (h.with_control _ q).symm
      | exact congrArg (fun t => View.host ⟨_, .textField t, _⟩) (h.with_control _ q).symm

theorem carries_label : label.Carries (View.mapField g) id :=
  ⟨fun v => by rcases v with ⟨⟨⟩⟩ | ⟨_, ⟨⟩, _⟩ <;> rfl,
    fun v _ _ _ => by rcases v with ⟨⟨⟩⟩ | ⟨_, ⟨⟩, _⟩ <;> rfl⟩

theorem carries_button : button.Carries (View.mapField g) id :=
  ⟨fun v => by rcases v with ⟨⟨⟩⟩ | ⟨_, ⟨⟩, _⟩ <;> rfl,
    fun v _ _ _ => by rcases v with ⟨⟨⟩⟩ | ⟨_, ⟨⟩, _⟩ <;> rfl⟩

theorem carries_stack : stack.Carries (View.mapField g) id :=
  ⟨fun v => by rcases v with ⟨⟨⟩⟩ | ⟨_, ⟨⟩, _⟩ <;> rfl,
    fun v _ _ _ => by rcases v with ⟨⟨⟩⟩ | ⟨_, ⟨⟩, _⟩ <;> rfl⟩

theorem carries_textField : textField.Carries (View.mapField g) g :=
  ⟨fun v => by rcases v with ⟨⟨⟩⟩ | ⟨_, ⟨⟩, _⟩ <;> rfl,
    fun v _ _ _ => by rcases v with ⟨⟨⟩⟩ | ⟨_, ⟨⟩, _⟩ <;> rfl⟩

theorem inner_veiled : Inner TextField.veiled := ⟨fun _ => rfl, fun _ _ => rfl⟩

theorem inner_covered : Inner TextField.covered := ⟨fun _ => rfl, fun _ _ => rfl⟩

end ViewClass

/-- Of another view only the container is seen when its size is taken over. -/
theorem matchSize_alike {a b : Surroundings} (h : a.Alike b) (c : Container) (name : String) :
    matchSize b c name = matchSize a c name := by
  unfold matchSize Surroundings.lookup
  rw [h.bindings]
  cases a.bindings.lookup name with
  | error e => rfl
  | ok id =>
    dsimp only [Surroundings.inspect]
    rw [h.busy]
    by_cases hbusy : id = a.busy
    · rw [if_pos hbusy, if_pos hbusy]
    · rw [if_neg hbusy, if_neg hbusy]
      have hbase := h.bases id
      cases ha : a.store.get? id <;> cases hb : b.store.get? id <;> rw [ha, hb] at hbase
      · cases hbase
      · cases hbase
      · rw [Option.map_some, Option.map_some, Option.some.injEq] at hbase
        simp [hbase]

theorem attachAccessory_alike {g : TextField → TextField}
    (hg : ∀ t name, g { t with accessory := name } = { g t with accessory := name })
    {a b : Surroundings} (h : a.Alike b) (t : TextField) (name : String) :
    attachAccessory b (g t) name =
      ((attachAccessory a t name).1, (attachAccessory a t name).2.1,
        g (attachAccessory a t name).2.2) := by
  unfold attachAccessory Surroundings.lookup
  rw [h.bindings]
  cases a.bindings.lookup name with
  | error e => rfl
  | ok id => exact congrArg (fun t => ([], Except.ok (), t)) (hg t (some name)).symm

/-- Whatever holds of all properties of the stock classes but text fields holds of all stock
    properties if it holds of those of text fields and of taking over a size. -/
theorem forall_stockProperties_of_class {P : Registration → Prop}
    (hcontainer : ∀ {α : Type} (name : String) (kind : Kind α) (change : Container → α → Container),
      P (ViewClass.container.property name kind change))
    (hcontrol : ∀ {α : Type} (name : String) (kind : Kind α) (change : Control → α → Control),
      P (ViewClass.control.property name kind change))
    (hlabel : ∀ {α : Type} (name : String) (kind : Kind α) (change : Label → α → Label),
      P (ViewClass.label.property name kind change))
    (hbutton : ∀ {α : Type} (name : String) (kind : Kind α) (change : Button → α → Button),
      P (ViewClass.button.property name kind change))
    (hstack : ∀ {α : Type} (name : String) (kind : Kind α) (change : Stack → α → Stack),
      P (ViewClass.stack.property name kind change))
    (hmatchSize : P (ViewClass.container.attachedProperty "matchSize" .identifier matchSize))
    (htextField : ∀ r ∈ textFieldProperties, P r) : ∀ r ∈ stockProperties, P r := by
  refine forall_stockProperties ?_ ?_ ?_ ?_ ?_ htextField <;>
    simp only [containerProperties, controlProperties, labelProperties, buttonProperties,
      stackProperties, List.forall_mem_cons] <;>
    and_intros <;> first
      | exact hcontainer _ _ _
      | exact hcontrol _ _ _
      | exact hlabel _ _ _
      | exact hbutton _ _ _
      | exact hstack _ _ _
      | exact hmatchSize
      | exact List.forall_mem_nil _

namespace Catalogue

open ViewClass

theorem carries_stock_id : stock.Keeps fun _ s => s.Carries id := by
  refine keeps_stock (forall_stockProperties_of_property ?_ ?_ ?_)
  · exact fun cls _ _ _ => carries_property (carries_id cls) fun _ _ => rfl
  · exact carries_attachedProperty (carries_id _) fun _ _ h c name => matchSize_alike h c name
  · exact carries_attachedProperty (carries_id _)
      fun _ _ h t name => attachAccessory_alike (g := id) (fun _ _ => rfl) h t name

/-- A change of text fields is carried by all stock setters if those of text fields carry it. -/
theorem carries_stock {g : TextField → TextField} (hg : Inner g) {exempt : String}
    (hfield : ∀ r ∈ textFieldProperties, r.property ≠ exempt →
      r.setter.Carries (View.mapField g)) :
    stock.Keeps fun property s => property ≠ exempt → s.Carries (View.mapField g) := by
  refine keeps_stock (forall_stockProperties_of_class ?_ ?_ ?_ ?_ ?_ ?_ hfield)
  · exact fun _ _ _ _ => carries_property (carries_container hg) fun _ _ => rfl
  · exact fun _ _ _ _ => carries_property (carries_control hg) fun _ _ => rfl
  · exact fun _ _ _ _ => carries_property carries_label fun _ _ => rfl
  · exact fun _ _ _ _ => carries_property carries_button fun _ _ => rfl
  · exact fun _ _ _ _ => carries_property carries_stack fun _ _ => rfl
  · exact fun _ => carries_attachedProperty (carries_container hg)
      fun _ _ h c name => matchSize_alike h c name

/-- **Every stock setter carries veils**, but those of texts. -/
theorem carries_veiled :
    stock.Keeps fun property s => property ≠ "text" → s.Carries View.veiled := by
  refine carries_stock inner_veiled ?_
  simp only [textFieldProperties, List.forall_mem_cons]
  and_intros <;> first
    | exact fun h => absurd rfl h
    | exact fun _ => carries_property carries_textField fun _ _ => rfl
    | exact fun _ => carries_attachedProperty carries_textField
        fun _ _ h t name => attachAccessory_alike (fun _ _ => rfl) h t name
    | exact List.forall_mem_nil _

/-- **Every stock setter carries covers**, but the one that takes them off. -/
theorem carries_covered :
    stock.Keeps fun property s => property ≠ "secureTextEntry" → s.Carries View.covered := by
  refine carries_stock inner_covered ?_
  simp only [textFieldProperties, List.forall_mem_cons]
  and_intros <;> first
    | exact fun h => absurd rfl h
    | exact fun _ => carries_property carries_textField fun _ _ => rfl
    | exact fun _ => carries_attachedProperty carries_textField
        fun _ _ h t name => attachAccessory_alike (fun _ _ => rfl) h t name
    | exact List.forall_mem_nil _

end Catalogue

/-! ## Handing texts over -/

namespace ViewClass

theorem form_set_container (v : View) (c : Container) : (container.set v c).form = v.form :=
  v.form_withBase c

theorem form_set_control (v : View) (c : Control) : (control.set v c).form = v.form := by
  rcases v with ⟨⟨⟩⟩ | ⟨_, ⟨⟩, _⟩ <;> rfl

theorem form_set_label (v : View) (l : Label) : (label.set v l).form = v.form := by
  rcases v with ⟨⟨⟩⟩ | ⟨_, ⟨⟩, _⟩ <;> rfl

theorem form_set_button (v : View) (b : Button) : (button.set v b).form = v.form := by
  rcases v with ⟨⟨⟩⟩ | ⟨_, ⟨⟩, _⟩ <;> rfl

theorem form_set_stack (v : View) (s : Stack) : (stack.set v s).form = v.form := by
  rcases v with ⟨⟨⟩⟩ | ⟨_, ⟨⟩, _⟩ <;> rfl

theorem form_set_textField (v : View) (t : TextField) : (textField.set v t).form = v.form := by
  rcases v with ⟨⟨⟩⟩ | ⟨_, ⟨⟩, _⟩ <;> rfl

end ViewClass

namespace Catalogue

open ViewClass

/-- No stock setter makes a view of one class one of another. -/
theorem upholds_form (form : View) : stock.Keeps fun _ s => s.Upholds fun v => v.form = form := by
  refine keeps_stock (forall_stockProperties_of_class ?_ ?_ ?_ ?_ ?_ ?_ ?_)
  · exact fun _ _ _ => upholds_property fun v p a _ _ h => (form_set_container v _).trans h
  · exact fun _ _ _ => upholds_property fun v p a _ _ h => (form_set_control v _).trans h
  · exact fun _ _ _ => upholds_property fun v p a _ _ h => (form_set_label v _).trans h
  · exact fun _ _ _ => upholds_property fun v p a _ _ h => (form_set_button v _).trans h
  · exact fun _ _ _ => upholds_property fun v p a _ _ h => (form_set_stack v _).trans h
  · exact upholds_attachedProperty fun _ v p a _ _ h => (form_set_container v _).trans h
  · simp only [textFieldProperties, List.forall_mem_cons]
    and_intros <;> first
      | exact upholds_property fun v p a _ _ h => (form_set_textField v _).trans h
      | exact upholds_attachedProperty fun _ v p a _ _ h => (form_set_textField v _).trans h
      | exact List.forall_mem_nil _

theorem form_receive (property : String) (turn : Turn) (cursor : Cursor) (v : View) :
    (stock.receive property turn cursor v).view.form = v.form := by
  rcases stock.view_receive_cases property turn cursor v with h | ⟨s, value, hs, hscan, h⟩
  · rw [h]
  · rw [h]
    exact (upholds_form v.form).setter? hs cursor value hscan turn v rfl

section
variable {c : Catalogue} {f : View → View} {property : String} {turn turn' : Turn} {u v : View}

/-- A changed view is left changed in the same way. -/
theorem receive_carries (hclass : (f v).className = v.className)
    (hcarries : ∀ s, c.setter? v.className property = some s → s.Carries f)
    (hturn : turn.Alike turn') (cursor : Cursor) :
    (c.receive property turn' cursor (f v)).events = (c.receive property turn cursor v).events ∧
      (c.receive property turn' cursor (f v)).result =
        (c.receive property turn cursor v).result ∧
      (c.receive property turn' cursor (f v)).view =
        f (c.receive property turn cursor v).view := by
  rw [receive_eq, receive_eq, hclass]
  cases hs : c.setter? v.className property with
  | none => exact ⟨rfl, rfl, rfl⟩
  | some s =>
    dsimp only [Setter.execute]
    rcases s.scan cursor with ⟨e | value, after⟩
    · exact ⟨rfl, rfl, rfl⟩
    · dsimp only
      rw [hcarries s hs turn turn' hturn v value]
      exact ⟨rfl, rfl, rfl⟩

/-- The same view gives the same. -/
theorem receive_same (hturn : turn.Alike turn') (property : String) (cursor : Cursor) (v : View) :
    (stock.receive property turn' cursor v).events =
        (stock.receive property turn cursor v).events ∧
      (stock.receive property turn' cursor v).result =
        (stock.receive property turn cursor v).result ∧
      (stock.receive property turn' cursor v).view = (stock.receive property turn cursor v).view :=
  receive_carries (f := id) (v := v) rfl (fun _ hs => carries_stock_id.setter? hs) hturn cursor

/-- **Views that look alike still do when they have been handed the same text.** -/
theorem receive_alike (hclass : ∀ w : View, (f w).className = w.className) (huv : f v = f u)
    (hcarries : ∀ s, c.setter? u.className property = some s → s.Carries f)
    (hturn : turn.Alike turn') (cursor : Cursor) :
    (c.receive property turn' cursor v).events = (c.receive property turn cursor u).events ∧
      (c.receive property turn' cursor v).result = (c.receive property turn cursor u).result ∧
      f (c.receive property turn' cursor v).view = f (c.receive property turn cursor u).view := by
  have hsame : v.className = u.className := by rw [← hclass v, huv, hclass u]
  -- both are compared with what comes of their common look
  obtain ⟨hevents, hresult, hview⟩ := receive_carries (hclass u) hcarries hturn cursor
  obtain ⟨hevents', hresult', hview'⟩ := receive_carries (hclass v)
    (fun s hs => hcarries s (hsame ▸ hs)) (Turn.Alike.refl turn') cursor
  rw [huv] at hevents' hresult' hview'
  exact ⟨hevents'.symm.trans hevents, hresult'.symm.trans hresult, hview'.symm.trans hview⟩

end

end Catalogue

/-- A text without the blanks around its lines. -/
def trimmedByLine (text : String) : String :=
  "\n".intercalate ((pieces '\n' text.toList).map fun l => String.ofList (trim l))

namespace Catalogue

/-- A text field takes a text without the blanks around its lines; after construction it only reads
    it. -/
theorem receive_text (turn : Turn) (p : PropertyText) (t : TextField) :
    let receipt := stock.receive "text" turn (.start p.value p.line) (.stock (.textField t))
    receipt.events = [] ∧ receipt.result = .ok () ∧
      receipt.view = .stock (.textField (match turn with
        | .construction => { t with text := trimmedByLine p.value }
        | .attached _ => t)) := by
  have hsetter := setter?_textField (r := ViewClass.textField.property "text" .lines
    fun t v => { t with text := v }) List.mem_cons_self
  have hchain := chain_stock _ (List.mem_of_getElem? (l := stockChains) (i := 5) rfl)
  dsimp only at hchain
  dsimp only
  rw [receive_eq, show (View.stock (.textField t)).className = "TextField" from rfl, hchain,
    show "text" = (ViewClass.textField.property "text" .lines
      fun t v => { t with text := v }).property from rfl, hsetter]
  cases turn <;> exact ⟨rfl, rfl, rfl⟩

/-- A text that reads as true puts the cover on. -/
theorem receive_cover (t : TextField) {p : PropertyText}
    (h : (Cursor.flag (.start p.value p.line)).1 = .ok true) :
    let receipt := stock.receive "secureTextEntry" .construction (.start p.value p.line)
      (.stock (.textField t))
    receipt.result = .ok () ∧ receipt.view = .stock (.textField t.covered) := by
  have hsetter := setter?_textField (r := ViewClass.textField.property "secureTextEntry" .flag
    fun t v => { t with secure := v }) (List.mem_of_getElem? (i := 5) rfl)
  have hscan : (Kind.flag.scanValue (.start p.value p.line)).1 = .ok (.flag true) := by
    show (Cursor.flag (.start p.value p.line)).1.map Value.flag = _
    rw [h]
    rfl
  dsimp only
  rw [result_receive, view_receive,
    show (View.stock (.textField t)).className = "TextField" from rfl,
    show "secureTextEntry" = (ViewClass.textField.property "secureTextEntry" .flag
      fun t v => { t with secure := v }).property from rfl, hsetter]
  dsimp only [Setter.execute]
  rw [show (ViewClass.textField.property "secureTextEntry" .flag
    fun t v => { t with secure := v }).setter.scan = Kind.flag.scanValue from rfl]
  rcases hread : Kind.flag.scanValue (.start p.value p.line) with ⟨e | value, after⟩ <;>
    rw [hread] at hscan
  · cases hscan
  · obtain rfl := Except.ok.inj hscan
    exact ⟨rfl, rfl⟩

/-- A container has no text. -/
theorem receive_text_container (turn : Turn) (cursor : Cursor) (c : Container) :
    stock.receive "text" turn cursor (.stock (.container c)) =
      ⟨.error (unhandled "Container" "text" cursor.line), .stock (.container c), cursor, []⟩ := by
  have hchain := chain_stock _ (List.mem_of_getElem? (l := stockChains) (i := 0) rfl)
  have hsetter : stock.setter? "Container" "text" = none := by
    rw [setter?_stock (List.mem_of_getElem? (i := 0) rfl)]
    rfl
  dsimp only at hchain
  rw [receive_eq, show (View.stock (.container c)).className = "Container" from rfl, hsetter,
    hchain]

/-- The cover of a text field stays on it, unless it is taken off at construction. -/
theorem secure_receive {property : String} {turn : Turn} (cursor : Cursor) {v : View}
    (hv : v.Secure) (hproperty : turn = .construction → property ≠ "secureTextEntry") :
    (stock.receive property turn cursor v).view.Secure := by
  obtain ⟨hform, hcovered⟩ := View.secure_iff.mp hv
  by_cases hcover : property = "secureTextEntry"
  · -- the setter has no turn any more
    rcases stock.view_receive_cases property turn cursor v with h | ⟨s, value, hs, -, h⟩
    · rw [h]
      exact hv
    · obtain ⟨t, rfl⟩ := View.exists_textField_of_form hform
      have hsetter := setter?_textField (r := ViewClass.textField.property "secureTextEntry" .flag
        fun t v => { t with secure := v }) (List.mem_of_getElem? (i := 5) rfl)
      rw [hcover, show (View.stock (.textField t)).className = "TextField" from rfl] at hs
      obtain rfl : _ = s := Option.some.inj (hsetter.symm.trans hs)
      cases turn with
      | construction => exact absurd hcover (hproperty rfl)
      | attached around =>
        rw [h]
        exact hv
  · obtain ⟨-, -, hview⟩ := receive_carries (f := View.covered) (by rw [hcovered])
      (fun s hs => carries_covered.setter? hs hcover) (Turn.Alike.refl turn) cursor
    rw [hcovered] at hview
    exact View.secure_iff.mpr ⟨(form_receive property turn cursor v).trans hform, hview.symm⟩

end Catalogue

end ViewSheet
