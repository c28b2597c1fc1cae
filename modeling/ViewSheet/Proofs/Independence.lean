/-
  Independence: which stock properties can be set in either order.

  1. **Parts**: a change of the part of one class and a change of the part of another commute if no
     view has both parts (`Apart`), or if the one part lies in the other (`Nested`) and the change
     of the larger does not depend on the smaller.

  2. **Result** (`independent_stock`): two stock setters for different properties commute at
     construction, whatever the values, unless the properties are a pair of `clashes`.
-/
import Mathlib.Data.List.Pairwise
import Mathlib.Logic.Function.Conjugate
import ViewSheet.Proofs.StockSetters

namespace ViewSheet

namespace ViewClass

variable {V S : Type} {cls : ViewClass V} {small : ViewClass S} {attached : V → List ViewId}

/-! ## Two parts of a view -/

/-- Changes of the parts of two classes commute, because no view has both. -/
def Apart (cls : ViewClass V) (small : ViewClass S) : Prop :=
  ∀ f g, Function.Commute (cls.modify f) (small.modify g)

/-- The part of one class lies in that of another.  `carry` makes a change of the outer part of a
    change of the inner. -/
structure Nested (small : ViewClass S) (cls : ViewClass V) (carry : (S → S) → V → V) : Prop where
  inside : ∀ f v p, cls.get? v = some p → small.modify f v = cls.set v (carry f p)
  outside : ∀ f v, cls.get? v = none → cls.get? (small.modify f v) = none

theorem modify_of_get? {v : View} {p : V} (h : cls.get? v = some p) (f : V → V) :
    cls.modify f v = cls.set v (f p) := by
  rw [modify, h]

theorem modify_of_none {v : View} (h : cls.get? v = none) (f : V → V) : cls.modify f v = v := by
  rw [modify, h]

theorem Nested.commute {carry : (S → S) → V → V} (h : small.Nested cls carry)
    (hlawful : cls.Lawful attached) {f : S → S} {g : V → V}
    (hfg : ∀ p, g (carry f p) = carry f (g p)) :
    Function.Commute (cls.modify g) (small.modify f) := by
  intro v
  -- a view without the outer part is left alone by one change, and keeps lacking it after the other
  cases hv : cls.get? v with
  | none => rw [modify_of_none hv, modify_of_none (h.outside f v hv)]
  | some p =>
    have hset : ∀ q, cls.get? (cls.set v q) = some q := fun q => hlawful.get?_set v p q hv
    rw [modify_of_get? hv g, h.inside f v p hv, modify_of_get? (hset _) g, h.inside f _ _ (hset _),
      hlawful.set_set, hlawful.set_set, hfg]

/-! ## The stock classes -/

theorem apart_label_control : label.Apart control := by
  intro f g v
  rcases v with ⟨⟨⟩⟩ | ⟨_, ⟨⟩, _⟩ <;> rfl

theorem apart_button_control : button.Apart control := by
  intro f g v
  rcases v with ⟨⟨⟩⟩ | ⟨_, ⟨⟩, _⟩ <;> rfl

theorem apart_stack_control : stack.Apart control := by
  intro f g v
  rcases v with ⟨⟨⟩⟩ | ⟨_, ⟨⟩, _⟩ <;> rfl

theorem apart_stack_label : stack.Apart label := by
  intro f g v
  rcases v with ⟨⟨⟩⟩ | ⟨_, ⟨⟩, _⟩ <;> rfl

theorem apart_textField_label : textField.Apart label := by
  intro f g v
  rcases v with ⟨⟨⟩⟩ | ⟨_, ⟨⟩, _⟩ <;> rfl

theorem apart_stack_button : stack.Apart button := by
  intro f g v
  rcases v with ⟨⟨⟩⟩ | ⟨_, ⟨⟩, _⟩ <;> rfl

theorem apart_textField_button : textField.Apart button := by
  intro f g v
  rcases v with ⟨⟨⟩⟩ | ⟨_, ⟨⟩, _⟩ <;> rfl

theorem apart_textField_stack : textField.Apart stack := by
  intro f g v
  rcases v with ⟨⟨⟩⟩ | ⟨_, ⟨⟩, _⟩ <;> rfl

theorem nested_container_control :
    container.Nested control fun f c => { c with base := f c.base } := by
  constructor <;> intro f v <;> rcases v with ⟨⟨⟩⟩ | ⟨_, ⟨⟩, _⟩ <;>
    simp [modify, container, control, StockView.base, StockView.withBase]

theorem nested_container_label :
    container.Nested label fun f l => { l with base := f l.base } := by
  constructor <;> intro f v <;> rcases v with ⟨⟨⟩⟩ | ⟨_, ⟨⟩, _⟩ <;>
    simp [modify, container, label, StockView.base, StockView.withBase]

theorem nested_container_button :
    container.Nested button fun f b =>
      { b with label := { b.label with base := f b.label.base } } := by
  constructor <;> intro f v <;> rcases v with ⟨⟨⟩⟩ | ⟨_, ⟨⟩, _⟩ <;>
    simp [modify, container, button, StockView.base, StockView.withBase]

theorem nested_container_stack :
    container.Nested stack fun f s => { s with base := f s.base } := by
  constructor <;> intro f v <;> rcases v with ⟨⟨⟩⟩ | ⟨_, ⟨⟩, _⟩ <;>
    simp [modify, container, stack, StockView.base, StockView.withBase]

theorem nested_container_textField : container.Nested textField fun f t =>
    { t with control := { t.control with base := f t.control.base } } := by
  constructor <;> intro f v <;> rcases v with ⟨⟨⟩⟩ | ⟨_, ⟨⟩, _⟩ <;>
    simp [modify, container, textField, StockView.base, StockView.withBase]

theorem nested_label_button : label.Nested button fun f b => { b with label := f b.label } := by
  constructor <;> intro f v <;> rcases v with ⟨⟨⟩⟩ | ⟨_, ⟨⟩, _⟩ <;>
    simp [modify, label, button]

theorem nested_control_textField :
    control.Nested textField fun f t => { t with control := f t.control } := by
  constructor <;> intro f v <;> rcases v with ⟨⟨⟩⟩ | ⟨_, ⟨⟩, _⟩ <;>
    simp [modify, control, textField]

end ViewClass

/-! ## Two registrations -/

/-- Pairs of properties that set the same field of a container. -/
def clashes : List (String × String) :=
  [("alpha", "opacity"), ("frame", "origin"), ("frame", "size")]

/-- Whether two properties set the same field, in either order. -/
def Clash (a b : String) : Prop := (a, b) ∈ clashes ∨ (b, a) ∈ clashes

instance (a b : String) : Decidable (Clash a b) := inferInstanceAs (Decidable (_ ∨ _))

theorem Clash.symm {a b : String} (h : Clash a b) : Clash b a := Or.symm h

/-- The order in which two setters have their turn at construction makes no difference. -/
def Setter.Independent (s t : Setter) : Prop :=
  ∀ x y, Function.Commute (s.effect x) (t.effect y)

namespace Registration

/-- At construction nothing but the part of a class is changed. -/
def Within {V : Type} (r : Registration) (cls : ViewClass V) : Prop :=
  ∀ value, ∃ f, r.setter.effect value = cls.modify f

/-- It makes no difference whether the part of a class is changed before or after. -/
def Beside {V : Type} (r : Registration) (cls : ViewClass V) : Prop :=
  ∀ value f, Function.Commute (r.setter.effect value) (cls.modify f)

/-- Two registrations that are independent, unless they are for the same property or clash. -/
def Free (r q : Registration) : Prop :=
  r.property = q.property ∨ Clash r.property q.property ∨ r.setter.Independent q.setter

instance : Std.Symm Free where
  symm := fun _ _ h => h.imp Eq.symm fun h => h.imp Clash.symm fun h x y => (h y x).symm

variable {V S : Type} {cls : ViewClass V} {small : ViewClass S} {r q : Registration}

theorem Beside.free (h : r.Beside cls) (hq : q.Within cls) : Free q r := by
  refine Or.inr (Or.inr fun x y => ?_)
  obtain ⟨f, hf⟩ := hq x
  rw [hf]
  exact (h y f).symm

theorem Within.beside (h : r.Within cls) (hapart : cls.Apart small) : r.Beside small := by
  intro value f
  obtain ⟨g, hg⟩ := h value
  rw [hg]
  exact hapart g f

end Registration

namespace ViewClass

variable {V S α β : Type} {cls : ViewClass V} {small : ViewClass S} {attached : V → List ViewId}
  {name other : String} {kind : Kind α} {kind' : Kind β}

section
variable {change : V → α → V} {change' : V → β → V}

theorem within_property (h : cls.Lawful attached) : (cls.property name kind change).Within cls := by
  intro value
  rcases cls.effect_property name kind change value with heq | ⟨a, heq⟩
  · exact ⟨fun p => p, by rw [heq]; exact funext fun v => (h.modify_id v).symm⟩
  · exact ⟨_, heq⟩

/-- Setters of one class are independent if what they do to its part is. -/
theorem free_property (h : cls.Lawful attached)
    (hchange : ∀ p a b, change (change' p b) a = change' (change p a) b) :
    (cls.property name kind change).Free (cls.property other kind' change') := by
  refine Or.inr (Or.inr fun x y => ?_)
  rcases cls.effect_property name kind change x with hx | ⟨a, hx⟩
  · rw [hx]
    exact fun _ => rfl
  rcases cls.effect_property other kind' change' y with hy | ⟨b, hy⟩
  · rw [hy]
    exact fun _ => rfl
  · rw [hx, hy]
    intro v
    simp only [h.modify_modify, hchange]

/-- A setter of the outer class goes beside the inner class if it leaves the inner part alone. -/
theorem beside_property {carry : (S → S) → V → V} (hnested : small.Nested cls carry)
    (h : cls.Lawful attached) (hchange : ∀ f p a, change (carry f p) a = carry f (change p a)) :
    (cls.property name kind change).Beside small := by
  intro value f
  rcases cls.effect_property name kind change value with heq | ⟨a, heq⟩
  · rw [heq]
    exact fun _ => rfl
  · rw [heq]
    exact hnested.commute h fun p => hchange f p a

end

section
variable {change : Surroundings → V → α → List Event × Except Error Unit × V}

theorem within_attachedProperty (h : cls.Lawful attached) :
    (cls.attachedProperty name kind change).Within cls :=
  fun _ => ⟨fun p => p, funext fun v => (h.modify_id v).symm⟩

theorem beside_attachedProperty : (cls.attachedProperty name kind change).Beside small :=
  fun _ _ _ => rfl

theorem free_attachedProperty (r : Registration) :
    r.Free (cls.attachedProperty name kind change) :=
  Or.inr (Or.inr fun _ _ _ => rfl)

end

end ViewClass

/-! ## The stock properties -/

open ViewClass

theorem pairwise_containerProperties : containerProperties.Pairwise Registration.Free := by
  simp only [containerProperties, List.pairwise_cons, List.forall_mem_cons]
  and_intros <;> first
    | exact free_property lawful_container fun _ _ _ => rfl
    | exact free_attachedProperty _
    | exact Or.inr (Or.inl (by decide))
    | exact List.forall_mem_nil _
    | exact List.Pairwise.nil

theorem pairwise_controlProperties : controlProperties.Pairwise Registration.Free := by
  simp only [controlProperties, List.pairwise_cons, List.forall_mem_cons]
  and_intros <;> first
    | exact free_property lawful_control fun _ _ _ => rfl
    | exact List.forall_mem_nil _
    | exact List.Pairwise.nil

theorem pairwise_labelProperties : labelProperties.Pairwise Registration.Free := by
  simp only [labelProperties, List.pairwise_cons, List.forall_mem_cons]
  and_intros <;> first
    | exact free_property lawful_label fun _ _ _ => rfl
    | exact List.forall_mem_nil _
    | exact List.Pairwise.nil

theorem pairwise_buttonProperties : buttonProperties.Pairwise Registration.Free := by
  simp only [buttonProperties, List.pairwise_cons, List.forall_mem_cons]
  and_intros <;> first
    | exact free_property lawful_button fun _ _ _ => rfl
    | exact List.forall_mem_nil _
    | exact List.Pairwise.nil

theorem pairwise_stackProperties : stackProperties.Pairwise Registration.Free := by
  simp only [stackProperties, List.pairwise_cons, List.forall_mem_cons]
  and_intros <;> first
    | exact free_property lawful_stack fun _ _ _ => rfl
    | exact List.forall_mem_nil _
    | exact List.Pairwise.nil

theorem pairwise_textFieldProperties : textFieldProperties.Pairwise Registration.Free := by
  simp only [textFieldProperties, List.pairwise_cons, List.forall_mem_cons]
  and_intros <;> first
    | exact free_property lawful_textField fun _ _ _ => rfl
    | exact free_attachedProperty _
    | exact List.forall_mem_nil _
    | exact List.Pairwise.nil

theorem within_containerProperties : ∀ r ∈ containerProperties, r.Within container := by
  simp only [containerProperties, List.forall_mem_cons]
  and_intros <;> first
    | exact within_property lawful_container
    | exact within_attachedProperty lawful_container
    | exact List.forall_mem_nil _

theorem within_controlProperties :
    ∀ r ∈ controlProperties, r.Within control ∧ r.Beside container := by
  simp only [controlProperties, List.forall_mem_cons]
  and_intros <;> first
    | exact within_property lawful_control
    | exact beside_property nested_container_control lawful_control fun _ _ _ => rfl
    | exact List.forall_mem_nil _

theorem within_labelProperties : ∀ r ∈ labelProperties, r.Within label ∧ r.Beside container := by
  simp only [labelProperties, List.forall_mem_cons]
  and_intros <;> first
    | exact within_property lawful_label
    | exact beside_property nested_container_label lawful_label fun _ _ _ => rfl
    | exact List.forall_mem_nil _

theorem within_buttonProperties : ∀ r ∈ buttonProperties, r.Within button ∧ r.Beside container := by
  simp only [buttonProperties, List.forall_mem_cons]
  and_intros <;> first
    | exact within_property lawful_button
    | exact beside_property nested_container_button lawful_button fun _ _ _ => rfl
    | exact List.forall_mem_nil _

theorem within_stackProperties : ∀ r ∈ stackProperties, r.Within stack ∧ r.Beside container := by
  simp only [stackProperties, List.forall_mem_cons]
  and_intros <;> first
    | exact within_property lawful_stack
    | exact beside_property nested_container_stack lawful_stack fun _ _ _ => rfl
    | exact List.forall_mem_nil _

theorem within_textFieldProperties :
    ∀ r ∈ textFieldProperties, r.Within textField ∧ r.Beside container ∧ r.Beside control := by
  simp only [textFieldProperties, List.forall_mem_cons]
  and_intros <;> first
    | exact within_property lawful_textField
    | exact within_attachedProperty lawful_textField
    | exact beside_property nested_container_textField lawful_textField fun _ _ _ => rfl
    | exact beside_property nested_control_textField lawful_textField fun _ _ _ => rfl
    | exact beside_attachedProperty
    | exact List.forall_mem_nil _

/-- What does not depend on the text of a label can be set before or after the title of a button. -/
theorem free_title {α : Type} {name : String} {kind : Kind α} {change : Label → α → Label}
    (hchange : ∀ l a text, change { l with text } a = { change l a with text }) :
    (label.property name kind change).Free (button.property "text" .text Button.withTitle) := by
  refine Or.inr (Or.inr fun x y => ?_)
  rcases label.effect_property name kind change x with hx | ⟨a, hx⟩
  · rw [hx]
    exact fun _ => rfl
  rcases button.effect_property "text" .text Button.withTitle y with hy | ⟨title, hy⟩
  · rw [hy]
    exact fun _ => rfl
  · rw [hx, hy]
    refine (nested_label_button.commute lawful_button fun b => ?_).symm
    exact congrArg (fun l => { b with title, label := l }) (hchange b.label a title).symm

/-- The title of a button is also the text of its label; all else of a button goes beside its
    label. -/
theorem free_label_button : ∀ q ∈ labelProperties, ∀ r ∈ buttonProperties, q.Free r := by
  have htitle : ∀ q ∈ labelProperties,
      q.Free (button.property "text" .text Button.withTitle) := by
    simp only [labelProperties, List.forall_mem_cons]
    and_intros <;> first
      | exact Or.inl rfl
      | exact free_title fun _ _ _ => rfl
      | exact List.forall_mem_nil _
  have hbeside : ∀ r ∈ buttonProperties.tail, r.Beside label := by
    simp only [buttonProperties, List.tail_cons, List.forall_mem_cons]
    and_intros <;> first
      | exact beside_property nested_label_button lawful_button fun _ _ _ => rfl
      | exact List.forall_mem_nil _
  intro q hq r hr
  rcases List.mem_cons.mp hr with rfl | hr
  · exact htitle q hq
  · exact (hbeside r hr).free (within_labelProperties q hq).1

theorem pairwise_stockProperties : stockProperties.Pairwise Registration.Free := by
  simp only [stockProperties, List.pairwise_append, List.mem_append]
  refine ⟨⟨⟨⟨⟨pairwise_containerProperties, pairwise_controlProperties, ?_⟩,
    pairwise_labelProperties, ?_⟩, pairwise_buttonProperties, ?_⟩, pairwise_stackProperties, ?_⟩,
    pairwise_textFieldProperties, ?_⟩
  · intro q hq r hr
    exact (within_controlProperties r hr).2.free (within_containerProperties q hq)
  · rintro q (hq | hq) r hr
    · exact (within_labelProperties r hr).2.free (within_containerProperties q hq)
    · exact ((within_labelProperties r hr).1.beside apart_label_control).free
        (within_controlProperties q hq).1
  · rintro q ((hq | hq) | hq) r hr
    · exact (within_buttonProperties r hr).2.free (within_containerProperties q hq)
    · exact ((within_buttonProperties r hr).1.beside apart_button_control).free
        (within_controlProperties q hq).1
    · exact free_label_button q hq r hr
  · rintro q (((hq | hq) | hq) | hq) r hr
    · exact (within_stackProperties r hr).2.free (within_containerProperties q hq)
    · exact ((within_stackProperties r hr).1.beside apart_stack_control).free
        (within_controlProperties q hq).1
    · exact ((within_stackProperties r hr).1.beside apart_stack_label).free
        (within_labelProperties q hq).1
    · exact ((within_stackProperties r hr).1.beside apart_stack_button).free
        (within_buttonProperties q hq).1
  · rintro q ((((hq | hq) | hq) | hq) | hq) r hr
    · exact (within_textFieldProperties r hr).2.1.free (within_containerProperties q hq)
    · exact (within_textFieldProperties r hr).2.2.free (within_controlProperties q hq).1
    · exact ((within_textFieldProperties r hr).1.beside apart_textField_label).free
        (within_labelProperties q hq).1
    · exact ((within_textFieldProperties r hr).1.beside apart_textField_button).free
        (within_buttonProperties q hq).1
    · exact ((within_textFieldProperties r hr).1.beside apart_textField_stack).free
        (within_stackProperties q hq).1

/-- **Stock setters for different properties are independent, unless the properties clash.** -/
theorem independent_stock {className property other : String} {s t : Setter}
    (hs : Catalogue.stock.setter? className property = some s)
    (ht : Catalogue.stock.setter? className other = some t) (hne : property ≠ other)
    (hclash : ¬ Clash property other) : s.Independent t := by
  have hregistered : Catalogue.stock.Keeps fun property s =>
      ∃ r ∈ stockProperties, r.property = property ∧ r.setter = s :=
    Catalogue.keeps_stock fun r hr => ⟨r, hr, rfl, rfl⟩
  obtain ⟨r, hr, rfl, rfl⟩ := hregistered.setter? hs
  obtain ⟨q, hq, rfl, rfl⟩ := hregistered.setter? ht
  have hself : ∀ r ∈ stockProperties, r.Free r := fun _ _ => Or.inl rfl
  rcases pairwise_stockProperties.forall_of_forall hself hr hq with h | h | h
  · exact absurd h hne
  · exact absurd h hclash
  · exact h

end ViewSheet
