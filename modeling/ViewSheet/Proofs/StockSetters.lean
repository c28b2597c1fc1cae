/-
  Stock setters: what handing a text to a view of a stock class does to the view.

  1. **Parts**: a view class looks at a part of a view and puts a changed part back.  The stock
     classes do so lawfully (`ViewClass.Lawful`): what is put back is what is seen, the last part
     put back counts, and the class of the view does not depend on it.

  2. **Effects**: at construction a stock setter changes one part of a view as a function of the
     value alone, so handing over a second text of the same property undoes the first
     (`plain_stock`).

  3. **Promises**: no stock setter edits a list of attached views, in either turn, and new views of
     the stock classes have nothing attached (`keepsSubviews_stock`, `makesBare_stock`).  A stock
     setter that fails has not touched the view (`careful_stock`).
-/
import ViewSheet.Proofs.Dispatch

namespace ViewSheet

namespace ViewClass

/-! ## Parts of views -/

/-- A class that puts back what it sees.  `attached` reads the attached views off a part. -/
structure Lawful {V : Type} (cls : ViewClass V) (attached : V → List ViewId) : Prop where
  get?_set : ∀ v p q, cls.get? v = some p → cls.get? (cls.set v q) = some q
  set_set : ∀ v p q, cls.set (cls.set v p) q = cls.set v q
  set_get? : ∀ v p, cls.get? v = some p → cls.set v p = v
  className_set : ∀ v p, (cls.set v p).className = v.className
  subviews_get? : ∀ v p, cls.get? v = some p → v.subviews = attached p
  subviews_set : ∀ v p q, cls.get? v = some p → (cls.set v q).subviews = attached q

variable {V α : Type}

/-- A class of the stock is lawful if it is for views of the stock. -/
theorem lawful_ofCore {name : String} {superclass : Option String} {blank : StockView}
    {get? : StockView → Option V} {set : StockView → V → StockView} {attached : V → List ViewId}
    (get?_set : ∀ v p q, get? v = some p → get? (set v q) = some q)
    (set_set : ∀ v p q, set (set v p) q = set v q)
    (set_get? : ∀ v p, get? v = some p → set v p = v)
    (className_set : ∀ v p, (set v p).className = v.className)
    (subviews_get? : ∀ v p, get? v = some p → v.base.subviews = attached p) :
    (ofCore name superclass blank get? set).Lawful attached where
  get?_set := by
    intro v p q h
    rw [set_ofCore, get?_ofCore, View.core_withCore]
    exact get?_set v.core p q h
  set_set := by
    intro v p q
    rw [set_ofCore, set_ofCore, set_ofCore, View.core_withCore, View.withCore_withCore, set_set]
  set_get? := by
    intro v p h
    rw [set_ofCore, set_get? v.core p h, View.withCore_core]
  className_set := fun v p => View.className_withCore (className_set v.core p)
  subviews_get? := fun v p h => subviews_get? v.core p h
  subviews_set := by
    intro v p q h
    rw [set_ofCore, View.subviews, View.base, View.core_withCore]
    exact subviews_get? _ q (get?_set v.core p q h)

theorem lawful_container : container.Lawful fun c => c.subviews := by
  refine lawful_ofCore ?_ ?_ ?_ ?_ ?_ <;> intro v <;> cases v <;>
    simp_all [StockView.base, StockView.withBase, StockView.className]

theorem lawful_control : control.Lawful fun c => c.base.subviews := by
  refine lawful_ofCore ?_ ?_ ?_ ?_ ?_ <;> intro v <;> cases v <;>
    simp_all [StockView.base, StockView.className]

theorem lawful_label : label.Lawful fun l => l.base.subviews := by
  refine lawful_ofCore ?_ ?_ ?_ ?_ ?_ <;> intro v <;> cases v <;>
    simp_all [StockView.base, StockView.className]

theorem lawful_button : button.Lawful fun b => b.label.base.subviews := by
  refine lawful_ofCore ?_ ?_ ?_ ?_ ?_ <;> intro v <;> cases v <;>
    simp_all [StockView.base, StockView.className]

theorem lawful_stack : stack.Lawful fun s => s.base.subviews := by
  refine lawful_ofCore ?_ ?_ ?_ ?_ ?_ <;> intro v <;> cases v <;>
    simp_all [StockView.base, StockView.className]

theorem lawful_textField : textField.Lawful fun t => t.control.base.subviews := by
  refine lawful_ofCore ?_ ?_ ?_ ?_ ?_ <;> intro v <;> cases v <;>
    simp_all [StockView.base, StockView.className]

/-- Changes the part of a view that belongs to the class, if it has one. -/
def modify (cls : ViewClass V) (f : V → V) (v : View) : View :=
  match cls.get? v with
  | some p => cls.set v (f p)
  | none => v

namespace Lawful

variable {cls : ViewClass V} {attached : V → List ViewId}

theorem modify_modify (h : cls.Lawful attached) (f g : V → V) (v : View) :
    cls.modify f (cls.modify g v) = cls.modify (fun p => f (g p)) v := by
  unfold modify
  cases hv : cls.get? v with
  | none => simp only [hv]
  | some p => simp only [h.get?_set v p (g p) hv, h.set_set]

theorem modify_id (h : cls.Lawful attached) (v : View) : cls.modify (fun p => p) v = v := by
  unfold modify
  cases hv : cls.get? v with
  | none => rfl
  | some p => exact h.set_get? v p hv

theorem className_modify (h : cls.Lawful attached) (f : V → V) (v : View) :
    (cls.modify f v).className = v.className := by
  unfold modify
  split
  · exact h.className_set v _
  · rfl

theorem subviews_set_of_eq (h : cls.Lawful attached) {v : View} {p q : V} (hv : cls.get? v = some p)
    (hq : attached q = attached p) : (cls.set v q).subviews = v.subviews := by
  rw [h.subviews_set v p q hv, h.subviews_get? v p hv, hq]

end Lawful

end ViewClass

/-! ## Effects at construction -/

namespace Setter

/-- What a setter makes of a view at construction. -/
def effect (s : Setter) (value : Value) (v : View) : View :=
  match s.atConstruction with
  | some hook => (hook v value).2
  | none => v

theorem handOver_construction (s : Setter) (v : View) (value : Value) :
    (s.handOver .construction v value).2 = (.ok (), s.effect value v) := by
  unfold handOver effect
  cases s.atConstruction <;> rfl

/-- A second text of the property undoes the first. -/
def Overwrites (s : Setter) : Prop :=
  ∀ cursor new, (s.scan cursor).1 = .ok new →
    ∀ old v, s.effect new (s.effect old v) = s.effect new v

/-- The class of a view does not depend on what is set on it. -/
def KeepsClass (s : Setter) : Prop := ∀ value v, (s.effect value v).className = v.className

/-- If a hook of the setter fails, the view is as before. -/
def Careful (s : Setter) : Prop :=
  ∀ turn v value e, (s.handOver turn v value).2.1 = .error e → (s.handOver turn v value).2.2 = v

end Setter

/-- A setter that only changes the fields of a view, and each time all over, or not at all. -/
structure Setter.Plain (s : Setter) : Prop where
  overwrites : s.Overwrites
  keepsClass : s.KeepsClass
  keepsSubviews : s.KeepsSubviews
  careful : s.Careful

/-- What a careful setter refuses leaves the view as it was. -/
theorem Setter.Careful.view_execute {s : Setter} (h : s.Careful) {turn : Turn} {cursor : Cursor}
    {v : View} {e : Error} (he : (s.execute turn cursor v).result = .error e) :
    (s.execute turn cursor v).view = v := by
  rw [execute] at he ⊢
  split at he
  · rfl
  · exact h turn v _ e he

theorem Kind.exists_of_scanValue {α : Type} {kind : Kind α} {cursor : Cursor} {value : Value}
    (h : (kind.scanValue cursor).1 = .ok value) : ∃ a, kind.project value = some a := by
  unfold scanValue at h
  dsimp only at h
  cases hscan : (kind.scan cursor).1 with
  | error e =>
    rw [hscan] at h
    cases h
  | ok a =>
    rw [hscan, Except.map, Except.ok.injEq] at h
    exact ⟨a, h ▸ kind.project_inject a⟩

namespace ViewClass

variable {V α : Type} {cls : ViewClass V} {attached : V → List ViewId} {name : String}
  {kind : Kind α}

/-! ## One property of a class -/

section
variable {change : V → α → V}

theorem effect_property_of_some {value : Value} {a : α} (h : kind.project value = some a) :
    (cls.property name kind change).setter.effect value = cls.modify fun p => change p a := by
  funext v
  simp only [Setter.effect, Registration.setter, property, onConstruction, List.foldl_cons,
    List.foldl_nil, Setter.withHook, h, modify]
  cases cls.get? v <;> rfl

theorem effect_property_of_none {value : Value} (h : kind.project value = none) :
    (cls.property name kind change).setter.effect value = fun v => v := by
  funext v
  simp only [Setter.effect, Registration.setter, property, onConstruction, List.foldl_cons,
    List.foldl_nil, Setter.withHook, h]
  cases cls.get? v <;> rfl

/-- Either nothing is changed, or the part of the class. -/
theorem effect_property (cls : ViewClass V) (name : String) (kind : Kind α) (change : V → α → V)
    (value : Value) : (cls.property name kind change).setter.effect value = (fun v => v) ∨
      ∃ a, (cls.property name kind change).setter.effect value =
        cls.modify fun p => change p a := by
  cases h : kind.project value with
  | none => exact Or.inl (effect_property_of_none h)
  | some a => exact Or.inr ⟨a, effect_property_of_some h⟩

theorem overwrites_property (h : cls.Lawful attached)
    (hchange : ∀ p a b, change (change p a) b = change p b) :
    (cls.property name kind change).setter.Overwrites := by
  intro cursor new hnew old v
  obtain ⟨b, hb⟩ := Kind.exists_of_scanValue hnew
  rw [effect_property_of_some hb]
  rcases cls.effect_property name kind change old with hold | ⟨a, hold⟩
  · rw [hold]
  · rw [hold, h.modify_modify]
    simp only [hchange]

theorem keepsClass_property (h : cls.Lawful attached) :
    (cls.property name kind change).setter.KeepsClass := by
  intro value v
  rcases cls.effect_property name kind change value with heq | ⟨a, heq⟩
  · rw [heq]
  · rw [heq, h.className_modify]

theorem keepsSubviews_property (h : cls.Lawful attached)
    (hchange : ∀ p a, attached (change p a) = attached p) :
    (cls.property name kind change).setter.KeepsSubviews := by
  intro turn v value
  cases turn with
  | attached around => rfl
  | construction =>
    rw [Setter.handOver_construction]
    rcases cls.effect_property name kind change value with heq | ⟨a, heq⟩
    · rw [heq]
    · rw [heq, modify]
      split
      · rename_i p hp
        exact h.subviews_set_of_eq hp (hchange p a)
      · rfl

theorem plain_property (h : cls.Lawful attached)
    (hagain : ∀ p a b, change (change p a) b = change p b)
    (hsubviews : ∀ p a, attached (change p a) = attached p) :
    (cls.property name kind change).setter.Plain where
  overwrites := overwrites_property h hagain
  keepsClass := keepsClass_property h
  keepsSubviews := keepsSubviews_property h hsubviews
  careful := fun turn v value e he => by
    cases turn with
    | construction =>
      rw [Setter.handOver_construction] at he
      cases he
    | attached around => rfl

end

section
variable {change : Surroundings → V → α → List Event × Except Error Unit × V}

/-- What a hook for later is run on is the part of the class, and only if there is one. -/
theorem handOver_attachedProperty (cls : ViewClass V) (name : String) (kind : Kind α)
    (change : Surroundings → V → α → List Event × Except Error Unit × V) (around : Surroundings)
    (v : View) (value : Value) :
    ((cls.attachedProperty name kind change).setter.handOver (.attached around) v value =
        ([], .ok (), v) ∧ (cls.get? v = none ∨ kind.project value = none)) ∨
      ∃ p a, cls.get? v = some p ∧ kind.project value = some a ∧
        (cls.attachedProperty name kind change).setter.handOver (.attached around) v value =
          ((change around p a).1, (change around p a).2.1, cls.set v (change around p a).2.2) := by
  simp only [Setter.handOver, Registration.setter, attachedProperty, onAttached,
    List.foldl_cons, List.foldl_nil, Setter.withHook]
  cases cls.get? v with
  | none => exact Or.inl ⟨rfl, Or.inl rfl⟩
  | some p =>
    cases kind.project value with
    | none => exact Or.inl ⟨rfl, Or.inr rfl⟩
    | some a => exact Or.inr ⟨p, a, rfl, rfl, rfl⟩

theorem keepsSubviews_attachedProperty (h : cls.Lawful attached)
    (hchange : ∀ around p a, attached (change around p a).2.2 = attached p) :
    (cls.attachedProperty name kind change).setter.KeepsSubviews := by
  intro turn v value
  cases turn with
  | construction => rfl
  | attached around =>
    rcases handOver_attachedProperty cls name kind change around v value with
      ⟨hidle, -⟩ | ⟨p, a, hp, -, hrun⟩
    · rw [hidle]
    · rw [hrun]
      exact h.subviews_set_of_eq hp (hchange around p a)

theorem careful_attachedProperty (h : cls.Lawful attached)
    (hcareful : ∀ around p a e, (change around p a).2.1 = .error e → (change around p a).2.2 = p) :
    (cls.attachedProperty name kind change).setter.Careful := by
  intro turn v value e he
  cases turn with
  | construction => rfl
  | attached around =>
    rcases handOver_attachedProperty cls name kind change around v value with
      ⟨hidle, -⟩ | ⟨p, a, hp, -, hrun⟩
    · rw [hidle]
    · rw [hrun] at he ⊢
      dsimp only at he ⊢
      rw [hcareful around p a e he, h.set_get? v p hp]

/-- A property for later does nothing at construction. -/
theorem plain_attachedProperty (h : cls.Lawful attached)
    (hsubviews : ∀ around p a, attached (change around p a).2.2 = attached p)
    (hcareful : ∀ around p a e, (change around p a).2.1 = .error e → (change around p a).2.2 = p) :
    (cls.attachedProperty name kind change).setter.Plain where
  overwrites := fun _ _ _ _ _ => rfl
  keepsClass := fun _ _ => rfl
  keepsSubviews := keepsSubviews_attachedProperty h hsubviews
  careful := careful_attachedProperty h hcareful

end

end ViewClass

/-! ## The stock classes -/

theorem forall_stockProperties {P : Registration → Prop}
    (hcontainer : ∀ r ∈ containerProperties, P r)
    (hcontrol : ∀ r ∈ controlProperties, P r) (hlabel : ∀ r ∈ labelProperties, P r)
    (hbutton : ∀ r ∈ buttonProperties, P r) (hstack : ∀ r ∈ stackProperties, P r)
    (htextField : ∀ r ∈ textFieldProperties, P r) : ∀ r ∈ stockProperties, P r := by
  intro r hr
  simp only [stockProperties, List.mem_append] at hr
  rcases hr with ((((hr | hr) | hr) | hr) | hr) | hr
  · exact hcontainer r hr
  · exact hcontrol r hr
  · exact hlabel r hr
  · exact hbutton r hr
  · exact hstack r hr
  · exact htextField r hr

open ViewClass

/-- Whatever holds of properties that are set at construction holds of all stock properties if it
    holds of the two that are set once the tree stands. -/
theorem forall_stockProperties_of_property {P : Registration → Prop}
    (hproperty : ∀ {V α : Type} (cls : ViewClass V) (name : String) (kind : Kind α)
      (change : V → α → V), P (cls.property name kind change))
    (hmatchSize : P (container.attachedProperty "matchSize" .identifier matchSize))
    (haccessory : P (textField.attachedProperty "inputAccessoryView" .identifier attachAccessory)) :
    ∀ r ∈ stockProperties, P r := by
  refine forall_stockProperties ?_ ?_ ?_ ?_ ?_ ?_ <;>
    simp only [containerProperties, controlProperties, labelProperties, buttonProperties,
      stackProperties, textFieldProperties, List.forall_mem_cons] <;>
    and_intros <;> first
      | exact hproperty _ _ _ _
      | exact hmatchSize
      | exact haccessory
      | exact List.forall_mem_nil _

/-- Taking over a size leaves the attached views alone. -/
theorem subviews_matchSize (around : Surroundings) (c : Container) (name : String) :
    (matchSize around c name).2.2.subviews = c.subviews := by
  unfold matchSize
  split
  · rfl
  · split <;> rfl

/-- A size that cannot be taken over leaves all alone. -/
theorem matchSize_of_error {around : Surroundings} {c : Container} {name : String} {e : Error}
    (h : (matchSize around c name).2.1 = .error e) : (matchSize around c name).2.2 = c := by
  unfold matchSize at h ⊢
  split at h
  · rfl
  · split at h <;> cases h

/-- Noting an accessory does not fail. -/
theorem attachAccessory_ok (around : Surroundings) (t : TextField) (name : String) :
    (attachAccessory around t name).2.1 = .ok () := by
  unfold attachAccessory
  split <;> rfl

/-- Noting an accessory leaves the attached views alone. -/
theorem subviews_attachAccessory (around : Surroundings) (t : TextField) (name : String) :
    (attachAccessory around t name).2.2.control.base.subviews = t.control.base.subviews := by
  unfold attachAccessory
  split <;> rfl

namespace Catalogue

/-- **Every stock setter is plain.** -/
theorem plain_stock : stock.Keeps fun _ s => s.Plain := by
  refine keeps_stock (forall_stockProperties ?_ ?_ ?_ ?_ ?_ ?_)
  · simp only [containerProperties, List.forall_mem_cons]
    and_intros <;> first
      | exact plain_property lawful_container (fun _ _ _ => rfl) fun _ _ => rfl
      | exact plain_attachedProperty lawful_container subviews_matchSize fun _ _ _ _ =>
          matchSize_of_error
      | exact List.forall_mem_nil _
  · simp only [controlProperties, List.forall_mem_cons]
    and_intros <;> first
      | exact plain_property lawful_control (fun _ _ _ => rfl) fun _ _ => rfl
      | exact List.forall_mem_nil _
  · simp only [labelProperties, List.forall_mem_cons]
    and_intros <;> first
      | exact plain_property lawful_label (fun _ _ _ => rfl) fun _ _ => rfl
      | exact List.forall_mem_nil _
  · simp only [buttonProperties, List.forall_mem_cons]
    and_intros <;> first
      | exact plain_property lawful_button (fun _ _ _ => rfl) fun _ _ => rfl
      | exact List.forall_mem_nil _
  · simp only [stackProperties, List.forall_mem_cons]
    and_intros <;> first
      | exact plain_property lawful_stack (fun _ _ _ => rfl) fun _ _ => rfl
      | exact List.forall_mem_nil _
  · simp only [textFieldProperties, List.forall_mem_cons]
    and_intros <;> first
      | exact plain_property lawful_textField (fun _ _ _ => rfl) fun _ _ => rfl
      | exact plain_attachedProperty lawful_textField subviews_attachAccessory fun _ _ _ _ h => by
          rw [attachAccessory_ok] at h
          cases h
      | exact List.forall_mem_nil _

/-- No stock setter edits a list of attached views. -/
theorem keepsSubviews_stock : stock.KeepsSubviews := plain_stock.imp fun _ _ h => h.keepsSubviews

/-- No stock setter changes a view and fails. -/
theorem careful_stock : stock.Keeps fun _ s => s.Careful := plain_stock.imp fun _ _ h => h.careful

/-- New views of the stock classes have nothing attached. -/
theorem makesBare_stock : stock.MakesBare := makes_stock rfl rfl rfl rfl rfl

end Catalogue

end ViewSheet
