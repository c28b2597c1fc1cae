/-
  Dispatch: which setter a property goes to, and what a catalogue promises about its setters.

  1. **Specification**: `setter?` is the setter of the nearest class along a view's chain that has
     one for the property.  `receive` runs that setter and no other (`receive_eq`); which one it is
     depends on the class of the view alone.

  2. **Promises**: `Keeps` and `Makes` say that a condition holds of every setter a catalogue has,
     and of every view it makes.  Registering keeps them if what is registered meets them; the
     catalogue of the stock classes follows from its registrations, one by one.
-/
import ViewSheet.Catalogue.Stock
import ViewSheet.Proofs.Names

namespace ViewSheet

/-- The hooks of a setter leave the list of attached views alone, also if they fail. -/
def Setter.KeepsSubviews (s : Setter) : Prop :=
  ∀ turn v value, (s.handOver turn v value).2.2.subviews = v.subviews

namespace Catalogue

/-! ## The setter that is found -/

/-- The setter of the nearest class along the chain that has one for the property. -/
def setter? (c : Catalogue) (className property : String) : Option Setter :=
  (c.tablesFor className).2.findSome? fun t => t.setters.get? property

/-- The complaint that no class along the chain has a setter for the property. -/
def unhandled (className property : String) (line : Nat) : Error :=
  .of (.unhandledProperty (s!"Property '{property}' has no setter registered in any "
    ++ s!"ancestor of type {className}") line)

/-- The first of the tables that has a setter for the property takes it. -/
theorem receiveIn_eq (property : String) (turn : Turn) (cursor : Cursor) (v : View)
    (tables : List SetterTable) :
    receiveIn property turn cursor v tables =
      match tables.findSome? fun t => t.setters.get? property with
      | some s => s.execute turn cursor v
      | none => ⟨.error (unhandled v.className property cursor.line), v, cursor, []⟩ := by
  induction tables with
  | nil => rfl
  | cons t rest ih =>
    rw [receiveIn, List.findSome?_cons, SetterTable.receive?]
    cases ht : t.setters.get? property with
    | none => exact ih
    | some s => rfl

/-- A property goes to the setter that is found, and to no other.  The walk along the chain may add
    a warning. -/
theorem receive_eq (c : Catalogue) (property : String) (turn : Turn) (cursor : Cursor) (v : View) :
    c.receive property turn cursor v =
      match c.setter? v.className property with
      | some s =>
        let own := s.execute turn cursor v
        { own with events := (c.chain v.className).1 ++ own.events }
      | none => ⟨.error (unhandled v.className property cursor.line), v, cursor,
          (c.chain v.className).1⟩ := by
  show ({ receiveIn property turn cursor v (c.tablesFor v.className).2 with
    events := (c.chain v.className).1 ++
      (receiveIn property turn cursor v (c.tablesFor v.className).2).events } : Receipt) = _
  rw [receiveIn_eq, ← setter?]
  cases c.setter? v.className property with
  | none => simp
  | some s => rfl

theorem result_receive (c : Catalogue) (property : String) (turn : Turn) (cursor : Cursor)
    (v : View) : (c.receive property turn cursor v).result =
      match c.setter? v.className property with
      | some s => (s.execute turn cursor v).result
      | none => .error (unhandled v.className property cursor.line) := by
  rw [receive_eq]
  split <;> rfl

theorem view_receive (c : Catalogue) (property : String) (turn : Turn) (cursor : Cursor)
    (v : View) : (c.receive property turn cursor v).view =
      match c.setter? v.className property with
      | some s => (s.execute turn cursor v).view
      | none => v := by
  rw [receive_eq]
  split <;> rfl

/-! ## Conditions on all setters and on all new views -/

/-- Every setter that the catalogue has for a property meets a condition. -/
def Keeps (c : Catalogue) (P : String → Setter → Prop) : Prop :=
  ∀ className t property s, c.table? className = some t → t.setters.get? property = some s →
    P property s

/-- Every new view of the catalogue meets a condition. -/
def Makes (c : Catalogue) (P : View → Prop) : Prop :=
  ∀ name v, c.instantiate? name = some v → P v

theorem Keeps.imp {c : Catalogue} {P Q : String → Setter → Prop} (h : c.Keeps P)
    (hPQ : ∀ property s, P property s → Q property s) : c.Keeps Q :=
  fun className t property s ht hs => hPQ property s (h className t property s ht hs)

/-- What all setters meet, the one that is found meets. -/
theorem Keeps.setter? {c : Catalogue} {P : String → Setter → Prop} (h : c.Keeps P)
    {className property : String} {s : Setter} (hs : c.setter? className property = some s) :
    P property s := by
  obtain ⟨t, ht, hts⟩ := List.exists_of_findSome?_eq_some hs
  obtain ⟨name, -, hname⟩ := List.mem_filterMap.mp ht
  exact h name t property s hname hts

theorem Keeps.tableD {c : Catalogue} {P : String → Setter → Prop} (h : c.Keeps P)
    {className property : String} {s : Setter}
    (hs : (c.tableD className).setters.get? property = some s) : P property s := by
  rw [Catalogue.tableD] at hs
  cases ht : c.table? className with
  | none => simp [ht, SetterTable.empty] at hs
  | some t =>
    rw [ht, Option.getD_some] at hs
    exact h className t property s ht hs

/-- What a setter took, it has put into the view in the turn that was running. -/
theorem exists_setter_of_receive {c : Catalogue} {property : String} {turn : Turn} {cursor : Cursor}
    {v : View} (h : (c.receive property turn cursor v).result = .ok ()) :
    ∃ s value, c.setter? v.className property = some s ∧ (s.scan cursor).1 = .ok value ∧
      (s.handOver turn v value).2 = (.ok (), (c.receive property turn cursor v).view) := by
  rw [view_receive]
  rw [result_receive] at h
  split at h
  · rename_i s hs
    rw [Setter.execute] at h ⊢
    split at h
    · cases h
    · rename_i value after hscan
      exact ⟨s, value, hs, by rw [hscan], Prod.ext h rfl⟩
  · cases h

/-- A view that a property is handed to stays as it is, or a setter has got a value for it. -/
theorem view_receive_cases (c : Catalogue) (property : String) (turn : Turn) (cursor : Cursor)
    (v : View) : (c.receive property turn cursor v).view = v ∨
      ∃ s value, c.setter? v.className property = some s ∧ (s.scan cursor).1 = .ok value ∧
        (c.receive property turn cursor v).view = (s.handOver turn v value).2.2 := by
  rw [view_receive]
  split
  · rename_i s hs
    rw [Setter.execute]
    split
    · exact Or.inl rfl
    · rename_i value after hscan
      exact Or.inr ⟨s, value, hs, by rw [hscan], rfl⟩
  · exact Or.inl rfl

/-- No setter of the catalogue edits a list of attached views. -/
def KeepsSubviews (c : Catalogue) : Prop := c.Keeps fun _ s => s.KeepsSubviews

/-- Every new view of the catalogue has nothing attached to it. -/
def MakesBare (c : Catalogue) : Prop := c.Makes fun v => v.subviews = []

theorem KeepsSubviews.subviews_receive {c : Catalogue} (h : c.KeepsSubviews) (property : String)
    (turn : Turn) (cursor : Cursor) (v : View) :
    (c.receive property turn cursor v).view.subviews = v.subviews := by
  rcases c.view_receive_cases property turn cursor v with hsame | ⟨s, value, hs, -, hover⟩
  · rw [hsame]
  · rw [hover]
    exact Keeps.setter? h hs turn v value

/-- A table put in the place of another keeps what its setters meet. -/
theorem Keeps.insert {c : Catalogue} {P : String → Setter → Prop} (h : c.Keeps P)
    (className : String) {t : SetterTable}
    (ht : ∀ property s, t.setters.get? property = some s → P property s) :
    Keeps { c with tables := c.tables.insert className t } P := by
  intro name u property s hu hs
  rw [table?, NameMap.get?_insert] at hu
  split at hu
  · rw [Option.some.injEq] at hu
    subst hu
    exact ht property s hs
  · exact h name u property s hu hs

theorem Keeps.openTable {c : Catalogue} {P : String → Setter → Prop} (h : c.Keeps P)
    (className : String) : (c.openTable className).Keeps P :=
  h.insert className fun _ _ hs => h.tableD hs

theorem Keeps.register {c : Catalogue} {P : String → Setter → Prop} (h : c.Keeps P)
    (className property : String) (scan : Scan Value) (hooks : List Hook)
    (hnew : P property (hooks.foldl Setter.withHook (.ofScan scan))) :
    (c.register className property scan hooks).Keeps P := by
  refine h.insert className fun other s hs => ?_
  rw [SetterTable.register] at hs
  -- a property that is registered already keeps its setter
  split at hs
  · exact h.tableD hs
  · rw [NameMap.get?_insert] at hs
    split at hs
    · rename_i ho
      rw [Option.some.injEq] at hs
      exact hs ▸ ho ▸ hnew
    · exact h.tableD hs

theorem Keeps.registerClass {c : Catalogue} {P : String → Setter → Prop} (h : c.Keeps P)
    {V : Type} (cls : ViewClass V) : (c.registerClass cls).Keeps P :=
  h

theorem Keeps.registerAbstract {c : Catalogue} {P : String → Setter → Prop} (h : c.Keeps P)
    (name : String) (superclass : Option String) : (c.registerAbstract name superclass).Keeps P :=
  h

theorem makes_insert {c : Catalogue} {P : View → Prop} (h : c.Makes P) (name : String)
    {entry : ClassEntry} (hentry : ∀ v, entry.blank = some v → P v) :
    Makes { c with classes := c.classes.insert name entry } P := by
  intro other v hv
  rw [instantiate?, NameMap.get?_insert] at hv
  split at hv
  · exact hentry v hv
  · exact h other v hv

theorem Makes.registerClass {c : Catalogue} {P : View → Prop} (h : c.Makes P) {V : Type}
    (cls : ViewClass V) (hblank : P cls.blank) : (c.registerClass cls).Makes P :=
  makes_insert h cls.name fun v hv => by
    rw [Option.some.injEq] at hv
    exact hv ▸ hblank

theorem Makes.registerAbstract {c : Catalogue} {P : View → Prop} (h : c.Makes P) (name : String)
    (superclass : Option String) : (c.registerAbstract name superclass).Makes P :=
  makes_insert h name fun v hv => by simp at hv

theorem classes_registerAll (c : Catalogue) (className : String) (properties : List Registration) :
    (c.registerAll className properties).classes = c.classes := by
  have hfold : ∀ (ps : List Registration) (b : Catalogue),
      (ps.foldl (fun c p => c.register className p.property p.scan p.hooks) b).classes
        = b.classes := by
    intro ps
    induction ps with
    | nil => exact fun _ => rfl
    | cons p rest ih => exact fun b => ih _
  exact hfold properties _

theorem Makes.registerAll {c : Catalogue} {P : View → Prop} (h : c.Makes P) (className : String)
    (properties : List Registration) : (c.registerAll className properties).Makes P := by
  intro name v hv
  rw [instantiate?, classes_registerAll] at hv
  exact h name v hv

end Catalogue

/-! ## Registrations -/

namespace Registration

/-- The setter that a registration installs. -/
def setter (r : Registration) : Setter := r.hooks.foldl Setter.withHook (.ofScan r.scan)

end Registration

theorem Catalogue.Keeps.registerAll {c : Catalogue} {P : String → Setter → Prop} (h : c.Keeps P)
    (className : String) {properties : List Registration}
    (hnew : ∀ r ∈ properties, P r.property r.setter) :
    (c.registerAll className properties).Keeps P := by
  have hfold : ∀ (ps : List Registration) (b : Catalogue), (∀ r ∈ ps, P r.property r.setter) →
      b.Keeps P →
      (ps.foldl (fun c p => c.register className p.property p.scan p.hooks) b).Keeps P := by
    intro ps
    induction ps with
    | nil => exact fun _ _ hb => hb
    | cons p rest ih =>
      intro b hps hb
      exact ih _ (fun r hr => hps r (List.mem_cons_of_mem p hr))
        (hb.register className p.property p.scan p.hooks (hps p List.mem_cons_self))
  exact hfold properties _ hnew (h.openTable className)

/-- All properties of the stock classes. -/
def stockProperties : List Registration :=
  containerProperties ++ controlProperties ++ labelProperties ++ buttonProperties
    ++ stackProperties ++ textFieldProperties

namespace Catalogue

/-- What all stock registrations meet, all setters of the stock catalogue meet. -/
theorem keeps_stock {P : String → Setter → Prop}
    (h : ∀ r ∈ stockProperties, P r.property r.setter) : stock.Keeps P := by
  simp only [stockProperties, List.mem_append] at h
  have hempty : empty.Keeps P := by
    intro className t property s ht _
    simp [empty, registerClass, table?] at ht
  exact hempty.registerAll "Container" (fun r hr => h r (by simp only [hr, true_or]))
    |>.registerAbstract "Control" (some "Container")
    |>.registerAll "Control" (fun r hr => h r (by simp only [hr, true_or, or_true]))
    |>.registerClass ViewClass.label
    |>.registerAll "Label" (fun r hr => h r (by simp only [hr, true_or, or_true]))
    |>.registerClass ViewClass.button
    |>.registerAll "Button" (fun r hr => h r (by simp only [hr, true_or, or_true]))
    |>.registerClass ViewClass.stack
    |>.registerAll "Stack" (fun r hr => h r (by simp only [hr, true_or, or_true]))
    |>.registerClass ViewClass.textField
    |>.registerAll "TextField" (fun r hr => h r (by simp only [hr, or_true]))

/-- What the blank views of the stock classes meet, all new views of the stock catalogue meet. -/
theorem makes_stock {P : View → Prop} (hcontainer : P ViewClass.container.blank)
    (hlabel : P ViewClass.label.blank) (hbutton : P ViewClass.button.blank)
    (hstack : P ViewClass.stack.blank) (htextField : P ViewClass.textField.blank) :
    stock.Makes P := by
  have hnone : Makes ⟨.empty, .empty⟩ P := by
    intro name v hv
    simp [instantiate?] at hv
  exact hnone.registerClass ViewClass.container hcontainer
    |>.registerAll "Container" containerProperties
    |>.registerAbstract "Control" (some "Container")
    |>.registerAll "Control" controlProperties
    |>.registerClass ViewClass.label hlabel
    |>.registerAll "Label" labelProperties
    |>.registerClass ViewClass.button hbutton
    |>.registerAll "Button" buttonProperties
    |>.registerClass ViewClass.stack hstack
    |>.registerAll "Stack" stackProperties
    |>.registerClass ViewClass.textField htextField
    |>.registerAll "TextField" textFieldProperties

end Catalogue

end ViewSheet
