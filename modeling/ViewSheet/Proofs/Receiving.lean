/-
  Receiving: a property goes to the first class of a chain that has a setter for it, and that setter
  alone has a say.

  1. **Program**: a host makes a catalogue by registrations, one after the other (`Enrolment`).  It
     writes hooks for the part of a view that belongs to a class and for values of one type
     (`PartHook`); what a table keeps is such a hook for any view and any value (`PartHook.lift`).
     The stock catalogue is made in this way (`isEnrolled_stock`).

  2. **Specification**: `Handled` says what may come of handing a property to one class.  The text
     is scanned once.  If it cannot be read, nothing else happens; if there is no hook for the turn,
     or the view has no part of the class, the view is passed over; else the hook is run once, and
     what it has made of the part stays, also if it has failed.

  3. **The crux**: a setter in a table has forgotten for what types it was made.  That it is the one
     of the last registration of the property for the class goes by induction on the registrations
     (`enrolled_converter?`), and the types come back with the registration.

  4. **Result** (`receive_first`): no class of the chain has a setter and nothing changes, or the
     first class that has one handles the property, and the tables of the others are of no account.
-/
import Mathlib.Data.List.Induction
import ViewSheet.Proofs.Passes

namespace ViewSheet

/-! ## Hooks as they are written -/

/-- A hook for the part of a view that belongs to a class, and for values of one type. -/
inductive PartHook (V α : Type) where
  | construction (change : V → α → List Event × V)
  | attached (change : Surroundings → V → α → List Event × Except Error Unit × V)

namespace PartHook

variable {V α : Type}

/-- The hook for any view and any value.  A view without a part of the class is passed over. -/
def lift (cls : ViewClass V) (kind : Kind α) : PartHook V α → Hook
  | construction change => .construction fun v value =>
    match cls.get? v, kind.project value with
    | some part, some a => ((change part a).1, cls.set v (change part a).2)
    | _, _ => ([], v)
  | attached change => cls.onAttached kind change

/-- What the hook does in a turn, if it is for that turn. -/
def action? : Turn → PartHook V α → Option (V → α → List Event × Except Error Unit × V)
  | .construction, construction change =>
    some fun part a => ((change part a).1, .ok (), (change part a).2)
  | .attached around, attached change => some (change around)
  | _, _ => none

/-- What is done in a turn; of several hooks for it the last counts. -/
def lastAction? (turn : Turn) (hooks : List (PartHook V α)) :
    Option (V → α → List Event × Except Error Unit × V) :=
  hooks.reverse.findSome? (action? turn)

end PartHook

/-! ## Registrations as they are made -/

/-- One registration: a class, an abstract class, a table without setters, or a property of a class
    with the hooks that are chained to it. -/
inductive Enrolment where
  | newClass {V : Type} (cls : ViewClass V)
  | newAbstract (name : String) (superclass : Option String)
  | newTable (className : String)
  | newProperty {V α : Type} (cls : ViewClass V) (property : String) (kind : Kind α)
      (hooks : List (PartHook V α))

namespace Enrolment

/-- The catalogue after a registration. -/
def run (c : Catalogue) : Enrolment → Catalogue
  | newClass cls => c.registerClass cls
  | newAbstract name superclass => c.registerAbstract name superclass
  | newTable className => c.openTable className
  | newProperty cls property kind hooks =>
    c.register cls.name property kind.scanValue (hooks.map (PartHook.lift cls kind))

/-- The registration installs a setter of this class for this property.  Without a hook it does
    not. -/
def Installs (className property : String) : Enrolment → Prop
  | newProperty cls name _ hooks => cls.name = className ∧ name = property ∧ hooks ≠ []
  | _ => False

end Enrolment

namespace Catalogue

/-- The catalogue that registrations make, from left to right. -/
def enrolled (es : List Enrolment) : Catalogue := es.foldl Enrolment.run .empty

/-! ## The stock classes -/

/-- A catalogue that registrations have made. -/
def IsEnrolled (c : Catalogue) : Prop := ∃ es, c = enrolled es

end Catalogue

namespace Registration

variable {V α : Type} (cls : ViewClass V) (name : String) (kind : Kind α)

/-- A registration whose hooks are for the part of a view that belongs to the class. -/
def Of (r : Registration) : Prop :=
  ∃ (α : Type) (kind : Kind α) (hooks : List (PartHook V α)),
    r.scan = kind.scanValue ∧ r.hooks = hooks.map (PartHook.lift cls kind)

@[simp] theorem of_property (change : V → α → V) : Of cls (cls.property name kind change) :=
  ⟨α, kind, [.construction fun part a => ([], change part a)], rfl, rfl⟩

@[simp] theorem of_attachedProperty
    (change : Surroundings → V → α → List Event × Except Error Unit × V) :
    Of cls (cls.attachedProperty name kind change) :=
  ⟨α, kind, [.attached change], rfl, rfl⟩

end Registration

namespace Catalogue

namespace IsEnrolled

variable {c : Catalogue}

theorem run (h : c.IsEnrolled) (e : Enrolment) : (e.run c).IsEnrolled := by
  obtain ⟨es, rfl⟩ := h
  refine ⟨es ++ [e], ?_⟩
  rw [enrolled, enrolled, List.foldl_append]
  rfl

theorem registerAll (h : c.IsEnrolled) {V : Type} (cls : ViewClass V) (rs : List Registration)
    (hrs : ∀ r ∈ rs, Registration.Of cls r) : (c.registerAll cls.name rs).IsEnrolled := by
  have hopen : (c.openTable cls.name).IsEnrolled := h.run (.newTable cls.name)
  rw [Catalogue.registerAll]
  generalize c.openTable cls.name = opened at hopen ⊢
  induction rs generalizing opened with
  | nil => exact hopen
  | cons r rest ih =>
    obtain ⟨α, kind, hooks, hscan, hhooks⟩ := hrs r List.mem_cons_self
    have hnext : (opened.register cls.name r.property r.scan r.hooks).IsEnrolled := by
      rw [hscan, hhooks]
      exact hopen.run (.newProperty cls r.property kind hooks)
    exact ih (fun r hr => hrs r (List.mem_cons_of_mem _ hr)) _ hnext

end IsEnrolled

/-- The stock catalogue is made by registrations. -/
theorem isEnrolled_stock : stock.IsEnrolled := by
  have hempty : empty.IsEnrolled := ⟨[], rfl⟩
  have hcontainer := hempty.registerAll .container containerProperties (by
    simp [containerProperties])
  have hcontrol := (hcontainer.run (.newAbstract "Control" (some "Container"))).registerAll .control
    controlProperties (by simp [controlProperties])
  have hlabel := (hcontrol.run (.newClass .label)).registerAll .label labelProperties (by
    simp [labelProperties])
  have hbutton := (hlabel.run (.newClass .button)).registerAll .button buttonProperties (by
    simp [buttonProperties])
  have hstack := (hbutton.run (.newClass .stack)).registerAll .stack stackProperties (by
    simp [stackProperties])
  exact (hstack.run (.newClass .textField)).registerAll .textField
    textFieldProperties (by simp [textFieldProperties])

/-! ## Setters as they are installed -/

/-- The setter in the table of a class. -/
def converter? (c : Catalogue) (className property : String) : Option Setter :=
  (c.table? className).bind fun t => t.setters.get? property

/-- Registering changes the setter of one class for one property, and only if there is a hook. -/
theorem converter?_register (c : Catalogue) (className property : String) (scan : Scan Value)
    (hooks : List Hook) (other key : String) :
    (c.register className property scan hooks).converter? other key =
      if className = other ∧ property = key ∧ hooks ≠ [] then
        some (hooks.foldl Setter.withHook (.ofScan scan))
      else c.converter? other key := by
  have hold : (c.tableD className).setters.get? key = c.converter? className key := by
    unfold tableD converter?
    cases c.table? className with
    | none => rfl
    | some t => rfl
  by_cases hname : other = className
  · subst hname
    have htable : (c.register other property scan hooks).converter? other key =
        ((c.tableD other).register property scan hooks).setters.get? key := by
      rw [converter?, register, table?, NameMap.get?_insert_self]
      rfl
    rw [htable, SetterTable.register]
    cases hooks with
    | nil => simpa using hold
    | cons first rest =>
      rw [if_neg (by simp), NameMap.get?_insert, hold]
      by_cases hkey : key = property
      · rw [if_pos hkey, if_pos ⟨rfl, hkey.symm, by simp⟩]
      · rw [if_neg hkey, if_neg fun h => hkey h.2.1.symm]
  · rw [if_neg fun h => hname h.1.symm, converter?, register, table?,
      NameMap.get?_insert_of_ne _ _ hname]
    rfl

/-- A table that is made sure of has the setters that it had. -/
theorem converter?_openTable (c : Catalogue) (className other key : String) :
    (c.openTable className).converter? other key = c.converter? other key := by
  by_cases hname : other = className
  · subst hname
    rw [converter?, openTable, table?, NameMap.get?_insert_self, converter?, tableD]
    cases c.table? other with
    | none => rfl
    | some t => rfl
  · rw [converter?, openTable, table?, NameMap.get?_insert_of_ne _ _ hname]
    rfl

end Catalogue

/-- The setter that a table keeps of a scan and hooks. -/
def PartHook.setter {V α : Type} (cls : ViewClass V) (kind : Kind α) (hooks : List (PartHook V α)) :
    Setter :=
  (hooks.map (lift cls kind)).foldl Setter.withHook (.ofScan kind.scanValue)

namespace Enrolment

/-- A registration installs its setter, and leaves all others as they are. -/
theorem converter?_run (e : Enrolment) (c : Catalogue) (className property : String) :
    (¬ e.Installs className property ∧
      (e.run c).converter? className property = c.converter? className property) ∨
    ∃ (V α : Type) (cls : ViewClass V) (kind : Kind α) (hooks : List (PartHook V α)),
      e = newProperty cls property kind hooks ∧ cls.name = className ∧ hooks ≠ [] ∧
        (e.run c).converter? className property = some (PartHook.setter cls kind hooks) := by
  cases e with
  | newClass cls => exact Or.inl ⟨id, rfl⟩
  | newAbstract name superclass => exact Or.inl ⟨id, rfl⟩
  | newTable name => exact Or.inl ⟨id, c.converter?_openTable name className property⟩
  | @newProperty V α cls name kind hooks =>
    have hrun := c.converter?_register cls.name name kind.scanValue
      (hooks.map (PartHook.lift cls kind)) className property
    have hmap : hooks.map (PartHook.lift cls kind) ≠ [] ↔ hooks ≠ [] :=
      not_congr List.map_eq_nil_iff
    by_cases h : cls.name = className ∧ name = property ∧ hooks ≠ []
    · obtain ⟨hname, rfl, hhooks⟩ := h
      rw [if_pos ⟨hname, rfl, hmap.mpr hhooks⟩] at hrun
      exact Or.inr ⟨V, α, cls, kind, hooks, rfl, hname, hhooks, hrun⟩
    · rw [if_neg fun h' => h ⟨h'.1, h'.2.1, hmap.mp h'.2.2⟩] at hrun
      exact Or.inl ⟨h, hrun⟩

end Enrolment

namespace Catalogue

/-- **The last registration counts.**  A setter in a table is that of the last registration of its
    property for the class. -/
theorem enrolled_converter? {es : List Enrolment} {className property : String} {s : Setter}
    (h : (enrolled es).converter? className property = some s) :
    ∃ (V α : Type) (cls : ViewClass V) (kind : Kind α) (hooks : List (PartHook V α))
      (earlier later : List Enrolment),
      es = earlier ++ .newProperty cls property kind hooks :: later ∧ cls.name = className ∧
      hooks ≠ [] ∧ (∀ e ∈ later, ¬ e.Installs className property) ∧
      s = PartHook.setter cls kind hooks := by
  induction es using List.reverseRecOn with
  | nil => cases h
  | append_singleton es e ih =>
    rw [enrolled, List.foldl_append, List.foldl_cons, List.foldl_nil] at h
    rcases e.converter?_run (enrolled es) className property with
      ⟨hother, hsame⟩ | ⟨V, α, cls, kind, hooks, rfl, hname, hhooks, hset⟩
    · rw [← enrolled, hsame] at h
      obtain ⟨V, α, cls, kind, hooks, earlier, later, rfl, hname, hhooks, hlater, hs⟩ := ih h
      refine ⟨V, α, cls, kind, hooks, earlier, later ++ [e], by simp, hname, hhooks, ?_, hs⟩
      intro e' he'
      rcases List.mem_append.mp he' with hmem | hmem
      · exact hlater e' hmem
      · rw [List.mem_singleton.mp hmem]
        exact hother
    · rw [← enrolled, hset, Option.some.injEq] at h
      exact ⟨V, α, cls, kind, hooks, es, [], rfl, hname, hhooks, by simp, h.symm⟩

end Catalogue

/-! ## What a setter does -/

namespace PartHook

variable {V α : Type} (cls : ViewClass V) (kind : Kind α)

theorem scan_setter (hooks : List (PartHook V α)) :
    (setter cls kind hooks).scan = kind.scanValue := by
  rw [setter]
  induction hooks using List.reverseRecOn with
  | nil => rfl
  | append_singleton hooks hook ih =>
    rw [List.map_append, List.foldl_append]
    cases hook <;> exact ih

/-- In a turn the last hook for it is run, on the part of the class. -/
theorem handOver_setter (hooks : List (PartHook V α)) (turn : Turn) (v : View) (a : α) :
    (setter cls kind hooks).handOver turn v (kind.inject a) =
      match lastAction? turn hooks, cls.get? v with
      | some action, some part =>
        ((action part a).1, (action part a).2.1, cls.set v (action part a).2.2)
      | _, _ => ([], .ok (), v) := by
  rw [setter]
  induction hooks using List.reverseRecOn with
  | nil => cases turn <;> rfl
  | append_singleton hooks hook ih =>
    rw [List.map_append, List.foldl_append, lastAction?, List.reverse_append,
      List.reverse_singleton, List.singleton_append, List.findSome?_cons]
    -- a hook for the other turn leaves the setter's hook for this one
    cases turn with
    | construction =>
      cases hook with
      | construction change =>
        cases hpart : cls.get? v <;>
          simp [lift, action?, Setter.withHook, Setter.handOver, hpart, kind.project_inject]
      | attached change => exact ih
    | attached around =>
      cases hook with
      | construction change => exact ih
      | attached change =>
        cases hpart : cls.get? v <;>
          simp [lift, action?, Setter.withHook, Setter.handOver, ViewClass.onAttached, hpart,
            kind.project_inject]

end PartHook

/-- **What may come of handing a property to one class.** -/
inductive Handled {V α : Type} (cls : ViewClass V) (kind : Kind α) (hooks : List (PartHook V α))
    (turn : Turn) (cursor : Cursor) (v : View) : Receipt → Prop where
  /-- The text cannot be read.  The view is as before. -/
  | unreadable {e : Error} {after : Cursor} (scan : kind.scan cursor = (.error e, after)) :
      Handled cls kind hooks turn cursor v ⟨.error e, v, after, []⟩
  /-- There is no hook for the turn, or the view cannot be seen as the class.  The view is as
      before. -/
  | passedOver {a : α} {after : Cursor} (scan : kind.scan cursor = (.ok a, after))
      (idle : PartHook.lastAction? turn hooks = none ∨ cls.get? v = none) :
      Handled cls kind hooks turn cursor v ⟨.ok (), v, after, []⟩
  /-- The hook is run, on the part of the class and the value.  Its result is that of the whole, and
      the view has the part that it leaves. -/
  | ran {a : α} {after : Cursor} {action : V → α → List Event × Except Error Unit × V}
      {part part' : V} {result : Except Error Unit} {events : List Event}
      (scan : kind.scan cursor = (.ok a, after))
      (installed : PartHook.lastAction? turn hooks = some action) (seen : cls.get? v = some part)
      (run : action part a = (events, result, part')) :
      Handled cls kind hooks turn cursor v ⟨result, cls.set v part', after, events⟩

/-- A setter that was registered handles a property as its registration says. -/
theorem handled_execute {V α : Type} (cls : ViewClass V) (kind : Kind α)
    (hooks : List (PartHook V α)) (turn : Turn) (cursor : Cursor) (v : View) :
    Handled cls kind hooks turn cursor v
      ((PartHook.setter cls kind hooks).execute turn cursor v) := by
  unfold Setter.execute
  rw [PartHook.scan_setter, Kind.scanValue]
  rcases hscan : kind.scan cursor with ⟨r, after⟩
  cases r with
  | error e => exact .unreadable hscan
  | ok a =>
    simp only [Except.map, PartHook.handOver_setter]
    cases haction : PartHook.lastAction? turn hooks with
    | none => exact .passedOver hscan (Or.inl haction)
    | some action =>
      cases hpart : cls.get? v with
      | none => exact .passedOver hscan (Or.inr hpart)
      | some part => exact .ran hscan haction hpart rfl

/-- The view that a scene goes on with is the one that handing the property over has left. -/
theorem Scene.get?_applyKey {s : Scene} {phase : Phase} {d : Declaration} {id : ViewId}
    {key : String} {w : World} {p : PropertyText} {v : View} (hp : d.filled? key s.data = some p)
    (hv : w.store.get? id = some v) :
    (s.applyKey phase d id key w).2.store.get? id =
      some (s.receipt phase id key p w v).view := by
  rcases s.applyKey_cases phase d id key w with
    ⟨hnone | hnone, -⟩ | ⟨q, u, hq, hu, hcases⟩
  · rw [handing, hp] at hnone
    cases hnone
  · rw [hv] at hnone
    cases hnone
  · rw [hp, Option.some.injEq] at hq
    rw [hv, Option.some.injEq] at hu
    subst hq hu
    rcases hcases with ⟨-, h⟩ | ⟨e, -, h⟩ <;> rw [h]
    all_goals exact ViewStore.get?_set_self hv _

/-! ## The first class that has a setter -/

namespace Catalogue

theorem setter?_eq (c : Catalogue) (className property : String) :
    c.setter? className property =
      (c.chain className).2.findSome? fun name => c.converter? name property := by
  show ((c.chain className).2.filterMap c.table?).findSome? _ = _
  induction (c.chain className).2 with
  | nil => rfl
  | cons name rest ih =>
    rw [List.filterMap_cons, List.findSome?_cons, converter?]
    cases c.table? name with
    | none => exact ih
    | some t => rw [List.findSome?_cons, ih, Option.bind_some]

/-- Two catalogues of the same classes hand a property alike if they have the same tables for the
    classes up to the first that has a setter for it. -/
theorem receive_congr {c c' : Catalogue} (hclasses : c'.classes = c.classes) {property : String}
    {v : View} {before after : List String} {name : String} {s : Setter}
    (hchain : (c.chain v.className).2 = before ++ name :: after)
    (hfound : c.converter? name property = some s)
    (hbefore : ∀ n ∈ before, c.converter? n property = none)
    (htables : ∀ n ∈ before ++ [name], c'.table? n = c.table? n) (turn : Turn) (cursor : Cursor) :
    c'.receive property turn cursor v = c.receive property turn cursor v := by
  have hsame : c'.chain v.className = c.chain v.className := by
    rw [chain, hclasses, ← chain]
  have hconv : ∀ n ∈ before ++ [name], c'.converter? n property = c.converter? n property := by
    intro n hn
    rw [converter?, htables n hn, ← converter?]
  have hsetter : c.setter? v.className property = some s := by
    rw [setter?_eq, List.findSome?_eq_some_iff]
    exact ⟨before, name, after, hchain, hfound, hbefore⟩
  have hsetter' : c'.setter? v.className property = some s := by
    rw [setter?_eq, hsame, List.findSome?_eq_some_iff]
    refine ⟨before, name, after, hchain, ?_, fun n hn => ?_⟩
    · rw [hconv name (List.mem_append_right _ List.mem_cons_self), hfound]
    · rw [hconv n (List.mem_append_left _ hn), hbefore n hn]
  rw [receive_eq, receive_eq, hsetter, hsetter', hsame]

/-- **First ancestor wins.**  If no class along the chain of a view has a setter for a property,
    then this is the complaint, at the line of the text, and neither the view nor the cursor moves.
    Else the first class that has one handles the property as its last registration says: the view
    stays as it is unless a hook of that class is run, and then it is as that one run leaves it.
    Whatever tables other catalogues have for the classes behind it makes no difference. -/
theorem receive_first (es : List Enrolment) (property : String) (turn : Turn) (cursor : Cursor)
    (v : View) :
    let c := enrolled es
    let warnings := (c.chain v.className).1
    let names := (c.chain v.className).2
    let receipt := c.receive property turn cursor v
    ((∀ name ∈ names, c.converter? name property = none) ∧
      receipt = ⟨.error (unhandled v.className property cursor.line), v, cursor, warnings⟩) ∨
    ∃ before name after t own, names = before ++ name :: after ∧
      (∀ n ∈ before, c.converter? n property = none) ∧
      c.table? name = some t ∧ t.receive? property turn cursor v = some own ∧
      receipt = { own with events := warnings ++ own.events } ∧
      (∃ (V α : Type) (cls : ViewClass V) (kind : Kind α) (hooks : List (PartHook V α))
        (earlier later : List Enrolment),
        es = earlier ++ .newProperty cls property kind hooks :: later ∧ cls.name = name ∧
        hooks ≠ [] ∧ (∀ e ∈ later, ¬ e.Installs name property) ∧
        Handled cls kind hooks turn cursor v own) ∧
      ∀ c' : Catalogue, c'.classes = c.classes →
        (∀ n ∈ before ++ [name], c'.table? n = c.table? n) →
        c'.receive property turn cursor v = receipt := by
  intro c warnings names receipt
  have hreceipt : receipt = _ := receive_eq c property turn cursor v
  cases hs : c.setter? v.className property with
  | none =>
    rw [hs] at hreceipt
    rw [setter?_eq, List.findSome?_eq_none_iff] at hs
    exact Or.inl ⟨hs, hreceipt⟩
  | some s =>
    rw [hs] at hreceipt
    rw [setter?_eq, List.findSome?_eq_some_iff] at hs
    obtain ⟨before, name, after, hchain, hfound, hbefore⟩ := hs
    obtain ⟨t, ht, hts⟩ := Option.bind_eq_some_iff.mp hfound
    obtain ⟨V, α, cls, kind, hooks, earlier, later, hes, hname, hhooks, hlater, rfl⟩ :=
      enrolled_converter? hfound
    refine Or.inr ⟨before, name, after, t, _, hchain, hbefore, ht, ?_, hreceipt,
      ⟨V, α, cls, kind, hooks, earlier, later, hes, hname, hhooks, hlater, ?_⟩, ?_⟩
    · rw [SetterTable.receive?, hts, Option.map_some]
    · exact handled_execute cls kind hooks turn cursor v
    · intro c' hclasses htables
      exact receive_congr hclasses hchain hfound hbefore htables turn cursor

end Catalogue

end ViewSheet
