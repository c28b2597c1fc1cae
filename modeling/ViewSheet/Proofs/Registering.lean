/-
  Registering: what is left of many registrations of setters, for the same classes and properties.

  1. **Program**: a registration is a chain of calls, one for every hook.  The first call puts a
     new setter into the table, in the place of one that was there, and the later calls add to that
     one.  A chain without calls only makes sure of the table.

  2. **Specification**: `Builder` is the chain call by call.  `RegisterChain` is a whole chain, and
     `registered` runs one chain after the other.

  3. **The crux** (`Builder.calls_started`): once a setter has been put in, a further call leaves
     what the same hooks would make of a setter that has not been put in yet.  So a whole chain
     comes to one insertion, and nothing of an earlier setter gets into it.

  4. **Result** (`converters_registered`): a setter is that of the last chain with a hook, with the
     last hook of either turn; a property stays where it was first put, and a chain without hooks
     is of no account.
-/
import ViewSheet.Proofs.Receiving

namespace ViewSheet

/-! ## One chain, call by call -/

/-- A registration that is under way: the table it works on, and whether its setter is in there. -/
structure Builder where
  table : SetterTable
  property : String
  scan : Scan Value
  inserted : Bool

namespace Builder

/-- A registration without a call so far. -/
def start (table : SetterTable) (property : String) (scan : Scan Value) : Builder :=
  ⟨table, property, scan, false⟩

/-- The setter that a call works on: the one that an earlier call has put in, or else a new one,
    whatever the table has. -/
def slot (b : Builder) : Setter :=
  match b.table.setters.get? b.property with
  | some setter => if b.inserted then setter else .ofScan b.scan
  | none => .ofScan b.scan

/-- One call: the setter gets the hook, and is in the table from then on. -/
def call (b : Builder) (hook : Hook) : Builder :=
  { b with
    table := { b.table with
      setters := b.table.setters.insert b.property (b.slot.withHook hook) }
    inserted := true }

variable (t : SetterTable) (property : String) (scan : Scan Value)

/-- The first call takes a new setter, also where the table has one. -/
theorem slot_start : (start t property scan).slot = .ofScan scan := by
  unfold slot
  split <;> rfl

/-- Calls that come after the first add to the setter that is in the table. -/
theorem calls_started (setter : Setter) (hooks : List Hook) :
    (hooks.foldl call
        ⟨{ t with setters := t.setters.insert property setter }, property, scan, true⟩).table =
      { t with setters := t.setters.insert property (hooks.foldl Setter.withHook setter) } := by
  induction hooks generalizing setter with
  | nil => rfl
  | cons hook rest ih =>
    rw [List.foldl_cons, List.foldl_cons, ← ih, call, slot, NameMap.get?_insert_self]
    dsimp only
    rw [if_pos rfl, NameMap.insert_insert]

/-- A chain of calls comes to one insertion, or to nothing if there is no call. -/
theorem table_calls (hooks : List Hook) :
    (hooks.foldl call (start t property scan)).table = t.register property scan hooks := by
  cases hooks with
  | nil => rfl
  | cons hook rest =>
    rw [List.foldl_cons, call, slot_start]
    exact calls_started t property scan _ rest

end Builder

namespace Hook

/-- The hook, if it is for the construction. -/
def construction? : Hook → Option ConstructionHook
  | construction hook => some hook
  | attached _ => none

/-- The hook, if it is for the turn in which the tree stands. -/
def attached? : Hook → Option AttachedHook
  | construction _ => none
  | attached hook => some hook

end Hook

/-- The setter that hooks make of a scan: of several hooks for one turn it has the last. -/
def Setter.ofHooks (scan : Scan Value) (hooks : List Hook) : Setter :=
  ⟨scan, hooks.reverse.findSome? Hook.construction?, hooks.reverse.findSome? Hook.attached?⟩

theorem foldl_withHook (scan : Scan Value) (hooks : List Hook) :
    hooks.foldl Setter.withHook (.ofScan scan) = .ofHooks scan hooks := by
  induction hooks using List.reverseRecOn with
  | nil => rfl
  | append_singleton hooks hook ih =>
    rw [List.foldl_append, List.foldl_cons, List.foldl_nil, ih, Setter.ofHooks, Setter.ofHooks,
      List.reverse_append, List.reverse_singleton, List.singleton_append, List.findSome?_cons,
      List.findSome?_cons]
    cases hook with
    | construction hook => rfl
    | attached hook => rfl

/-! ## Chains in sequence -/

/-- A registration of a class, with the hooks of its calls from left to right. -/
structure RegisterChain extends Registration where
  className : String

namespace RegisterChain

/-- The chain puts a setter of this property into the table of this class. -/
def Installs (className property : String) (chain : RegisterChain) : Prop :=
  chain.className = className ∧ chain.property = property ∧ chain.hooks ≠ []

instance (className property : String) : DecidablePred (Installs className property) :=
  fun chain => inferInstanceAs
    (Decidable (chain.className = className ∧ chain.property = property ∧ chain.hooks ≠ []))

/-- The catalogue after the calls of a chain, made on the table of its class. -/
def run (c : Catalogue) (chain : RegisterChain) : Catalogue :=
  let builder := Builder.start (c.tableD chain.className) chain.property chain.scan
  { c with
    tables := c.tables.insert chain.className (chain.hooks.foldl Builder.call builder).table }

theorem run_eq (c : Catalogue) (chain : RegisterChain) :
    chain.run c = c.register chain.className chain.property chain.scan chain.hooks := by
  rw [run, Builder.table_calls, Catalogue.register]

/-- The setter that the chain makes. -/
def setter (chain : RegisterChain) : Setter := .ofHooks chain.scan chain.hooks

theorem converter?_run (c : Catalogue) (chain : RegisterChain) (className property : String) :
    (chain.run c).converter? className property =
      if chain.Installs className property then some chain.setter
      else c.converter? className property := by
  rw [run_eq, Catalogue.converter?_register, foldl_withHook]
  rfl

end RegisterChain

namespace Catalogue

/-- The catalogue after chains, from left to right. -/
def registered (c : Catalogue) (chains : List RegisterChain) : Catalogue :=
  chains.foldl (fun c chain => chain.run c) c

/-- The properties for which a class has a setter, in the order of its table. -/
def installed (c : Catalogue) (className : String) : List String :=
  (c.tableD className).setters.keys

theorem registered_concat (c : Catalogue) (chains : List RegisterChain) (chain : RegisterChain) :
    c.registered (chains ++ [chain]) = chain.run (c.registered chains) := by
  rw [registered, List.foldl_append]
  rfl

/-- **The last chain counts.**  A setter is that of the last chain that puts one in. -/
theorem converter?_registered (c : Catalogue) (chains : List RegisterChain)
    (className property : String) :
    (c.registered chains).converter? className property =
      match (chains.filter (RegisterChain.Installs className property ·)).getLast? with
      | some last => some last.setter
      | none => c.converter? className property := by
  induction chains using List.reverseRecOn with
  | nil => rfl
  | append_singleton chains chain ih =>
    rw [registered_concat, RegisterChain.converter?_run, ih, List.filter_append]
    by_cases h : chain.Installs className property
    · rw [if_pos h, List.filter_cons_of_pos (by simpa using h), List.filter_nil,
        List.getLast?_concat]
    · rw [if_neg h, List.filter_cons_of_neg (by simpa using h), List.filter_nil, List.append_nil]

theorem installed_run (c : Catalogue) (chain : RegisterChain) (className : String) :
    (chain.run c).installed className =
      if chain.Installs className chain.property then
        insertNew (c.installed className) chain.property
      else c.installed className := by
  rw [RegisterChain.run_eq, installed, installed, register, tableD, table?, NameMap.get?_insert]
  by_cases hname : chain.className = className
  · rw [if_pos hname.symm, Option.getD_some, hname]
    by_cases hhooks : chain.hooks = []
    · rw [if_neg fun h => h.2.2 hhooks, hhooks]
      rfl
    · rw [if_pos ⟨hname, rfl, hhooks⟩, SetterTable.register,
        if_neg fun h => hhooks (List.isEmpty_iff.mp h)]
      exact NameMap.keys_insert _ _ _
  · rw [if_neg (Ne.symm hname), if_neg fun h => hname h.1]
    rfl

/-- A property is put at the end when it first gets a setter, and stays there. -/
theorem installed_registered (c : Catalogue) (chains : List RegisterChain) (className : String) :
    (c.registered chains).installed className =
      ((chains.filter fun chain => chain.Installs className chain.property).map
        (·.property)).foldl insertNew (c.installed className) := by
  induction chains using List.reverseRecOn with
  | nil => rfl
  | append_singleton chains chain ih =>
    rw [registered_concat, installed_run, ih, List.filter_append, List.map_append,
      List.foldl_append]
    by_cases h : chain.Installs className chain.property
    · rw [if_pos h, List.filter_cons_of_pos (by simpa using h)]
      rfl
    · rw [if_neg h, List.filter_cons_of_neg (by simpa using h)]
      rfl

/-- **The last chain with a hook counts, as a whole.**  After any chains a class has a setter for a
    property if and only if there has been a chain with a hook for it, or there was one before the
    chains.  It has the scan of the last such chain, and for each turn the last hook of that chain
    for the turn, if the chain has one.  A property stays where it was first put.  Without the
    chains that have no hook, all setters are the same, and in the same order. -/
theorem converters_registered (c : Catalogue) (chains : List RegisterChain) (className : String) :
    (∀ property, (c.registered chains).converter? className property =
      match (chains.filter (RegisterChain.Installs className property ·)).getLast? with
      | some last => some {
          scan := last.scan
          atConstruction := last.hooks.reverse.findSome? Hook.construction?
          whenAttached := last.hooks.reverse.findSome? Hook.attached? }
      | none => c.converter? className property) ∧
    (∀ property, ((c.registered chains).converter? className property).isSome = true ↔
      (∃ chain ∈ chains, chain.className = className ∧ chain.property = property ∧
        chain.hooks ≠ []) ∨ (c.converter? className property).isSome = true) ∧
    (∀ property, empty.converter? className property = none) ∧
    c.installed className <+: (c.registered chains).installed className ∧
    (c.registered chains).installed className =
      ((chains.filter fun chain => chain.Installs className chain.property).map
        (·.property)).foldl insertNew (c.installed className) ∧
    let effective := chains.filter fun chain => chain.hooks ≠ []
    (c.registered chains).installed className = (c.registered effective).installed className ∧
    ∀ property, (c.registered chains).converter? className property =
      (c.registered effective).converter? className property := by
  have heffective : ∀ property : RegisterChain → String,
      (chains.filter fun chain => chain.hooks ≠ []).filter
          (fun chain => chain.Installs className (property chain)) =
        chains.filter fun chain => chain.Installs className (property chain) := by
    intro property
    rw [List.filter_filter]
    refine List.filter_congr fun chain _ => ?_
    rw [← Bool.decide_and, decide_eq_decide]
    exact and_iff_left_of_imp fun h => h.2.2
  refine ⟨c.converter?_registered chains className, fun property => ?_, fun _ => rfl, ?_,
    c.installed_registered chains className, ?_, fun property => ?_⟩
  · rw [converter?_registered]
    cases hlast : (chains.filter (RegisterChain.Installs className property ·)).getLast? with
    | none =>
      rw [List.getLast?_eq_none_iff, List.filter_eq_nil_iff] at hlast
      refine (or_iff_right ?_).symm
      rintro ⟨chain, hchain, hinstalls⟩
      exact hlast chain hchain (decide_eq_true hinstalls)
    | some last =>
      obtain ⟨hmem, hinstalls⟩ := List.mem_filter.mp (List.mem_of_getLast? hlast)
      exact iff_of_true rfl (Or.inl ⟨last, hmem, of_decide_eq_true hinstalls⟩)
  · rw [installed_registered, foldl_insertNew]
    exact List.prefix_append _ _
  · rw [installed_registered, installed_registered, heffective]
  · rw [converter?_registered, converter?_registered, heffective fun _ => property]

end Catalogue

end ViewSheet
