/-
  Overwriting: nothing that a source states is written over silently.

  1. **Program**: a declaration warns when a text is stored under a key that has one, and when a
     tree is installed where there is one; reading a tree warns of every name that came before.

  2. **Specification**: `Event.overwrite?` tells from the end of a warning what it says is written
     over.  `Block.stated` counts what a block states under one name, from its lines alone, and
     `Document.held` counts what there is of it in a document.

  3. **The crux** (`Balanced`): warnings and what is there in the end make up what was there and
     what is stated.  The law holds for storing one text and for installing one tree, and it adds up
     over everything that is done one after the other (`Balanced.trans`).

  4. **Result** (`parse_balanced`): all warnings of a parse are of the three kinds, and their
     numbers are what the source states less what the document holds.
-/
import Mathlib.Algebra.GroupWithZero.Nat
import Mathlib.Data.List.Dedup
import Mathlib.Data.List.Infix
import ViewSheet.Proofs.Documents
import ViewSheet.Proofs.Nesting
import ViewSheet.Proofs.Refusals

namespace ViewSheet

open Text

/-! ## What a warning says -/

/-- What can be written over. -/
inductive Overwrite where
  | property
  | hierarchy
  | node
deriving DecidableEq, Repr

/-- What an event warns of, by the end of its text: a line number stands at the end of a warning
    about a property. -/
def Event.overwrite? : Event → Option Overwrite
  | .log .warn text =>
    if "; clobbering".toList <:+ text.toList then some .node
    else if "; replacing it".toList <:+ text.toList then some .hierarchy
    else if "with value from line ".toList <:+: text.toList then some .property
    else none
  | _ => none

/-- How many events warn of a kind. -/
def told (kind : Overwrite) (events : List Event) : Nat :=
  events.countP fun e => e.overwrite? = some kind

theorem told_append (kind : Overwrite) (events more : List Event) :
    told kind (events ++ more) = told kind events + told kind more :=
  List.countP_append

/-- A text that ends in a number does not end in anything else. -/
theorem not_suffix_number {ending : List Char} {c : Char} (hlast : ending.getLast? = some c)
    (hc : c.isDigit = false) (front : List Char) (n : Nat) :
    ¬ ending <:+ front ++ (toString n).toList := by
  rintro ⟨before, h⟩
  have hdigits : (toString n).toList = Nat.toDigits 10 n := by
    rw [Nat.toString_eq_ofList_toDigits, String.toList_ofList]
  have hend := congrArg List.getLast? h
  rw [hdigits, List.getLast?_append_of_ne_nil _ Nat.toDigits_ne_nil,
    List.getLast?_append_of_ne_nil _ (by rintro rfl; cases hlast), hlast] at hend
  have hdigit := Nat.isDigit_of_mem_toDigits (by decide) (Nat.le_refl 10)
    (List.mem_of_getLast? hend.symm)
  rw [hc] at hdigit
  cases hdigit

theorem overwrite?_overriding (name key : String) (old new : Nat) :
    (Event.warning (s!"'{name}': overriding property '{key}' (line {old}) "
      ++ s!"with value from line {new}")).overwrite? = some .property := by
  have htext : (s!"'{name}': overriding property '{key}' (line {old}) "
        ++ s!"with value from line {new}").toList =
      (s!"'{name}': overriding property '{key}' (line {old}) ").toList ++
        "with value from line ".toList ++ (toString new).toList := by
    simp only [String.toList_append, List.append_assoc]
    rfl
  rw [Event.warning, Event.overwrite?, htext,
    if_neg (not_suffix_number (c := 'g') (by decide) (by decide) _ new),
    if_neg (not_suffix_number (c := 't') (by decide) (by decide) _ new), if_pos]
  exact List.infix_append _ _ _

theorem overwrite?_replacing (name : String) :
    (Event.warning s!"'{name}' already has a view hierarchy; replacing it").overwrite? =
      some .hierarchy := by
  have htext : (s!"'{name}' already has a view hierarchy; replacing it").toList =
      ("'" ++ name).toList ++ "' already has a view hierarchy; replacing it".toList := by
    simp only [String.toList_append]
    rfl
  have hending : "; replacing it".toList <:+
      "' already has a view hierarchy; replacing it".toList := by
    decide
  rw [Event.warning, Event.overwrite?, htext, if_neg,
    if_pos (hending.trans (List.suffix_append _ _))]
  rintro ⟨before, h⟩
  have hend := congrArg List.getLast? h
  rw [List.getLast?_append_of_ne_nil _ (by decide),
    List.getLast?_append_of_ne_nil _ (by decide)] at hend
  exact absurd hend (by decide)

theorem overwrite?_clobbering (name : String) (line : Nat) :
    (Event.warning (s!"view name '{name}' on line {line} already appears in this "
      ++ "hierarchy; clobbering")).overwrite? = some .node := by
  have hending : "; clobbering".toList <:+ "hierarchy; clobbering".toList := by decide
  rw [Event.warning, Event.overwrite?, String.toList_append,
    if_pos (hending.trans (List.suffix_append _ _))]

/-! ## A balance -/

/-- The warnings among events, and what is there after them, make up what was there before and what
    is stated. -/
structure Balanced (before stated after : Overwrite → Nat) (events : List Event) : Prop where
  known : ∀ e ∈ events, e.overwrite?.isSome = true
  balance : ∀ kind, told kind events + after kind = before kind + stated kind

namespace Balanced

variable {a b c more stated : Overwrite → Nat} {events later : List Event}

theorem nil (a : Overwrite → Nat) : Balanced a (fun _ => 0) a [] :=
  ⟨fun _ h => absurd h List.not_mem_nil, fun _ => Nat.zero_add _⟩

/-- What is done one after the other adds up. -/
theorem trans (h : Balanced a stated b events) (k : Balanced b more c later) :
    Balanced a (fun kind => stated kind + more kind) c (events ++ later) where
  known := by
    intro e he
    rcases List.mem_append.mp he with he | he
    · exact h.known e he
    · exact k.known e he
  balance := by
    intro kind
    have hh := h.balance kind
    have hk := k.balance kind
    rw [told_append]
    omega

end Balanced

/-! ## Declarations -/

/-- How much of a kind a declaration holds.  Its nodes are counted with the tree. -/
def Declaration.held (d : Declaration) : Overwrite → Nat
  | .property => d.properties.size
  | .hierarchy => if d.hierarchy.isSome then 1 else 0
  | .node => 0

/-- How much of a kind is stated with a body that has been read. -/
def Body.stated : Body → Overwrite → Nat
  | setters assignments, .property => assignments.length
  | hierarchy _, .hierarchy => 1
  | _, _ => 0

theorem told_single {e : Event} {kind : Overwrite} (h : e.overwrite? = some kind)
    (other : Overwrite) : told other [e] = if kind = other then 1 else 0 := by
  rw [told, List.countP_singleton, h]
  simp

namespace NameMap

/-- A sum over the values changes with a value that is inserted by that value, less the one that it
    writes over. -/
theorem sum_insert {ν : Type} (f : ν → Nat) (m : NameMap ν) (name : String) (value : ν) :
    ((m.insert name value).values.map f).sum + ((m.get? name).map f).getD 0 =
      (m.values.map f).sum + f value := by
  obtain ⟨es⟩ := m
  simp only [values, insert, get?]
  induction es with
  | nil => simp [put, find]
  | cons p rest ih =>
    obtain ⟨n, v⟩ := p
    rw [put, find]
    by_cases hn : n = name
    · simp [hn]
      omega
    · simp only [hn, if_false, List.map_cons, List.sum_cons]
      omega

theorem size_eq_sum {ν : Type} (m : NameMap ν) : m.size = (m.values.map fun _ => 1).sum := by
  simp [size, values, Function.comp_def]

theorem size_insert {ν : Type} (m : NameMap ν) (name : String) (value : ν) :
    (m.insert name value).size + (if (m.get? name).isSome then 1 else 0) = m.size + 1 := by
  have h := sum_insert (fun _ => 1) m name value
  rw [← size_eq_sum, ← size_eq_sum] at h
  rw [← h]
  cases m.get? name <;> rfl

end NameMap

namespace Declaration

/-- **Storing a text** warns exactly if the key has one. -/
theorem balanced_setProperty (d : Declaration) (key value : String) (line : Nat) :
    Balanced d.held (fun kind => if kind = .property then 1 else 0)
      (d.setProperty key value line).2.held (d.setProperty key value line).1 := by
  have hsize := d.properties.size_insert key ⟨value, line⟩
  unfold setProperty property?
  cases hold : d.properties.get? key with
  | none =>
    rw [hold] at hsize
    refine ⟨fun _ h => absurd h List.not_mem_nil, fun kind => ?_⟩
    cases kind with
    | property => exact (Nat.zero_add _).trans hsize
    | hierarchy => exact Nat.zero_add _
    | node => rfl
  | some old =>
    rw [hold] at hsize
    have hkind := overwrite?_overriding d.name key old.line line
    refine ⟨fun e he => ?_, fun kind => ?_⟩
    · rw [List.mem_singleton.mp he, hkind]
      rfl
    · rw [told_single hkind]
      cases kind with
      | property => exact (Nat.add_comm _ _).trans hsize
      | hierarchy => exact Nat.zero_add _
      | node => rfl

/-- **Installing a tree** warns exactly if there is one. -/
theorem balanced_setHierarchy (d : Declaration) (h : Hierarchy) :
    Balanced d.held (fun kind => if kind = .hierarchy then 1 else 0)
      (d.setHierarchy h).2.held (d.setHierarchy h).1 := by
  unfold setHierarchy
  have hkind := overwrite?_replacing d.name
  cases hold : d.hierarchy with
  | none =>
    refine ⟨fun _ h => absurd h List.not_mem_nil, fun kind => ?_⟩
    cases kind with
    | property => exact Nat.zero_add _
    | hierarchy => simp [told, held, hold]
    | node => rfl
  | some old =>
    refine ⟨fun e he => ?_, fun kind => ?_⟩
    · rw [List.mem_singleton.mp he, hkind]
      rfl
    · rw [told_single hkind]
      cases kind with
      | property => exact Nat.zero_add _
      | hierarchy => simp [held, hold]
      | node => rfl

end Declaration

theorem Assignment.balanced_applyAll (d : Declaration) (assignments : List Assignment) :
    Balanced d.held (Body.setters assignments).stated (applyAll d assignments).2.held
      (applyAll d assignments).1 := by
  induction assignments generalizing d with
  | nil =>
    have h := Balanced.nil d.held
    refine ⟨h.known, fun kind => ?_⟩
    cases kind <;> exact h.balance _
  | cons a rest ih =>
    have h := (d.balanced_setProperty a.key (String.ofList (trim a.value)) a.line).trans (ih _)
    refine ⟨h.known, fun kind => (h.balance kind).trans ?_⟩
    cases kind with
    | property => exact congrArg _ (Nat.add_comm _ _)
    | hierarchy => rfl
    | node => rfl

/-- What a body states in a declaration is there, or was written over with a warning. -/
theorem Body.balanced_apply (d : Declaration) (body : Body) :
    Balanced d.held body.stated (body.apply d).2.held (body.apply d).1 := by
  cases body with
  | setters assignments => exact Assignment.balanced_applyAll d assignments
  | hierarchy h =>
    have hset := d.balanced_setHierarchy h
    refine ⟨hset.known, fun kind => (hset.balance kind).trans ?_⟩
    cases kind <;> rfl

/-! ## Trees -/

/-- How many of some names came before. -/
def repetitions (names : List String) : Nat := names.length - names.dedup.length

theorem repetitions_append_single (names : List String) (name : String) :
    repetitions (names ++ [name]) = repetitions names + if name ∈ names then 1 else 0 := by
  have hle : names.dedup.length ≤ names.length := (List.dedup_sublist names).length_le
  have hlength : (names ++ [name]).dedup.length = (name :: names).dedup.length :=
    (List.perm_append_singleton name names).dedup.length_eq
  rw [repetitions, repetitions, hlength, List.length_append, List.length_singleton]
  by_cases h : name ∈ names
  · rw [List.dedup_cons_of_mem h, if_pos h]
    omega
  · rw [List.dedup_cons_of_notMem h, if_neg h, List.length_cons]
    omega

theorem Hierarchy.mentions_iff {h : Hierarchy} {name : String} :
    h.mentions name = true ↔ name ∈ h.names := by
  rw [mentions, List.any_eq_true, names, List.mem_map]
  simp only [beq_iff_eq]

/-- **Reading a tree** warns of every name that came before, and of nothing else. -/
theorem Growth.told_readAll {g : Growth} {lines : List Line} {tree : Hierarchy}
    (h : (g.readAll lines).2 = .ok tree) :
    (∀ e ∈ (g.readAll lines).1, e.overwrite? = some .node) ∧
      (g.readAll lines).1.length + repetitions g.hierarchy.names = repetitions tree.names := by
  induction lines generalizing g with
  | nil =>
    rw [readAll, Except.ok.injEq] at h
    rw [h]
    exact ⟨fun _ h => absurd h List.not_mem_nil, Nat.zero_add _⟩
  | cons l rest ih =>
    rw [readAll] at h ⊢
    dsimp only at h ⊢
    split at h
    · rename_i hempty
      rw [if_pos hempty]
      exact ih h
    · rename_i hfull
      split at h
      · cases h
      · rename_i hsingle
        rw [if_neg hfull, if_neg hsingle]
        obtain ⟨hknown, hcount⟩ := ih h
        have hnames : (g.place (String.ofList (trim l.text)) (indentOf l.text)).hierarchy.names =
            g.hierarchy.names ++ [String.ofList (trim l.text)] := List.map_append
        rw [hnames, repetitions_append_single] at hcount
        by_cases hseen : g.hierarchy.mentions (String.ofList (trim l.text)) = true
        · rw [if_pos (Hierarchy.mentions_iff.mp hseen)] at hcount
          rw [if_pos hseen]
          refine ⟨fun e he => ?_, ?_⟩
          · rcases List.mem_cons.mp he with rfl | he
            · exact overwrite?_clobbering _ _
            · exact hknown e he
          · rw [List.singleton_append, List.length_cons]
            omega
        · rw [if_neg fun hmem => hseen (Hierarchy.mentions_iff.mpr hmem)] at hcount
          rw [if_neg hseen]
          exact ⟨hknown, hcount⟩

/-! ## Bodies, from their lines -/

/-- The name on a line of a tree. -/
def lineName (l : Line) : String := String.ofList (trim l.text)

/-- How much of a kind some lines state: setters, if the first line starts with a point, and
    otherwise a tree, with so many names that came before. -/
def statedBy (statements : List Line) : Overwrite → Nat
  | .property => if statements.head?.any Assignment.opens then
      statements.countP Assignment.opens else 0
  | .hierarchy => if statements.head?.any Assignment.opens then 0 else 1
  | .node => if statements.head?.any Assignment.opens then 0
      else repetitions (statements.map lineName)

/-- A statement opens where a line starts with a point. -/
theorem Assignment.length_readAll {pending : Option Assignment} {lines : List Line}
    {assignments : List Assignment} (h : readAll pending lines = .ok assignments) :
    assignments.length = pending.toList.length + lines.countP opens := by
  induction lines generalizing pending assignments with
  | nil =>
    rw [readAll, Except.ok.injEq] at h
    rw [← h]
    rfl
  | cons l rest ih =>
    unfold readAll at h
    rw [List.countP_cons]
    split at h
    · rename_i hopens
      rw [if_pos hopens]
      split at h
      · cases h
      · rename_i a _
        cases hmore : readAll (some a) rest with
        | error e =>
          rw [hmore] at h
          cases h
        | ok more =>
          rw [hmore, Except.map, Except.ok.injEq] at h
          rw [← h, List.length_append, ih hmore, Option.toList_some, List.length_singleton]
          omega
    · rename_i hgoes
      rw [if_neg hgoes]
      cases pending with
      | none => cases h
      | some a =>
        have hrest := ih h
        exact hrest

theorem Body.read_eq (statements : List Line) :
    Body.read statements = if statements.head?.any Assignment.opens then
        ([], (Assignment.readAll none statements).map .setters)
      else ((Growth.start.readAll statements).1,
        (Growth.start.readAll statements).2.map .hierarchy) := by
  cases statements <;> rfl

/-- Warnings of nodes alone change nothing that is there. -/
theorem Balanced.of_nodes {events : List Event} (h : ∀ e ∈ events, e.overwrite? = some .node)
    (a : Overwrite → Nat) :
    Balanced a (fun kind => if kind = .node then events.length else 0) a events where
  known := fun e he => by
    rw [h e he]
    rfl
  balance := by
    intro kind
    rw [Nat.add_comm]
    refine congrArg _ ?_
    by_cases hkind : kind = .node
    · rw [if_pos hkind, told, List.countP_eq_length]
      intro e he
      rw [h e he, hkind, decide_eq_true_eq]
    · rw [if_neg hkind, told, List.countP_eq_zero]
      intro e he heq
      rw [h e he, decide_eq_true_eq, Option.some.injEq] at heq
      exact hkind heq.symm

/-- **A body that is read and applied** states what its lines say. -/
theorem Body.balanced_read {statements : List Line} {events : List Event} {body : Body}
    (hfull : ∀ l ∈ statements, l.isEmpty = false) (h : Body.read statements = (events, .ok body))
    (d : Declaration) :
    Balanced d.held (statedBy statements) (body.apply d).2.held (events ++ (body.apply d).1) := by
  have happly := body.balanced_apply d
  rw [read_eq] at h
  split at h
  · rename_i hopens
    rw [Prod.mk.injEq] at h
    obtain ⟨rfl, h⟩ := h
    cases hread : Assignment.readAll none statements with
    | error e =>
      rw [hread] at h
      cases h
    | ok assignments =>
      rw [hread, Except.map, Except.ok.injEq] at h
      have hlength := Assignment.length_readAll hread
      refine ⟨happly.known, fun kind => (happly.balance kind).trans (congrArg _ ?_)⟩
      rw [← h]
      cases kind with
      | property =>
        rw [statedBy, if_pos hopens]
        exact hlength.trans (Nat.zero_add _)
      | hierarchy => exact (if_pos hopens).symm
      | node => exact (if_pos hopens).symm
  · rename_i htree
    rw [Prod.mk.injEq] at h
    obtain ⟨rfl, h⟩ := h
    cases hread : (Growth.start.readAll statements).2 with
    | error e =>
      rw [hread] at h
      cases h
    | ok tree =>
      rw [hread, Except.map, Except.ok.injEq] at h
      obtain ⟨hknown, hcount⟩ := Growth.told_readAll hread
      have hnames : tree.names = statements.map lineName := by
        have hnodes := congrArg (List.map Prod.fst) (Growth.nodes_of_readAll hread)
        rw [List.map_map, List.map_map, List.filter_eq_self.mpr] at hnodes
        · exact hnodes
        · intro l hl
          rw [hfull l hl]
          rfl
      have hall := (Balanced.of_nodes hknown d.held).trans happly
      refine ⟨hall.known, fun kind => (hall.balance kind).trans (congrArg _ ?_)⟩
      rw [← h]
      cases kind with
      | property => exact (if_neg htree).symm
      | hierarchy => exact (if_neg htree).symm
      | node =>
        rw [statedBy, if_neg htree, ← hnames, ← hcount]
        rfl

/-! ## Documents -/

/-- How much of a kind a document holds. -/
def Document.held (doc : Document) (kind : Overwrite) : Nat :=
  (doc.declarations.values.map fun d => d.held kind).sum

/-- What is balanced for one declaration is balanced for the document that it is in. -/
theorem Document.balanced_amend {doc : Document} {name : String}
    {change : Declaration → List Event × Declaration} {stated : Overwrite → Nat}
    {reading : List Event}
    (h : Balanced (doc.getD name).held stated (change (doc.getD name)).2.held
      (reading ++ (change (doc.getD name)).1)) :
    Balanced doc.held stated (doc.amend name change).2.held
      (reading ++ (doc.amend name change).1) where
  known := h.known
  balance := by
    intro kind
    have hbalance := h.balance kind
    have hsum := NameMap.sum_insert (fun d => d.held kind) doc.declarations name
      (change (doc.getD name)).2
    -- a declaration that is not there yet holds nothing
    have hold : ((doc.declarations.get? name).map fun d => d.held kind).getD 0 =
        (doc.getD name).held kind := by
      unfold getD get?
      cases doc.declarations.get? name with
      | some d => rfl
      | none => cases kind <;> rfl
    rw [hold] at hsum
    unfold amend held
    dsimp only
    omega

namespace Block

/-- How many names the header lists. -/
def width (b : Block) : Nat := (pieces ',' b.header.text.dropLast).length

/-- How much of a kind a block states: what its lines state, once for each name. -/
def stated (b : Block) (kind : Overwrite) : Nat :=
  if b.statements.isEmpty then 0 else b.width * statedBy b.statements kind

theorem balanced_stateAll {reading : List Event} {body : Body} {stated : Overwrite → Nat}
    (h : ∀ d : Declaration, Balanced d.held stated (body.apply d).2.held
      (reading ++ (body.apply d).1)) (doc : Document) (names : List String) :
    Balanced doc.held (fun kind => names.length * stated kind)
      (stateAll reading body doc names).2.held (stateAll reading body doc names).1 := by
  induction names generalizing doc with
  | nil =>
    have hnil := Balanced.nil doc.held
    exact ⟨hnil.known, fun kind => (hnil.balance kind).trans (by simp)⟩
  | cons name rest ih =>
    have hfirst : Balanced doc.held stated (doc.amend name body.apply).2.held
        (reading ++ (doc.amend name body.apply).1) :=
      Document.balanced_amend (h (doc.getD name))
    have hall := hfirst.trans (ih _)
    refine ⟨hall.known, fun kind => (hall.balance kind).trans (congrArg _ ?_)⟩
    rw [List.length_cons, Nat.succ_mul, Nat.add_comm]

/-- **A block that is stated** is accounted for. -/
theorem balanced_apply {b : Block} {doc doc' : Document} {events : List Event}
    (h : b.apply doc = (events, .ok doc')) : Balanced doc.held b.stated doc'.held events := by
  unfold apply at h
  split at h
  · cases h
  · rename_i names hnames
    split at h
    · rename_i hempty
      rw [Prod.mk.injEq, Except.ok.injEq] at h
      obtain ⟨rfl, rfl⟩ := h
      have hnil := Balanced.nil doc.held
      refine ⟨hnil.known, fun kind => (hnil.balance kind).trans (congrArg _ ?_)⟩
      rw [stated, if_pos hempty]
    · rename_i hfilled
      split at h
      · cases h
      · rename_i reading body hread
        rw [Prod.mk.injEq, Except.ok.injEq] at h
        obtain ⟨rfl, rfl⟩ := h
        have hwidth : names.length = b.width := by
          unfold Block.names at hnames
          dsimp only at hnames
          split at hnames
          · cases hnames
          · rw [Except.ok.injEq] at hnames
            rw [← hnames, List.length_map, List.length_map, width]
        have hlines : ∀ l ∈ b.statements, l.isEmpty = false := by
          intro l hl
          have hkept := List.of_mem_filter hl
          rwa [Bool.not_eq_true'] at hkept
        have hall := balanced_stateAll (Body.balanced_read hlines hread) doc names
        refine ⟨hall.known, fun kind => (hall.balance kind).trans (congrArg _ ?_)⟩
        rw [stated, if_neg hfilled, hwidth]

end Block

/-- How much of a kind some blocks state. -/
def statedAll (blocks : List Block) (kind : Overwrite) : Nat :=
  (blocks.map fun b => b.stated kind).sum

theorem balanced_applyBlocks {doc : Document} {blocks : List Block}
    (h : (applyBlocks doc blocks).failure = none) :
    Balanced doc.held (statedAll blocks) (applyBlocks doc blocks).document.held
      (applyBlocks doc blocks).events := by
  induction blocks generalizing doc with
  | nil => exact .nil doc.held
  | cons b rest ih =>
    unfold applyBlocks at h ⊢
    split at h
    · cases h
    · rename_i events doc' happly
      exact (Block.balanced_apply happly).trans (ih h)

/-! ## Sources -/

/-- The blocks of a source. -/
def blocksOf (source : String) : List Block := (Block.split (sourceLines source.toList)).2

/-- A parse that succeeds has stated all blocks. -/
theorem applyBlocks_of_parse {source identifier : String} {events : List Event} {doc : Document}
    (h : parse source identifier = (events, .ok doc)) :
    applyBlocks (.empty identifier) (blocksOf source) = ⟨doc, none, events⟩ := by
  unfold parse at h
  dsimp only at h
  rw [parseInto_eq, parseLines] at h
  cases hlead : leadRefusal? (Block.split (sourceLines source.toList)).1 with
  | some e =>
    rw [hlead] at h
    cases h
  | none =>
    rw [hlead] at h
    dsimp only at h
    rw [blocksOf]
    rcases happly : applyBlocks (.empty identifier) (Block.split (sourceLines source.toList)).2 with
      ⟨document, _ | e, more⟩
    · rw [happly, Prod.mk.injEq, Except.ok.injEq] at h
      obtain ⟨rfl, rfl⟩ := h
      rfl
    · rw [happly] at h
      cases h

theorem Document.length_hierarchyNames (doc : Document) :
    doc.hierarchyNames.length = doc.held .hierarchy := by
  rw [hierarchyNames, List.length_map, held]
  induction doc.declarations.values with
  | nil => rfl
  | cons d rest ih =>
    rw [List.filter_cons, List.map_cons, List.sum_cons, ← ih, Declaration.held]
    cases d.hierarchy with
    | none => exact (Nat.zero_add _).symm
    | some h => exact Nat.add_comm _ 1

/-- **Nothing is written over silently.**  All that a parse tells are warnings about something that
    is written over.  The properties of the document and the warnings about properties are the
    setters that were applied, each once for each name of its header; the declarations that own a
    tree and the warnings about trees are the trees that were applied; and of the names in these
    trees, all that came before were warned about. -/
theorem parse_balanced {source identifier : String} {events : List Event} {doc : Document}
    (h : parse source identifier = (events, .ok doc)) :
    (∀ e ∈ events, e.overwrite?.isSome = true) ∧
      told .property events + (doc.declarations.values.map (·.properties.size)).sum =
        statedAll (blocksOf source) .property ∧
      told .hierarchy events + doc.hierarchyNames.length =
        statedAll (blocksOf source) .hierarchy ∧
      told .node events = statedAll (blocksOf source) .node := by
  have happly := applyBlocks_of_parse h
  have hall := balanced_applyBlocks (congrArg Parsed.failure happly)
  rw [happly] at hall
  -- at first there is nothing
  have hempty : ∀ kind, (Document.empty identifier).held kind = 0 := fun _ => rfl
  have hbalance : ∀ kind, told kind events + doc.held kind = statedAll (blocksOf source) kind := by
    intro kind
    rw [hall.balance kind, hempty, Nat.zero_add]
  have hnodes : doc.held .node = 0 := by
    show (doc.declarations.values.map fun _ => 0).sum = 0
    rw [List.map_const', List.sum_replicate_nat, Nat.mul_zero]
  refine ⟨hall.known, hbalance .property, ?_, ?_⟩
  · rw [doc.length_hierarchyNames]
    exact hbalance .hierarchy
  · rw [← hbalance .node, hnodes, Nat.add_zero]

/-! ## A sheet that writes over a lot -/

/-- A name twice in one header, a key twice in one body, a declaration in both shapes, and a name
    three times in one tree. -/
def palimpsest : String := "A, A:\n .x = 1\n  more\n .x = 2\nB, A:\n P\n  P\n P\nA:\n Q\n"

theorem palimpsest_computed : (parse palimpsest "sheet").2.isOk = true ∧
    (told .property (parse palimpsest "sheet").1, told .hierarchy (parse palimpsest "sheet").1) =
      (3, 1) ∧
    (statedAll (blocksOf palimpsest) .property, statedAll (blocksOf palimpsest) .hierarchy,
      statedAll (blocksOf palimpsest) .node) = (4, 3, 4) := by
  decide +kernel

/-- Four setters are applied and one property is left, three trees are applied and two are left, and
    four names are warned about. -/
theorem parse_balanced_palimpsest : ∃ doc,
    parse palimpsest "sheet" = ((parse palimpsest "sheet").1, .ok doc) ∧
      (doc.declarations.values.map (·.properties.size)).sum = 1 ∧
      doc.hierarchyNames.length = 2 ∧ told .node (parse palimpsest "sheet").1 = 4 := by
  obtain ⟨hok, htold, hstated⟩ := palimpsest_computed
  rw [Prod.mk.injEq] at htold
  rw [Prod.mk.injEq, Prod.mk.injEq] at hstated
  cases hdoc : (parse palimpsest "sheet").2 with
  | error e =>
    rw [hdoc] at hok
    cases hok
  | ok doc =>
    have hparse : parse palimpsest "sheet" = ((parse palimpsest "sheet").1, .ok doc) := by
      rw [← hdoc]
    obtain ⟨-, hproperties, htrees, hnodes⟩ := parse_balanced hparse
    rw [htold.1, hstated.1] at hproperties
    rw [htold.2, hstated.2.1] at htrees
    rw [hstated.2.2] at hnodes
    exact ⟨doc, hparse, Nat.add_left_cancel hproperties, Nat.add_left_cancel htrees, hnodes⟩

end ViewSheet
