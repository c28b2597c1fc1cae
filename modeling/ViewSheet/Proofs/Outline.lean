/-
  Outlines: printing a tree that was read, and reading it again.

  1. **Program**: `Hierarchy.outline` walks through a tree and writes its names, one a line, two
     spaces deeper for each link.

  2. **Sources**: a tree in a document was read from a block of the source (`Planted`).  So links do
     not cross in it, and its names are such as can stand on a line of their own (`Printable`).

  3. **The crux** (`Printable.same_links`): a node hangs from the last node before it that is less
     deep, and from the last before it that was indented less.  Depth and indent need not agree
     anywhere else.

  4. **Result** (`parse_outline`): what is printed under a header is read as the same tree.
-/
import ViewSheet.Proofs.Preorder
import ViewSheet.Proofs.Writing

namespace ViewSheet

open Text Grammar

/-! ## Where trees come from -/

/-- A tree was read from a block that lists the name. -/
def ReadFrom (blocks : List Block) (name : String) (tree : Hierarchy) : Prop :=
  ∃ b ∈ blocks, ∃ names, b.names = .ok names ∧ name ∈ names ∧ b.statements ≠ [] ∧
    (Body.read b.statements).2 = .ok (.hierarchy tree)

/-- All trees of a document were read from blocks. -/
def Planted (blocks : List Block) (doc : Document) : Prop :=
  ∀ name d tree, doc.get? name = some d → d.hierarchy = some tree → ReadFrom blocks name tree

theorem Assignment.hierarchy_applyAll (d : Declaration) (assignments : List Assignment) :
    (applyAll d assignments).2.hierarchy = d.hierarchy := by
  induction assignments generalizing d with
  | nil => rfl
  | cons a rest ih => exact ih (a.apply d).2

namespace Planted

variable {blocks : List Block} {doc : Document}

theorem empty (blocks : List Block) (identifier : String) : Planted blocks (.empty identifier) := by
  intro name d tree hd
  cases hd

/-- A declaration keeps its tree, or has the one that the body states. -/
theorem amend (h : Planted blocks doc) {name : String} {body : Body}
    (hbody : ∀ tree, body = .hierarchy tree → ReadFrom blocks name tree) :
    Planted blocks (doc.amend name body.apply).2 := by
  intro other d tree hd htree
  by_cases ho : other = name
  · rw [ho] at hd ⊢
    rw [Document.get?_amend_self, Option.some.injEq] at hd
    rw [← hd] at htree
    cases body with
    | hierarchy stated =>
      rw [Body.apply, Declaration.setHierarchy, Option.some.injEq] at htree
      exact hbody tree (congrArg Body.hierarchy htree)
    | setters assignments =>
      rw [Body.apply, Assignment.hierarchy_applyAll, Document.getD] at htree
      cases hold : doc.get? name with
      | none =>
        rw [hold] at htree
        cases htree
      | some old =>
        rw [hold] at htree
        exact h name old tree hold htree
  · rw [Document.get?_amend_of_ne doc body.apply ho] at hd
    exact h other d tree hd htree

theorem stateAll (h : Planted blocks doc) (reading : List Event) {body : Body}
    {names : List String}
    (hbody : ∀ name ∈ names, ∀ tree, body = .hierarchy tree → ReadFrom blocks name tree) :
    Planted blocks (Block.stateAll reading body doc names).2 := by
  induction names generalizing doc with
  | nil => exact h
  | cons name rest ih =>
    exact ih (h.amend (hbody name List.mem_cons_self))
      fun other hother => hbody other (List.mem_cons_of_mem name hother)

theorem apply (h : Planted blocks doc) {b : Block} (hb : b ∈ blocks) {events : List Event}
    {doc' : Document} (happly : b.apply doc = (events, .ok doc')) : Planted blocks doc' := by
  rw [Block.apply] at happly
  split at happly
  · cases happly
  · rename_i names hnames
    split at happly
    · cases happly
      exact h
    · rename_i hfull
      split at happly
      · cases happly
      · rename_i body hread
        cases happly
        refine h.stateAll _ fun name hname tree htree => ?_
        exact ⟨b, hb, names, hnames, hname, by simpa using hfull, by rw [hread, htree]⟩

theorem applyBlocks (h : Planted blocks doc) {rest : List Block} (hrest : ∀ b ∈ rest, b ∈ blocks) :
    Planted blocks (ViewSheet.applyBlocks doc rest).document := by
  induction rest generalizing doc with
  | nil => exact h
  | cons b rest ih =>
    rw [ViewSheet.applyBlocks]
    split
    · exact h
    · rename_i happly
      exact ih (h.apply (hrest b List.mem_cons_self) happly)
        fun c hc => hrest c (List.mem_cons_of_mem b hc)

end Planted

/-- The trees of a parsed document were read from the blocks of its source. -/
theorem planted_of_parse {source identifier : String} {doc : Document}
    (h : (parse source identifier).2 = .ok doc) :
    Planted (Block.split (sourceLines source.toList)).2 doc := by
  rw [parse_eq] at h
  split at h
  · cases h
  · rw [Except.ok.injEq] at h
    rw [← h, parseInto_eq, parseLines]
    split
    · exact .empty _ identifier
    · exact (Planted.empty _ identifier).applyBlocks fun b hb => hb

/-! ## Names of views -/

/-- A name that stands on a line of its own: no blank, no comment, no colon behind it. -/
structure IsViewName (name : List Char) : Prop where
  full : name ≠ []
  solid : ∀ c ∈ name, isBlank c = false
  uncommented : ¬ commentMark <:+: name
  plain : ¬ Header name

theorem exists_codeOf_of_mem {source : List Char} {l : Line} (h : l ∈ sourceLines source) :
    ∃ raw, l.text = codeOf raw := by
  obtain ⟨raw, -, hraw⟩ := List.mem_map.mp (text_mem_of_mem_numbered h)
  exact ⟨raw, hraw.symm⟩

/-- What a line of a tree has on it is a name. -/
theorem isViewName_of_line {source : List Char} {l : Line} (hl : l ∈ sourceLines source)
    (hplain : isHeader l = false) (hfull : l.isEmpty = false)
    (hfit : Growth.refusal? l = none) : IsViewName (trim l.text) := by
  obtain ⟨raw, hraw⟩ := exists_codeOf_of_mem hl
  have hend : trimEnd l.text = l.text := by rw [hraw, codeOf, trimEnd_trimEnd]
  refine ⟨fun hnil => ?_, fun c hc => ?_, fun hmark => ?_, fun hheader => ?_⟩
  · rw [trim_eq_nil, ← Blank, ← Grammar.isEmpty_iff, hfull] at hnil
    cases hnil
  · by_contra hblank
    have hspaced : Spaced l.text := ⟨c, hc, by simpa using hblank⟩
    rw [growth_refusal?_iff.mpr ⟨hspaced, rfl⟩] at hfit
    cases hfit
  · have hbefore : trimEnd (before commentMark raw) <:+: before commentMark raw := by
      obtain ⟨blanks, hsplit, -⟩ := trimEnd_append_blanks (before commentMark raw)
      exact ⟨[], blanks, hsplit.symm⟩
    have hline := hmark.trans (isInfix_trim l.text)
    rw [hraw, codeOf] at hline
    exact not_infix_before (by decide) raw (hline.trans hbefore)
  · rw [header_trim, hend, ← isHeader_iff, hplain] at hheader
    cases hheader

/-! ## Trees that can be printed -/

/-- Reading a body as a tree. -/
theorem Body.read_eq_hierarchy {first : Line} {rest : List Line} {tree : Hierarchy} :
    (Body.read (first :: rest)).2 = .ok (.hierarchy tree) ↔
      Assignment.opens first = false ∧ (Growth.start.readAll (first :: rest)).2 = .ok tree := by
  rw [Body.read_cons]
  cases Assignment.opens first with
  | true =>
    rw [if_pos rfl]
    cases Assignment.readAll none (first :: rest) <;> simp [Except.map]
  | false =>
    rw [if_neg Bool.false_ne_true]
    cases (Growth.start.readAll (first :: rest)).2 <;> simp [Except.map]

namespace Hierarchy

/-- A tree that an outline writes in full: no links cross, and names can stand where the outline
    puts them. -/
structure Printable (h : Hierarchy) : Prop where
  uncrossed : h.Uncrossed
  full : h.nodes ≠ []
  named : ∀ name ∈ h.names, IsViewName name.toList
  first : ∀ name, h.names.head? = some name → name.toList.head? ≠ some '.'

end Hierarchy

/-- What is read from a block of a source can be printed. -/
theorem printable_of_read {source : List Char} {b : Block}
    (hb : b ∈ (Block.split (sourceLines source)).2) (hfull : b.statements ≠ []) {tree : Hierarchy}
    (hread : (Body.read b.statements).2 = .ok (.hierarchy tree)) :
    tree.names = b.statements.map (fun l => String.ofList (trim l.text)) ∧ tree.Printable := by
  obtain ⟨first, rest, hlines⟩ := List.exists_cons_of_ne_nil hfull
  rw [hlines, Body.read_eq_hierarchy, ← hlines] at hread
  obtain ⟨hopens, hread⟩ := hread
  have hnodes := Growth.nodes_of_readAll hread
  have hfilled : b.statements.filter (!·.isEmpty) = b.statements := by
    rw [Block.statements, List.filter_filter]
    simp only [Bool.and_self]
  rw [hfilled] at hnodes
  have hnames : tree.names = b.statements.map fun l => String.ofList (trim l.text) := by
    have h := congrArg (List.map Prod.fst) hnodes
    rw [List.map_map, List.map_map] at h
    exact h
  have hfit : ∀ l ∈ b.statements, Growth.refusal? l = none := by
    rw [← List.findSome?_eq_none_iff, ← Growth.errorOf?_readAll .start, hread]
    rfl
  refine ⟨hnames, (Growth.nested_of_readAll hread).uncrossed, ?_, ?_, ?_⟩
  · intro hnil
    rw [Hierarchy.names, hnil, hlines] at hnames
    cases hnames
  · intro name hname
    rw [hnames, List.mem_map] at hname
    obtain ⟨l, hl, rfl⟩ := hname
    rw [String.toList_ofList]
    obtain ⟨hbody, hempty⟩ := List.mem_filter.mp hl
    have hmem : l ∈ sourceLines source := by
      rw [← Block.flatten_split (sourceLines source)]
      exact List.mem_append_right _
        (List.mem_flatMap.mpr ⟨b, hb, List.mem_cons_of_mem _ hbody⟩)
    exact isViewName_of_line hmem (Block.not_isHeader_of_mem_body hb hbody) (by simpa using hempty)
      (hfit l hl)
  · intro name hname hpoint
    rw [hnames, hlines, List.map_cons, List.head?_cons, Option.some.injEq] at hname
    rw [← hname, String.toList_ofList] at hpoint
    have hpointed : Assignment.opens first = true := by
      rw [Assignment.opens, beq_iff_eq]
      obtain ⟨blanks, hsplit, -⟩ := trimEnd_append_blanks (trimStart first.text)
      rw [hsplit, List.head?_append, ← trim, hpoint]
      rfl
    rw [hopens] at hpointed
    cases hpointed

namespace Hierarchy

/-! ## What an outline writes -/

/-- The line of a node. -/
def outlineLine (h : Hierarchy) (i : Nat) : List Char :=
  List.replicate (2 * (h.depth i - 1)) ' ' ++ (h.nameOf i).toList

/-- The lines of all nodes below the root, in the order of their numbers. -/
def outlineLines (h : Hierarchy) : List (List Char) :=
  (List.range' 1 h.nodes.length).map h.outlineLine

theorem Uncrossed.toList_outline {h : Hierarchy} (hun : h.Uncrossed) :
    h.outline.toList = written h.outlineLines := by
  rw [outline, hun.walk_eq, String.toList_join, written, outlineLines, List.map_map,
    List.flatMap_map, List.flatMap_map]
  refine congrArg (List.flatMap · _) (funext fun i => ?_)
  rw [Function.comp, String.toList_append, String.toList_append, indentation, String.toList_ofList]
  rfl

theorem nameOf_mem {h : Hierarchy} {i : Nat} (hpos : 0 < i) (hi : i < h.size) :
    h.nameOf i ∈ h.names := by
  cases i with
  | zero => omega
  | succ i =>
    have hlt : i < h.nodes.length := by
      rw [size] at hi
      omega
    rw [nameOf, node?, List.getElem?_eq_getElem hlt]
    exact List.mem_map_of_mem (List.getElem_mem hlt)

/-- The names are those of the nodes with the numbers from 1 on. -/
theorem map_nameOf (h : Hierarchy) : (List.range' 1 h.nodes.length).map h.nameOf = h.names := by
  rw [Hierarchy.names]
  refine List.ext_getElem (by simp) fun i hi hi' => ?_
  have hlt : i < h.nodes.length := by simpa using hi
  rw [List.getElem_map, List.getElem_range', Nat.one_mul, Nat.add_comm, nameOf, node?,
    List.getElem?_eq_getElem hlt, List.getElem_map]

/-! ## The same links -/

/-- There is one nearest node that is indented less. -/
theorem Nearest.unique {h : Hierarchy} {x i p q : Nat} (hp : h.Nearest x i p)
    (hq : h.Nearest x i q) : p = q := by
  rcases Nat.lt_trichotomy p q with hlt | heq | hlt
  · have hless := hq.less (by omega)
    have hlast := hp.last q hlt hq.before
    omega
  · exact heq
  · have hless := hp.less (by omega)
    have hlast := hq.last p hlt hp.before
    omega

/-- Let no links cross in a tree, and let another have as many nodes, indented the more the deeper
    they are in the first, each of which hangs from the nearest that is indented less.  Then the two
    have the same links. -/
theorem Uncrossed.parent?_eq {h h' : Hierarchy} (hun : h.Uncrossed) (hnested : h'.Nested)
    (hsize : h'.size = h.size)
    (hindent : ∀ i j, 0 < i → i < h.size → 0 < j → j < h.size →
      (h'.indent i < h'.indent j ↔ h.depth i < h.depth j)) (i : Nat) :
    h'.parent? i = h.parent? i := by
  rcases Nat.eq_zero_or_pos i with rfl | hpos
  · rfl
  rcases Nat.lt_or_ge i h.size with hi | hi
  · obtain ⟨p, hp⟩ := exists_parent? hpos hi
    obtain ⟨q, hq⟩ := exists_parent? (h := h') hpos (by omega)
    have hpi := hun.before i p hp
    have hnearest : h'.Nearest (h'.indent i) i p := by
      refine ⟨hpi, fun hne => ?_, fun j hpj hji => ?_⟩
      · rw [hindent p i (by omega) (by omega) hpos hi, hun.depth_eq hp]
        omega
      · have hdepth := hun.depth_le hp hpj hji
        have hless := hindent j i (by omega) (by omega) hpos hi
        omega
    rw [hp, hq, hnearest.unique (hnested i q hq)]
  · have hnone : ∀ g : Hierarchy, g.size ≤ i → g.parent? i = none := by
      intro g hg
      cases hp : g.parent? i with
      | none => rfl
      | some p =>
        have := lt_size_of_parent? hp
        omega
    rw [hnone h hi, hnone h' (by omega)]

/-- Trees with the same links have the same lists of children. -/
theorem children_eq {h h' : Hierarchy} (hsame : ∀ i, h'.parent? i = h.parent? i) (q : Nat) :
    h'.children q = h.children q := by
  refine (pairwise_lt_childrenFrom q 1 h'.nodes).eq_of_mem_iff
    (pairwise_lt_childrenFrom q 1 h.nodes) fun c => ?_
  show c ∈ h'.children q ↔ c ∈ h.children q
  rw [mem_children_iff, mem_children_iff, hsame]

end Hierarchy

/-! ## Reading an outline -/

namespace IsViewName

variable {name : List Char} (h : IsViewName name) (n : Nat)
include h

theorem trimStart_indented : trimStart (List.replicate n ' ' ++ name) = name := by
  obtain ⟨c, cs, rfl⟩ := List.exists_cons_of_ne_nil h.full
  rw [trimStart_append fun _ => isBlank_of_mem_spaces,
    trimStart_cons (h.solid c List.mem_cons_self)]

theorem trimEnd_indented :
    trimEnd (List.replicate n ' ' ++ name) = List.replicate n ' ' ++ name := by
  refine trimEnd_eq_self fun c hc => ?_
  rw [List.getLast?_append_of_ne_nil _ h.full] at hc
  exact h.solid c (List.mem_of_getLast? hc)

theorem trim_indented : trim (List.replicate n ' ' ++ name) = name := by
  rw [trim_eq, h.trimEnd_indented, h.trimStart_indented]

/-- The UTF-8 length of so many spaces is their number. -/
theorem indentOf_indented : indentOf (List.replicate n ' ' ++ name) = n := by
  obtain ⟨c, cs, rfl⟩ := List.exists_cons_of_ne_nil h.full
  have hc := h.solid c List.mem_cons_self
  rw [indentOf, List.takeWhile_append_of_pos fun _ => isBlank_of_mem_spaces,
    List.takeWhile_cons_of_neg (by simp [hc]), List.append_nil]
  have hsum : ∀ k size, (List.replicate k ' ').foldl (fun size c => size + c.utf8Size) size =
      size + k := by
    intro k
    induction k with
    | zero => exact fun size => rfl
    | succ k ih =>
      intro size
      have hone : ' '.utf8Size = 1 := by decide
      rw [List.replicate_succ, List.foldl_cons, ih, hone]
      omega
  rw [hsum, Nat.zero_add]

theorem isStatement_indented : IsStatement (List.replicate n ' ' ++ name) := by
  have hclean : Clean name := ⟨fun c hc => isBreak_eq_false (h.solid c hc), h.uncommented⟩
  refine ⟨hclean.append_front fun c hc => ?_, ?_, ?_⟩
  · rw [List.eq_of_mem_replicate hc]
    decide
  · rw [h.trim_indented]
    exact h.full
  · rw [h.trim_indented]
    exact h.plain

end IsViewName

namespace Hierarchy

theorem Printable.isViewName {h : Hierarchy} (hp : h.Printable) {i : Nat}
    (hi : i ∈ List.range' 1 h.nodes.length) : IsViewName (h.nameOf i).toList := by
  rw [List.mem_range'_1] at hi
  exact hp.named _ (nameOf_mem (by omega) (by rw [size]; omega))

theorem exists_of_mem_numbered {h : Hierarchy} {n : Nat} {l : Line}
    (hl : l ∈ numbered n h.outlineLines) :
    ∃ i ∈ List.range' 1 h.nodes.length, l.text = h.outlineLine i := by
  obtain ⟨i, hi, heq⟩ := List.mem_map.mp (text_mem_of_mem_numbered hl)
  exact ⟨i, hi, heq.symm⟩

theorem Printable.map_trimEnd {h : Hierarchy} (hp : h.Printable) :
    h.outlineLines.map trimEnd = h.outlineLines := by
  rw [outlineLines, List.map_map]
  exact List.map_congr_left fun i hi => (hp.isViewName hi).trimEnd_indented _

/-- Every line of an outline belongs to the body. -/
theorem Printable.isStatement {h : Hierarchy} (hp : h.Printable) :
    ∀ line ∈ h.outlineLines, IsStatement line := by
  intro line hline
  obtain ⟨i, hi, rfl⟩ := List.mem_map.mp hline
  exact (hp.isViewName hi).isStatement_indented _

/-- The first line does not look like a setter. -/
theorem Printable.exists_first {h : Hierarchy} (hp : h.Printable) (n : Nat) :
    ∃ first rest, numbered n h.outlineLines = first :: rest ∧
      Assignment.opens first = false := by
  obtain ⟨node, nodes, hnodes⟩ := List.exists_cons_of_ne_nil hp.full
  have hnumbers : List.range' 1 h.nodes.length = 1 :: List.range' 2 nodes.length := by
    rw [hnodes, List.length_cons, List.range'_succ]
  refine ⟨⟨n, h.outlineLine 1⟩, _, by rw [outlineLines, hnumbers, List.map_cons, numbered], ?_⟩
  have hname := hp.isViewName (hnumbers ▸ List.mem_cons_self)
  have hfirst := hp.first (h.nameOf 1) (by rw [← h.map_nameOf, hnumbers]; rfl)
  rw [Assignment.opens, outlineLine, hname.trimStart_indented]
  simpa using hfirst

/-- The lines of an outline are read as a tree with the same names. -/
theorem Printable.exists_read {h : Hierarchy} (hp : h.Printable) (n : Nat) :
    ∃ tree, (Body.read (numbered n h.outlineLines)).2 = .ok (.hierarchy tree) ∧ tree.Nested ∧
      tree.nodes.map (fun n => (n.name, n.indent)) =
        (List.range' 1 h.nodes.length).map fun i => (h.nameOf i, 2 * (h.depth i - 1)) := by
  have hfit : (numbered n h.outlineLines).findSome? Growth.refusal? = none := by
    rw [List.findSome?_eq_none_iff]
    intro l hl
    obtain ⟨i, hi, heq⟩ := exists_of_mem_numbered hl
    have hsolid := (hp.isViewName hi).solid
    rw [Growth.refusal?, heq, outlineLine, (hp.isViewName hi).trim_indented]
    exact if_neg (by simpa using hsolid)
  obtain ⟨tree, htree⟩ := errorOf?_eq_none.mp ((Growth.errorOf?_readAll .start _).trans hfit)
  refine ⟨tree, ?_, Growth.nested_of_readAll htree, ?_⟩
  · obtain ⟨first, rest, hlines, hfirst⟩ := hp.exists_first n
    rw [hlines] at htree ⊢
    exact Body.read_eq_hierarchy.mpr ⟨hfirst, htree⟩
  · have htexts : (numbered n h.outlineLines).map
        (fun l => (String.ofList (trim l.text), indentOf l.text)) =
          h.outlineLines.map fun t => (String.ofList (trim t), indentOf t) := by
      conv_rhs => rw [← map_text_numbered n h.outlineLines, List.map_map]
      rfl
    have hfull : ∀ line ∈ h.outlineLines, trim line ≠ [] := fun line hline =>
      (hp.isStatement line hline).full
    rw [Growth.nodes_of_readAll htree, filter_numbered hfull, htexts, outlineLines, List.map_map]
    refine List.map_congr_left fun i hi => ?_
    have hname := hp.isViewName hi
    rw [Function.comp, outlineLine, hname.trim_indented, hname.indentOf_indented,
      String.ofList_toList]

/-- The tree that is read has the names and the links of the tree that was printed. -/
theorem Printable.same_links {h h' : Hierarchy} (hp : h.Printable) (hnested : h'.Nested)
    (hnodes : h'.nodes.map (fun n => (n.name, n.indent)) =
      (List.range' 1 h.nodes.length).map fun i => (h.nameOf i, 2 * (h.depth i - 1))) :
    h'.names = h.names ∧ (∀ i, h'.parent? i = h.parent? i) ∧
      ∀ i, h'.children i = h.children i := by
  have hlength := congrArg List.length hnodes
  rw [List.length_map, List.length_map, List.length_range'] at hlength
  have hsize : h'.size = h.size := by rw [size, size, hlength]
  have hnames := congrArg (List.map Prod.fst) hnodes
  rw [List.map_map, List.map_map] at hnames
  have hindent : ∀ i, 0 < i → i < h.size → h'.indent i = 2 * (h.depth i - 1) := by
    intro i hpos hi
    obtain ⟨k, rfl⟩ : ∃ k, i = k + 1 := ⟨i - 1, by omega⟩
    have hk : k < h.nodes.length := by
      rw [size] at hi
      omega
    have hat := congrArg (fun ns => ns[k]?) hnodes
    rw [List.getElem?_map, List.getElem?_map, List.getElem?_range' hk, Nat.one_mul,
      Nat.add_comm 1 k, List.getElem?_eq_getElem (by omega)] at hat
    rw [Hierarchy.indent, node?, List.getElem?_eq_getElem (by omega)]
    exact congrArg Prod.snd (Option.some.inj hat)
  -- only the root has depth 0, so that subtracting 1 keeps depths apart
  have hdepth : ∀ i, 0 < i → i < h.size → 0 < h.depth i := by
    intro i hpos hi
    obtain ⟨p, hparent⟩ := exists_parent? hpos hi
    rw [hp.uncrossed.depth_eq hparent]
    omega
  have hparents := hp.uncrossed.parent?_eq hnested hsize fun i j hi hi' hj hj' => by
    have hdi := hdepth i hi hi'
    have hdj := hdepth j hj hj'
    rw [hindent i hi hi', hindent j hj hj']
    omega
  exact ⟨hnames.trans h.map_nameOf, hparents, children_eq hparents⟩

end Hierarchy

namespace Hierarchy

theorem Printable.outlineLines_ne_nil {h : Hierarchy} (hp : h.Printable) : h.outlineLines ≠ [] := by
  obtain ⟨first, rest, hlines, -⟩ := hp.exists_first 2
  intro hnil
  rw [hnil] at hlines
  cases hlines

/-- What is printed under a header is accepted, and read as a tree with the same names and links. -/
theorem Printable.exists_parse {h : Hierarchy} (hp : h.Printable) (identifier : String) :
    ∃ doc d tree, (parse ("X:\n" ++ h.outline) identifier).2 = .ok doc ∧
      doc.get? "X" = some d ∧ d.hierarchy = some tree ∧
      tree.names = h.names ∧ (∀ i, tree.parent? i = h.parent? i) ∧
      ∀ i, tree.children i = h.children i := by
  have htext : "X:\n" ++ h.outline =
      String.ofList (written (headerLine ['X'] :: h.outlineLines)) := by
    rw [← String.toList_inj, String.toList_append, hp.uncrossed.toList_outline]
    exact String.toList_ofList.symm
  have hX : IsName ['X'] := by decide
  obtain ⟨tree, hread, hnested, hnodes⟩ := hp.exists_read 2
  rw [← hp.map_trimEnd] at hread
  have hparse := parse_written hX hp.isStatement hp.outlineLines_ne_nil hread identifier
  rw [← htext] at hparse
  exact ⟨_, _, tree, hparse, rfl, rfl, hp.same_links hnested hnodes⟩

end Hierarchy

/-- **An outline is read as the tree it was printed from.**  Each tree of a parsed document has one
    node for each line of a block with the declaration's name above it, in the order of the lines.
    Walking depth first comes to the nodes in this order.  What the outline prints, under a header,
    is accepted, and it is a tree with the same names, parents and children. -/
theorem parse_outline {source identifier : String} {doc : Document}
    (h : (parse source identifier).2 = .ok doc) {name : String} {d : Declaration}
    (hd : doc.get? name = some d) {tree : Hierarchy} (htree : d.hierarchy = some tree) :
    (∃ b ∈ (Block.split (sourceLines source.toList)).2, ∃ names, b.names = .ok names ∧
      name ∈ names ∧ tree.names = b.statements.map fun l => String.ofList (trim l.text)) ∧
    tree.walk.map Prod.fst = List.range' 1 tree.nodes.length ∧
    ∀ identifier', ∃ doc' d' tree',
      (parse ("X:\n" ++ tree.outline) identifier').2 = .ok doc' ∧
      doc'.get? "X" = some d' ∧ d'.hierarchy = some tree' ∧
      tree'.names = tree.names ∧ (∀ i, tree'.parent? i = tree.parent? i) ∧
      ∀ i, tree'.children i = tree.children i := by
  obtain ⟨b, hb, names, hnames, hname, hfull, hread⟩ := planted_of_parse h name d tree hd htree
  obtain ⟨hlines, hp⟩ := printable_of_read hb hfull hread
  refine ⟨⟨b, hb, names, hnames, hname, hlines⟩, ?_, hp.exists_parse⟩
  rw [hp.uncrossed.walk_eq, List.map_map]
  exact List.map_id _

/-- Two declarations with one tree: ragged, with a tab and a wide blank, and with names that repeat
    or look like setters, headers and comments. -/
def raggedSheet : String :=
  "A, B:\n    Top\n  #-x\n\t.y=\n      Top #-- again\n\u2003C:D\n  --\nC:\n  .z = 1\n"

/-- The tree of `raggedSheet`, which dedents to where no name stood before. -/
def raggedTree : Hierarchy :=
  ⟨[⟨"Top", 4, 0⟩, ⟨"#-x", 2, 0⟩, ⟨".y=", 1, 0⟩, ⟨"Top", 6, 3⟩, ⟨"C:D", 3, 3⟩, ⟨"--", 2, 3⟩]⟩

theorem parse_outline_ragged :
    ∃ doc d, (parse raggedSheet "sheet").2 = .ok doc ∧ doc.get? "B" = some d ∧
      d.hierarchy = some raggedTree ∧
      raggedTree.walk.map Prod.fst = [1, 2, 3, 4, 5, 6] ∧
      raggedTree.outline = "Top\n#-x\n.y=\n  Top\n  C:D\n  --\n" ∧
      ∃ doc' d' tree', (parse ("X:\n" ++ raggedTree.outline) "copy").2 = .ok doc' ∧
        doc'.get? "X" = some d' ∧ d'.hierarchy = some tree' ∧
        tree'.names = ["Top", "#-x", ".y=", "Top", "C:D", "--"] ∧ tree'.parent? 6 = some 3 ∧
        tree'.children 3 = [4, 5, 6] := by
  have hread : ((parse raggedSheet "sheet").2.toOption.bind (·.get? "B")).bind (·.hierarchy) =
      some raggedTree := by
    decide +kernel
  obtain ⟨d, hd, htree⟩ := Option.bind_eq_some_iff.mp hread
  obtain ⟨doc, hdoc, hd⟩ := Option.bind_eq_some_iff.mp hd
  have hparse : (parse raggedSheet "sheet").2 = .ok doc := by
    cases hr : (parse raggedSheet "sheet").2 with
    | error e =>
      rw [hr] at hdoc
      cases hdoc
    | ok doc =>
      rw [hr] at hdoc
      exact congrArg Except.ok (Option.some.inj hdoc)
  obtain ⟨-, hwalk, hagain⟩ := parse_outline hparse hd htree
  obtain ⟨doc', d', tree', hparse', hd', htree', hnames, hparents, hchildren⟩ := hagain "copy"
  refine ⟨doc, d, hparse, hd, htree, hwalk, by decide +kernel, doc', d', tree', hparse', hd',
    htree', hnames, ?_, ?_⟩
  · rw [hparents]
    rfl
  · rw [hchildren]
    decide

end ViewSheet
