/-
  Shapes: what the bodies of an accepted source look like.

  1. **Program**: the first line of a body decides between setters and a tree.  Each reader then has
     its own idea of a wrong line: one looks at lines that start with a point, the other at lines
     with a blank inside.

  2. **Specification**: `Block.Setters` and `Block.Words` are the two shapes as they are accepted.
     A body of words may hold a word that starts with a point; then it is not `Block.Uniform`, for
     the line looks like one of the other shape.

  3. **Result** (`parse_shapes`): the bodies of an accepted source have one shape or the other.  In
     trees, the names that start with a point are those of such words, so that there are none when
     all bodies are uniform.  A setter without a blank inside is such a word (`uniform_not_parse`).
-/
import ViewSheet.Proofs.Outline

namespace ViewSheet

open Text Grammar

/-! ## Shapes of bodies -/

namespace Block

/-- A body that starts with a point, in which whatever starts with a point is a setter; the other
    lines go on with the value of the setter above. -/
structure Setters (b : Block) : Prop where
  starts : ∃ first rest, b.statements = first :: rest ∧ Pointed first.text
  form : ∀ l ∈ b.statements, Pointed l.text → Setter l.text

/-- A body that does not start with a point, with one word a line. -/
structure Words (b : Block) : Prop where
  starts : ∀ first rest, b.statements = first :: rest → ¬ Pointed first.text
  single : ∀ l ∈ b.statements, ¬ Spaced l.text

/-- A body that does not mix the shapes: setters with the lines that go on with them, or lines none
    of which starts with a point. -/
def Uniform (b : Block) : Prop := b.Setters ∨ ∀ l ∈ b.statements, ¬ Pointed l.text

theorem Setters.not_words {b : Block} (h : b.Setters) : ¬ b.Words := by
  obtain ⟨first, rest, hlines, hpointed⟩ := h.starts
  exact fun hwords => hwords.starts first rest hlines hpointed

/-- A body of words is uniform when no word starts with a point. -/
theorem Words.uniform_iff {b : Block} (h : b.Words) :
    b.Uniform ↔ ∀ l ∈ b.statements, ¬ Pointed l.text := by
  refine ⟨?_, Or.inr⟩
  rintro (hsetters | hplain)
  · exact absurd h hsetters.not_words
  · exact hplain

/-- A body that is not refused has one of the shapes. -/
theorem setters_or_words {b : Block} (h : b.refusal? = none) : b.Setters ∨ b.Words := by
  rw [refusal?] at h
  cases hnames : errorOf? b.names with
  | some e =>
    rw [hnames] at h
    cases h
  | none =>
    rw [hnames] at h
    cases hlines : b.statements with
    | nil =>
      refine Or.inr ⟨fun first rest heq => ?_, fun l hl => ?_⟩
      · rw [hlines] at heq
        cases heq
      · rw [hlines] at hl
        cases hl
    | cons first rest =>
      rw [hlines] at h
      have hfit : ∀ l ∈ b.statements, Body.refusal? first l = none := by
        intro l hl
        rw [hlines] at hl
        exact Option.map_eq_none_iff.mp (List.findSome?_eq_none_iff.mp h l hl)
      -- the line that the body starts with says which reader the others have passed
      by_cases hopens : Assignment.opens first = true
      · refine Or.inl ⟨⟨first, rest, hlines, opens_iff.mp hopens⟩, fun l hl hpointed => ?_⟩
        have hl' := hfit l hl
        rw [Body.refusal?, if_pos hopens] at hl'
        by_contra hformless
        rw [assignment_refusal?_iff.mpr ⟨hpointed, hformless, rfl⟩] at hl'
        cases hl'
      · refine Or.inr ⟨fun first' rest' heq hpointed => ?_, fun l hl hspaced => ?_⟩
        · rw [hlines] at heq
          rw [← (List.cons.inj heq).1] at hpointed
          exact hopens (opens_iff.mpr hpointed)
        · have hl' := hfit l hl
          rw [Body.refusal?, if_neg hopens, growth_refusal?_iff.mpr ⟨hspaced, rfl⟩] at hl'
          cases hl'

end Block

/-- The blocks of an accepted source are not refused. -/
theorem refusal?_of_parse {source identifier : String} {doc : Document}
    (h : (parse source identifier).2 = .ok doc) :
    ∀ b ∈ (Block.split (sourceLines source.toList)).2, b.refusal? = none := by
  rw [parse_eq] at h
  split at h
  · cases h
  · rename_i hnone
    rw [linesRefusal?, Option.or_eq_none_iff] at hnone
    exact List.findSome?_eq_none_iff.mp hnone.2

/-! ## Names in trees -/

/-- A line starts with a point, blanks apart, when what is left after trimming does. -/
theorem pointed_iff_head? {t : List Char} : Pointed t ↔ (trim t).head? = some '.' := by
  have hline : Pointed t ↔ (trimStart t).head? = some '.' := by
    have h := opens_iff (l := ⟨0, t⟩)
    rw [Assignment.opens, beq_iff_eq] at h
    exact h.symm
  obtain ⟨blanks, hsplit, hblanks⟩ := trimEnd_append_blanks (trimStart t)
  rw [hline, trim]
  constructor
  · intro hhead
    cases hcode : trimEnd (trimStart t) with
    | nil =>
      -- nothing but blanks are left, and a point is not a blank
      rw [hcode, List.nil_append] at hsplit
      rw [hsplit] at hhead
      have hpoint := hblanks '.' (List.mem_of_head? hhead)
      exact absurd hpoint (by decide)
    | cons c cs =>
      rw [hcode] at hsplit
      rw [hsplit] at hhead
      exact hhead
  · intro hhead
    rw [hsplit, List.head?_append, hhead]
    rfl

/-- A tree that is read from words names what stands on the lines; where a name starts with a point,
    a line does. -/
theorem pointed_of_names {b : Block} {names : List String}
    (h : names = b.statements.map fun l => String.ofList (trim l.text)) (name : String) :
    name ∈ names ∧ name.toList.head? = some '.' ↔
      ∃ l ∈ b.statements, Pointed l.text ∧ name = String.ofList (trim l.text) := by
  rw [h, List.mem_map]
  constructor
  · rintro ⟨⟨l, hl, rfl⟩, hhead⟩
    rw [String.toList_ofList] at hhead
    exact ⟨l, hl, pointed_iff_head?.mpr hhead, rfl⟩
  · rintro ⟨l, hl, hpointed, rfl⟩
    rw [String.toList_ofList]
    exact ⟨⟨l, hl, rfl⟩, pointed_iff_head?.mp hpointed⟩

/-- **Bodies have one of two shapes, but for words that start with a point.**  In an accepted source
    each body is one of setters or one of words, and it is uniform unless a word in it starts with a
    point.  Every tree was read from a body of words, and its names that start with a point are
    those words.  Where all bodies are uniform, no name in a tree starts with a point. -/
theorem parse_shapes {source identifier : String} {doc : Document}
    (h : (parse source identifier).2 = .ok doc) :
    let blocks := (Block.split (sourceLines source.toList)).2
    (∀ b ∈ blocks, b.Setters ∨ b.Words) ∧
    (∀ b ∈ blocks, b.Uniform ↔ (b.Words → ∀ l ∈ b.statements, ¬ Pointed l.text)) ∧
    (∀ name d tree, doc.get? name = some d → d.hierarchy = some tree →
      ∃ b ∈ blocks, b.Words ∧ (∃ names, b.names = .ok names ∧ name ∈ names) ∧
        tree.names = b.statements.map (fun l => String.ofList (trim l.text)) ∧
        ∀ node, node ∈ tree.names ∧ node.toList.head? = some '.' ↔
          ∃ l ∈ b.statements, Pointed l.text ∧ node = String.ofList (trim l.text)) ∧
    ((∀ b ∈ blocks, b.Uniform) →
      ∀ name d tree, doc.get? name = some d → d.hierarchy = some tree →
        ∀ node ∈ tree.names, node.toList.head? ≠ some '.') := by
  intro blocks
  have hshape : ∀ b ∈ blocks, b.Setters ∨ b.Words :=
    fun b hb => Block.setters_or_words (refusal?_of_parse h b hb)
  have huniform : ∀ b ∈ blocks,
      (b.Uniform ↔ (b.Words → ∀ l ∈ b.statements, ¬ Pointed l.text)) := by
    intro b hb
    rcases hshape b hb with hsetters | hwords
    · exact ⟨fun _ hwords => absurd hwords hsetters.not_words, fun _ => Or.inl hsetters⟩
    · exact ⟨fun hu _ => hwords.uniform_iff.mp hu, fun hplain => Or.inr (hplain hwords)⟩
  have htrees : ∀ name d tree, doc.get? name = some d → d.hierarchy = some tree →
      ∃ b ∈ blocks, b.Words ∧ (∃ names, b.names = .ok names ∧ name ∈ names) ∧
        tree.names = b.statements.map (fun l => String.ofList (trim l.text)) ∧
        ∀ node, node ∈ tree.names ∧ node.toList.head? = some '.' ↔
          ∃ l ∈ b.statements, Pointed l.text ∧ node = String.ofList (trim l.text) := by
    intro name d tree hd htree
    obtain ⟨b, hb, names, hnames, hname, hfull, hread⟩ := planted_of_parse h name d tree hd htree
    obtain ⟨hlines, -⟩ := printable_of_read hb hfull hread
    obtain ⟨first, rest, hstatements⟩ := List.exists_cons_of_ne_nil hfull
    rw [hstatements, Body.read_eq_hierarchy] at hread
    have hwords : b.Words := by
      refine (hshape b hb).resolve_left fun hsetters => ?_
      obtain ⟨first', rest', heq, hpointed⟩ := hsetters.starts
      rw [hstatements] at heq
      rw [← (List.cons.inj heq).1, ← opens_iff, hread.1] at hpointed
      cases hpointed
    exact ⟨b, hb, hwords, ⟨names, hnames, hname⟩, hlines, pointed_of_names hlines⟩
  refine ⟨hshape, huniform, htrees, fun hall name d tree hd htree node hnode hhead => ?_⟩
  obtain ⟨b, hb, hwords, -, -, hpoints⟩ := htrees name d tree hd htree
  obtain ⟨l, hl, hpointed, -⟩ := (hpoints node).mp ⟨hnode, hhead⟩
  exact hwords.uniform_iff.mp (hall b hb) l hl hpointed

/-- A tree with an indented setter below a name, and setters one of which goes on for a line. -/
def mixedSheet : String := "Main, Page:\n  A\n  .hidden=yes\nA:\n  .text = one\n  two\n"

/-- The body of `Main` in `mixedSheet`. -/
def mixedBlock : Block :=
  ⟨⟨1, "Main, Page:".toList⟩, [⟨2, "  A".toList⟩, ⟨3, "  .hidden=yes".toList⟩]⟩

/-- The tree that is read from it. -/
def mixedTree : Hierarchy := ⟨[⟨"A", 2, 0⟩, ⟨".hidden=yes", 2, 0⟩]⟩

theorem exists_parse_mixedSheet :
    ∃ doc d, (parse mixedSheet "sheet").2 = .ok doc ∧ doc.get? "Page" = some d ∧
      d.hierarchy = some mixedTree := by
  have hread : ((parse mixedSheet "sheet").2.toOption.bind (·.get? "Page")).bind (·.hierarchy) =
      some mixedTree := by
    decide +kernel
  obtain ⟨d, hd, htree⟩ := Option.bind_eq_some_iff.mp hread
  obtain ⟨doc, hdoc, hd⟩ := Option.bind_eq_some_iff.mp hd
  cases hr : (parse mixedSheet "sheet").2 with
  | error e =>
    rw [hr] at hdoc
    cases hdoc
  | ok doc' =>
    rw [hr] at hdoc
    obtain rfl := Option.some.inj hdoc
    exact ⟨doc', d, rfl, hd, htree⟩

/-- The mixed body is read as words, and its tree has a node that is named like a setter. -/
theorem parse_shapes_mixed :
    ∃ doc d, (parse mixedSheet "sheet").2 = .ok doc ∧ doc.get? "Page" = some d ∧
      d.hierarchy = some mixedTree ∧ (mixedBlock.Setters ∨ mixedBlock.Words) ∧
      ∃ l ∈ mixedBlock.statements, Pointed l.text ∧
        ".hidden=yes" = String.ofList (trim l.text) := by
  obtain ⟨doc, d, hparse, hd, htree⟩ := exists_parse_mixedSheet
  obtain ⟨hshape, -, htrees, -⟩ := parse_shapes hparse
  obtain ⟨b, hb, -, ⟨names, hnames, hname⟩, -, hpoints⟩ := htrees "Page" d mixedTree hd htree
  -- of the two blocks it is the first that lists the name
  have hblocks : (Block.split (sourceLines mixedSheet.toList)).2.map (·.names.toOption) =
      [some ["Main", "Page"], some ["A"]] := by decide +kernel
  have hfirst : (Block.split (sourceLines mixedSheet.toList)).2.head? = some mixedBlock := by
    decide +kernel
  obtain ⟨blocks, hsplit⟩ : ∃ blocks,
      (Block.split (sourceLines mixedSheet.toList)).2 = mixedBlock :: blocks :=
    List.head?_eq_some_iff.mp hfirst
  have hb' : b = mixedBlock := by
    rw [hsplit] at hb hblocks
    rcases List.mem_cons.mp hb with rfl | hrest
    · rfl
    · have hother : b.names.toOption ∈ blocks.map (·.names.toOption) :=
        List.mem_map_of_mem hrest
      rw [List.map_cons, List.cons.injEq] at hblocks
      rw [hblocks.2, hnames, List.mem_singleton] at hother
      rw [Option.some.inj hother] at hname
      exact absurd hname (by decide)
  subst hb'
  refine ⟨doc, d, hparse, hd, htree, hshape _ hb, ?_⟩
  exact (hpoints ".hidden=yes").mp ⟨by decide, by decide⟩

/-- A body that starts with a name and has a setter below it is accepted, and the setter is a node
    of the tree. -/
theorem uniform_not_parse :
    (∃ doc d, (parse mixedSheet "sheet").2 = .ok doc ∧ doc.get? "Page" = some d ∧
      d.hierarchy = some mixedTree) ∧
    mixedBlock ∈ (Block.split (sourceLines mixedSheet.toList)).2 ∧ ¬ mixedBlock.Uniform ∧
    ".hidden=yes" ∈ mixedTree.names ∧ Setter ".hidden=yes".toList := by
  refine ⟨exists_parse_mixedSheet, by decide +kernel, ?_, by decide, ?_⟩
  · have hword : mixedBlock.Words := by
      refine ⟨fun first rest heq => ?_, ?_⟩
      · have hstart : mixedBlock.statements.head? = some ⟨2, "  A".toList⟩ := by decide
        rw [heq, List.head?_cons, Option.some.injEq] at hstart
        rw [hstart, ← opens_iff]
        decide
      · have hfit : ∀ l ∈ mixedBlock.statements, (trim l.text).any isBlank = false := by decide
        rintro l hl ⟨c, hc, hblank⟩
        exact absurd hblank (by simpa using List.any_eq_false.mp (hfit l hl) c hc)
    rw [hword.uniform_iff]
    intro hplain
    refine hplain ⟨3, "  .hidden=yes".toList⟩ (by decide) ?_
    rw [← opens_iff]
    decide
  · have hkey : "hidden".toList.all isAlphanumeric = true := by decide +kernel
    exact ⟨[], [], "hidden".toList, [], "yes".toList, by decide, by simp [Blank], by simp [Blank],
      by simp [Blank], by decide, List.all_eq_true.mp hkey⟩

end ViewSheet
