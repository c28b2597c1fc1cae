/-
  Writing: sources that are put together line by line.

  1. **Program**: parsing cuts a source into lines, drops comments and the blanks before them, and
     cuts the lines into blocks.

  2. **Specification**: `written lines` has a line feed behind each line.  If the lines have no line
     breaks, they are its lines again, and an empty one (`splitLines_written`).  A line without a
     comment keeps all of it but the blanks at its end (`codeOf_of_clean`).

  3. **Result** (`parse_written`): a header with one name above lines that are read as a body makes
     a document of one declaration, which is what the body states in an empty one.
-/
import Mathlib.Data.List.Infix
import ViewSheet.Proofs.Grammar

namespace ViewSheet

namespace Text

/-! ## Blanks -/

theorem isBlank_of_mem_spaces {n : Nat} {c : Char} (h : c ∈ List.replicate n ' ') :
    isBlank c = true := by
  rw [List.eq_of_mem_replicate h]
  decide

/-- A text that does not end in a blank is trimmed at its end. -/
theorem trimEnd_eq_self {cs : List Char} (h : ∀ c, cs.getLast? = some c → isBlank c = false) :
    trimEnd cs = cs := by
  obtain ⟨blanks, hsplit, hblanks⟩ := trimEnd_append_blanks cs
  rcases List.eq_nil_or_concat blanks with rfl | ⟨init, c, rfl⟩
  · rw [List.append_nil] at hsplit
    exact hsplit.symm
  · have hc := h c (by rw [hsplit, List.concat_eq_append, ← List.append_assoc]; simp)
    rw [hblanks c (by simp)] at hc
    cases hc

theorem trimEnd_trimEnd (cs : List Char) : trimEnd (trimEnd cs) = trimEnd cs :=
  trimEnd_eq_self (trimEnd_getLast? cs)

theorem trimEnd_cons {c : Char} (h : isBlank c = false) (cs : List Char) :
    trimEnd (c :: cs) = c :: trimEnd cs := by
  rw [trimEnd]
  cases trimEnd cs with
  | nil => exact if_neg (by rw [h]; exact Bool.false_ne_true)
  | cons d ds => rfl

/-- Blanks at the end are behind the last character that is none. -/
theorem trimEnd_append_cons {c : Char} (h : isBlank c = false) (front back : List Char) :
    trimEnd (front ++ c :: back) = front ++ c :: trimEnd back := by
  induction front with
  | nil => exact trimEnd_cons h back
  | cons d front ih =>
    rw [List.cons_append, trimEnd, ih]
    cases front <;> rfl

/-- The ends of a text can be trimmed in either order. -/
theorem trim_eq (cs : List Char) : trim cs = trimStart (trimEnd cs) := by
  rw [trim]
  induction cs with
  | nil => rfl
  | cons c cs ih =>
    cases hc : isBlank c with
    | false => rw [trimStart_cons hc, trimEnd_cons hc, trimStart_cons hc]
    | true =>
      have hdrop : ∀ ds, trimStart (c :: ds) = trimStart ds := fun ds =>
        List.dropWhile_cons_of_pos hc
      rw [hdrop, ih, trimEnd]
      cases trimEnd cs with
      | nil => rw [if_pos hc]
      | cons d ds => exact (hdrop (d :: ds)).symm

theorem trim_trimEnd (cs : List Char) : trim (trimEnd cs) = trim cs := by
  rw [trim_eq, trimEnd_trimEnd, ← trim_eq]

/-- Trimming keeps a stretch of the text. -/
theorem isInfix_trim (cs : List Char) : trim cs <:+: cs := by
  obtain ⟨blanks, hsplit, -⟩ := trimEnd_append_blanks (trimStart cs)
  have hend : trim cs <+: trimStart cs := ⟨blanks, hsplit.symm⟩
  exact hend.isInfix.trans (List.dropWhile_suffix _).isInfix

/-! ## Comments -/

/-- Where a text does not have a mark, all of it is before the mark. -/
theorem before_eq_self {mark cs : List Char} (h : ¬ mark <:+: cs) : before mark cs = cs := by
  rw [before]
  split
  · rename_i head tail hcut
    exact absurd ⟨head, tail, (eq_of_cutAt? hcut).symm⟩ h
  · rfl

theorem before_cons (mark : List Char) (c : Char) (cs : List Char) :
    before mark (c :: cs) =
      match stripStart? mark (c :: cs) with
      | some _ => []
      | none => c :: before mark cs := by
  rw [before, cutAt?]
  cases stripStart? mark (c :: cs) with
  | some rest => rfl
  | none =>
    dsimp only
    rw [before]
    cases cutAt? mark cs <;> rfl

theorem isPrefix_before (mark cs : List Char) : before mark cs <+: cs := by
  rw [before]
  split
  · rename_i head tail hcut
    exact ⟨mark ++ tail, by rw [← List.append_assoc, ← eq_of_cutAt? hcut]⟩
  · exact List.prefix_refl cs

/-- What is before the first mark has no mark in it. -/
theorem not_infix_before {mark : List Char} (hmark : mark ≠ []) (cs : List Char) :
    ¬ mark <:+: before mark cs := by
  induction cs with
  | nil =>
    have hnil : before mark [] = [] := List.prefix_nil.mp (isPrefix_before mark [])
    rw [hnil, List.infix_nil]
    exact hmark
  | cons c cs ih =>
    have hshort := isPrefix_before mark (c :: cs)
    rw [before_cons] at hshort ⊢
    cases hstrip : stripStart? mark (c :: cs) with
    | some rest => exact fun h => hmark (List.infix_nil.mp h)
    | none =>
      rw [hstrip] at hshort
      rw [List.infix_cons_iff]
      rintro (hhere | hlater)
      · -- a mark at the front would have been found
        obtain ⟨rest, hrest⟩ := hhere.trans hshort
        rw [← hrest, stripStart?_append] at hstrip
        cases hstrip
      · exact ih hlater

/-- A line without a break and without a comment. -/
structure Clean (line : List Char) : Prop where
  unbroken : ∀ c ∈ line, isBreak c = false
  uncommented : ¬ commentMark <:+: line

instance (line : List Char) : Decidable (Clean line) :=
  decidable_of_iff ((line.all fun c => isBreak c == false) = true ∧ ¬ commentMark <:+: line)
    ⟨fun h => ⟨fun c hc => eq_of_beq (List.all_eq_true.mp h.1 c hc), h.2⟩,
      fun h => ⟨List.all_eq_true.mpr fun c hc => beq_iff_eq.mpr (h.unbroken c hc),
        h.uncommented⟩⟩

theorem codeOf_of_clean {line : List Char} (h : Clean line) : codeOf line = trimEnd line := by
  rw [codeOf, before_eq_self h.uncommented]

/-- A character behind a clean line that is not in the mark leaves it clean. -/
theorem Clean.append_single {line : List Char} (h : Clean line) {c : Char}
    (hbreak : isBreak c = false) (hc : c ≠ '-') : Clean (line ++ [c]) := by
  constructor
  · intro d hd
    rcases List.mem_append.mp hd with hd | hd
    · exact h.unbroken d hd
    · rw [List.mem_singleton.mp hd]
      exact hbreak
  · rw [List.infix_concat_iff]
    rintro (hsuffix | hinside)
    · obtain ⟨front, hfront⟩ := hsuffix
      have hlast := congrArg List.getLast? hfront
      rw [List.getLast?_append, List.getLast?_concat] at hlast
      exact hc (Option.some.inj hlast).symm
    · exact h.uncommented hinside

/-- Characters before a clean line that do not start a mark leave it clean. -/
theorem Clean.append_front {front line : List Char}
    (hfront : ∀ c ∈ front, isBreak c = false ∧ c ≠ '#') (h : Clean line) :
    Clean (front ++ line) := by
  constructor
  · intro c hc
    rcases List.mem_append.mp hc with hc | hc
    · exact (hfront c hc).1
    · exact h.unbroken c hc
  · induction front with
    | nil => exact h.uncommented
    | cons c front ih =>
      rw [List.cons_append, List.infix_cons_iff]
      rintro (hhere | hlater)
      · rw [commentMark, List.cons_prefix_cons] at hhere
        exact (hfront c List.mem_cons_self).2 hhere.1.symm
      · exact ih (fun d hd => hfront d (List.mem_cons_of_mem c hd)) hlater

/-- A line break is a blank. -/
theorem isBreak_eq_false {c : Char} (h : isBlank c = false) : isBreak c = false := by
  by_contra hbreak
  rw [Bool.not_eq_false, isBreak, Bool.or_eq_true, beq_iff_eq, beq_iff_eq] at hbreak
  rcases hbreak with rfl | rfl <;> exact absurd h (by decide)

/-! ## Lines -/

/-- The lines one below the other, each with a line feed. -/
def written (lines : List (List Char)) : List Char := lines.flatMap (· ++ ['\n'])

theorem splitLines_of_unbroken {line : List Char} (h : ∀ c ∈ line, isBreak c = false) :
    splitLines line = [line] := by
  induction line with
  | nil => rfl
  | cons c cs ih =>
    obtain ⟨first, rest, hcs, hsplit⟩ := splitLines_other (h c List.mem_cons_self) cs
    rw [ih fun d hd => h d (List.mem_cons_of_mem c hd)] at hcs
    obtain ⟨rfl, rfl⟩ := List.cons.inj hcs
    exact hsplit

theorem splitLines_written {lines : List (List Char)}
    (h : ∀ line ∈ lines, ∀ c ∈ line, isBreak c = false) :
    splitLines (written lines) = lines ++ [[]] := by
  induction lines with
  | nil => rfl
  | cons line rest ih =>
    have hline := h line List.mem_cons_self
    have hlast : line.getLast? ≠ some '\r' := by
      intro hlast
      have := hline '\r' (List.mem_of_getLast? hlast)
      exact absurd this (by decide)
    have hwritten : written (line :: rest) = line ++ '\n' :: written rest := by
      rw [written, List.flatMap_cons, List.append_assoc]
      rfl
    rw [hwritten, splitLines_append hlast, splitLines_of_unbroken hline,
      ih fun l hl => h l (List.mem_cons_of_mem line hl)]
    rfl

theorem sourceLines_written {lines : List (List Char)} (h : ∀ line ∈ lines, Clean line) :
    sourceLines (written lines) = numbered 1 (lines.map trimEnd ++ [[]]) := by
  have hcode : lines.map codeOf = lines.map trimEnd :=
    List.map_congr_left fun line hline => codeOf_of_clean (h line hline)
  rw [sourceLines, splitLines_written fun line hline => (h line hline).unbroken, List.map_append,
    hcode]
  rfl

end Text

open Text Grammar

instance (t : List Char) : Decidable (Header t) :=
  decidable_of_iff _ List.getLast?_eq_some_iff

/-- Whether a line is a header does not depend on the blanks around it, if those at its end are
    dropped anyway. -/
theorem header_trim {t : List Char} : Header (trim t) ↔ Header (trimEnd t) := by
  rw [trim_eq]
  generalize trimEnd t = t
  obtain ⟨blanks, heq, hblanks⟩ := exists_append_trimStart t
  constructor
  · rintro ⟨names, hnames⟩
    exact ⟨blanks ++ names, by rw [List.append_assoc, ← hnames]; exact heq⟩
  · rintro ⟨names, hnames⟩
    rcases List.eq_nil_or_concat (trimStart t) with hnil | ⟨init, c, hlast⟩
    · -- a text of blanks does not end in a colon
      rw [hnil, List.append_nil] at heq
      have hcolon := hblanks ':' (by rw [← heq, hnames]; simp)
      exact absurd hcolon (by decide)
    · refine ⟨init, ?_⟩
      rw [hlast, List.concat_eq_append, ← List.append_assoc, hnames] at heq
      rw [hlast, List.concat_eq_append, (List.append_inj' heq rfl).2]

/-! ## A declaration with its name above it -/

/-- A name that a header can list alone. -/
structure IsName (name : List Char) : Prop where
  full : name ≠ []
  trimmed : trim name = name
  single : ',' ∉ name
  clean : Clean name

instance (name : List Char) : Decidable (IsName name) :=
  decidable_of_iff (name ≠ [] ∧ trim name = name ∧ ',' ∉ name ∧ Clean name)
    ⟨fun h => ⟨h.1, h.2.1, h.2.2.1, h.2.2.2⟩, fun h => ⟨h.full, h.trimmed, h.single, h.clean⟩⟩

/-- The header of one declaration. -/
def headerLine (name : List Char) : List Char := name ++ [':']

theorem names_headerLine {name : List Char} (h : IsName name) (n : Nat) (body : List Line) :
    Block.names ⟨⟨n, headerLine name⟩, body⟩ = .ok [String.ofList name] := by
  have hpieces : pieces ',' name = [name] := by
    rw [pieces_eq_splitOn]
    exact List.splitOnP_eq_singleton fun c hc => by
      simpa using fun heq : c = ',' => h.single (heq ▸ hc)
  have hfull : name.isEmpty = false := List.isEmpty_eq_false_iff.mpr h.full
  have hparts : (pieces ',' (headerLine name).dropLast).map trim = [name] := by
    rw [headerLine, List.dropLast_concat, hpieces, List.map_singleton, h.trimmed]
  rw [Block.names]
  simp only [hparts, List.any_cons, List.any_nil, hfull]
  rfl

theorem clean_headerLine {name : List Char} (h : IsName name) : Clean (headerLine name) :=
  h.clean.append_single (by decide) (by decide)

theorem trimEnd_headerLine (name : List Char) : trimEnd (headerLine name) = headerLine name := by
  refine trimEnd_eq_self fun c hc => ?_
  rw [headerLine, List.getLast?_concat, Option.some.injEq] at hc
  rw [← hc]
  decide

/-- A line that is neither left out of a body nor ends it. -/
structure IsStatement (line : List Char) : Prop where
  clean : Clean line
  full : trim line ≠ []
  plain : ¬ Header (trim line)

/-- Lines that are not empty are kept. -/
theorem filter_numbered {texts : List (List Char)} (h : ∀ t ∈ texts, trim t ≠ []) (n : Nat) :
    (numbered n texts).filter (!·.isEmpty) = numbered n texts := by
  rw [List.filter_eq_self]
  intro l hl
  have hfull := h l.text (text_mem_of_mem_numbered hl)
  rw [ne_eq, trim_eq_nil, ← Blank, ← Grammar.isEmpty_iff] at hfull
  simpa using hfull

/-- The block of a name and the lines below it.  The last line has nothing on it. -/
def blockOf (name : List Char) (lines : List (List Char)) : Block :=
  ⟨⟨1, headerLine name⟩, numbered 2 (lines.map trimEnd ++ [[]])⟩

theorem split_written {name : List Char} (hname : IsName name) {lines : List (List Char)}
    (h : ∀ line ∈ lines, IsStatement line) :
    Block.split (sourceLines (written (headerLine name :: lines))) =
      ([], [blockOf name lines]) := by
  have hclean : ∀ line ∈ headerLine name :: lines, Clean line := by
    intro line hline
    rcases List.mem_cons.mp hline with rfl | hline
    · exact clean_headerLine hname
    · exact (h line hline).clean
  have hheader : isHeader ⟨1, headerLine name⟩ = true := isHeader_iff.mpr ⟨name, rfl⟩
  have hplain : ∀ l ∈ numbered 2 (lines.map trimEnd ++ [[]]), isHeader l = false := by
    refine forall_not_header_iff.mp ?_
    rw [map_text_numbered]
    intro t ht
    rcases List.mem_append.mp ht with ht | ht
    · obtain ⟨line, hline, rfl⟩ := List.mem_map.mp ht
      exact fun hend => (h line hline).plain (header_trim.mpr hend)
    · rw [List.mem_singleton.mp ht]
      rintro ⟨names, hnames⟩
      exact absurd hnames (by simp)
  have hbody := Block.split_append_plain hplain []
  rw [List.append_nil, Block.split, List.append_nil] at hbody
  rw [sourceLines_written hclean, List.map_cons, trimEnd_headerLine, List.cons_append, numbered,
    Block.split_header hheader, hbody, blockOf]

theorem statements_blockOf (name : List Char) {lines : List (List Char)}
    (h : ∀ line ∈ lines, IsStatement line) :
    (blockOf name lines).statements = numbered 2 (lines.map trimEnd) := by
  rw [Block.statements, blockOf, numbered_append, List.filter_append, filter_numbered]
  · exact List.append_nil _
  · intro t ht
    obtain ⟨line, hline, rfl⟩ := List.mem_map.mp ht
    rw [trim_trimEnd]
    exact (h line hline).full

/-- **A source with one declaration.** -/
theorem parse_written {name : List Char} (hname : IsName name) {lines : List (List Char)}
    (hlines : ∀ line ∈ lines, IsStatement line) (hfull : lines ≠ []) {body : Body}
    (hread : (Body.read (numbered 2 (lines.map trimEnd))).2 = .ok body) (identifier : String) :
    (parse (String.ofList (written (headerLine name :: lines))) identifier).2 =
      .ok ⟨identifier, ⟨[(String.ofList name, (body.apply (.empty (String.ofList name))).2)]⟩⟩ := by
  obtain ⟨doc, hdoc⟩ : ∃ doc : Document, doc =
      ⟨identifier, ⟨[(String.ofList name, (body.apply (.empty (String.ofList name))).2)]⟩⟩ :=
    ⟨_, rfl⟩
  -- the block is read, and stated under its name
  obtain ⟨events, happly⟩ : ∃ events,
      (blockOf name lines).apply (.empty identifier) = (events, .ok doc) := by
    obtain ⟨line, rest, hcons⟩ := List.exists_cons_of_ne_nil hfull
    have hsome : (numbered 2 (lines.map trimEnd)).isEmpty = false := by
      rw [hcons]
      rfl
    rw [Block.apply, blockOf, names_headerLine hname, ← blockOf, statements_blockOf name hlines]
    dsimp only
    rw [if_neg (by simp [hsome])]
    rcases hbody : Body.read (numbered 2 (lines.map trimEnd)) with ⟨events, r⟩
    rw [hbody] at hread
    obtain rfl : r = .ok body := hread
    exact ⟨_, by rw [hdoc]; rfl⟩
  have hparsed : parseInto (.empty identifier)
      (String.ofList (written (headerLine name :: lines))) = ⟨doc, none, events ++ []⟩ := by
    rw [parseInto_eq, String.toList_ofList, parseLines, split_written hname hlines]
    show applyBlocks _ [_] = _
    rw [applyBlocks, happly]
    rfl
  rw [parse, hparsed, hdoc]

end ViewSheet
