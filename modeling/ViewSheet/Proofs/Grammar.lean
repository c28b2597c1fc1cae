/-
  Grammar: which sources are documents, and what is said of the others.

  1. **Specification**: `Wrong before t detail notes` holds of a line `t` that must not stand below
     the lines `before`: a text above every header, a header with an empty name, a line of a body
     that starts with a point and is not a setter, or, in a body that names views, a line with a
     blank inside.  It is put in terms of characters, and says what is told about the line.

  2. **The crux**: the parser cuts lines into blocks before it looks at them, but what it says of a
     line depends on the lines above alone.  So it refuses no lines without a wrong one among them
     (`blamed_of_linesRefusal`), and for a wrong line below lines that it does not refuse it refuses
     all of them (`linesRefusal_of_blamed`).

  3. **Result** (`parse_grammar`): a source is a document exactly when none of its lines is wrong,
     and the error is about the first that is.
-/
import Mathlib.Data.List.Induction
import ViewSheet.Proofs.Pieces
import ViewSheet.Proofs.Refusals

namespace ViewSheet

open Text

namespace Grammar

/-! ## Single lines -/

/-- Nothing but blanks. -/
def Blank (t : List Char) : Prop := ∀ c ∈ t, isBlank c = true

/-- A line that ends in a colon. -/
def Header (t : List Char) : Prop := ∃ names, t = names ++ [':']

/-- Before the colon, a piece between commas has nothing but blanks on it. -/
def LacksName (t : List Char) : Prop :=
  ∃ names piece, t = names ++ [':'] ∧ IsPiece ',' piece names ∧ Blank piece

/-- The first name of a header. -/
def firstName (t : List Char) : String := String.ofList (trim (t.dropLast.takeWhile (· ≠ ',')))

/-- A line that starts with a point, blanks apart. -/
def Pointed (t : List Char) : Prop := ∃ indent rest, t = indent ++ '.' :: rest ∧ Blank indent

/-- A point, letters and numbers, an equals sign, and anything; with blanks in between. -/
def Setter (t : List Char) : Prop :=
  ∃ indent gap key gap' value, t = indent ++ '.' :: (gap ++ (key ++ (gap' ++ '=' :: value))) ∧
    Blank indent ∧ Blank gap ∧ Blank gap' ∧ key ≠ [] ∧ ∀ c ∈ key, isAlphanumeric c = true

/-- A line with a blank inside. -/
def Spaced (t : List Char) : Prop := ∃ c ∈ trim t, isBlank c = true

theorem Pointed.not_blank {t : List Char} (h : Pointed t) : ¬ Blank t := by
  obtain ⟨indent, rest, rfl, -⟩ := h
  intro hblank
  exact absurd (hblank '.' (by simp)) (by decide)

theorem Spaced.not_blank {t : List Char} (h : Spaced t) : ¬ Blank t := by
  obtain ⟨c, hc, -⟩ := h
  intro hblank
  rw [trim_eq_nil.mpr hblank] at hc
  cases hc

/-! ## Lines where they stand -/

/-- The next line belongs to the body of a header `h`, and `body` is the body so far. -/
structure Under (before : List (List Char)) (h : List Char) (body : List (List Char)) : Prop where
  above : ∃ earlier, before = earlier ++ h :: body
  header : Header h
  plain : ∀ t ∈ body, ¬ Header t

/-- The first line that is not blank starts with a point. -/
def StartsPointed (lines : List (List Char)) : Prop :=
  ∃ blanks first rest, lines = blanks ++ first :: rest ∧ (∀ t ∈ blanks, Blank t) ∧ Pointed first

/-- **Why a line is wrong** below the lines `before`: what is said about it, and what was being
    done. -/
inductive Wrong (before : List (List Char)) (t : List Char) : String → List String → Prop where
  /-- A text above every header. -/
  | stray (full : ¬ Blank t) (plain : ¬ Header t) (above : ∀ u ∈ before, ¬ Header u) :
      Wrong before t
        (let text := String.ofList (trim t)
         s!"Unrecognized plain text '{text}'. Add ':' to the end to make a declaration") []
  /-- A header with an empty name. -/
  | unnamed (lacks : LacksName t) :
      Wrong before t s!"Empty declaration name in '{String.ofList (trim t)}'" []
  /-- In a body of setters, a line that starts like a setter and is none. -/
  | noSetter {h : List Char} {body : List (List Char)} (under : Under before h body)
      (plain : ¬ Header t) (setters : StartsPointed (body ++ [t])) (pointed : Pointed t)
      (formless : ¬ Setter t) :
      Wrong before t s!"Expected a property setter statement, saw '{String.ofList (trim t)}'"
        ["while parsing declaration '" ++ firstName h ++ "'"]
  /-- In a body of view names, a line with a blank inside. -/
  | spaced {h : List Char} {body : List (List Char)} (under : Under before h body)
      (plain : ¬ Header t) (names : ¬ StartsPointed (body ++ [t])) (spaced : Spaced t) :
      Wrong before t s!"Expected a single view name, saw '{String.ofList (trim t)}'"
        ["while parsing declaration '" ++ firstName h ++ "'"]

/-- No line is wrong where it stands. -/
def Accepted (lines : List (List Char)) : Prop :=
  ∀ before t after, lines = before ++ t :: after → ∀ detail notes, ¬ Wrong before t detail notes

/-- If not all lines are accepted, there is a first that is wrong. -/
theorem accepted_or_first (lines : List (List Char)) :
    Accepted lines ∨ ∃ before t after detail notes, lines = before ++ t :: after ∧
      Accepted before ∧ Wrong before t detail notes := by
  -- from the end, for a line has no part in what is wrong above it
  induction lines using List.reverseRecOn with
  | nil =>
    refine Or.inl fun before t after h => ?_
    simp at h
  | append_singleton lines t ih =>
    rcases ih with hlines | ⟨before, u, after, detail, notes, rfl, hbefore, hwrong⟩
    · by_cases ht : ∃ detail notes, Wrong lines t detail notes
      · obtain ⟨detail, notes, hwrong⟩ := ht
        exact Or.inr ⟨lines, t, [], detail, notes, rfl, hlines, hwrong⟩
      · refine Or.inl fun before u after h detail notes hwrong => ?_
        rcases List.eq_nil_or_concat after with rfl | ⟨init, last, rfl⟩
        · obtain ⟨rfl, rfl⟩ := List.append_inj' h rfl |>.imp id List.singleton_inj.mp
          exact ht ⟨detail, notes, hwrong⟩
        · rw [List.concat_eq_append, ← List.cons_append, ← List.append_assoc] at h
          exact hlines before u init (List.append_inj' h rfl).1 detail notes hwrong
    · exact Or.inr ⟨before, u, after ++ [t], detail, notes, by simp, hbefore, hwrong⟩

/-! ## What the program looks for -/

theorem isEmpty_iff {l : Line} : l.isEmpty = true ↔ Blank l.text := List.all_eq_true

theorem isHeader_iff {l : Line} : isHeader l = true ↔ Header l.text := by
  rw [isHeader, beq_iff_eq, List.getLast?_eq_some_iff]
  rfl

theorem isHeader_eq_false_iff {l : Line} : isHeader l = false ↔ ¬ Header l.text := by
  rw [← isHeader_iff, Bool.not_eq_true]

/-- Lines without a header. -/
theorem forall_not_header_iff {lines : List Line} :
    (∀ t ∈ lines.map (·.text), ¬ Header t) ↔ ∀ l ∈ lines, isHeader l = false := by
  rw [List.forall_mem_map]
  exact forall₂_congr fun _ _ => isHeader_eq_false_iff.symm

theorem opens_iff {l : Line} : Assignment.opens l = true ↔ Pointed l.text := by
  rw [Assignment.opens, beq_iff_eq, List.head?_eq_some_iff]
  constructor
  · rintro ⟨rest, hrest⟩
    obtain ⟨indent, heq, hindent⟩ := exists_append_trimStart l.text
    exact ⟨indent, rest, hrest ▸ heq, hindent⟩
  · rintro ⟨indent, rest, heq, hindent⟩
    exact ⟨rest, by rw [heq, trimStart_append hindent, trimStart_cons rfl]⟩

theorem errorOf?_names {b : Block} {e : Error} (hh : Header b.header.text) :
    errorOf? b.names = some e ↔ LacksName b.header.text ∧
      e = .unrecognized s!"Empty declaration name in '{String.ofList (trim b.header.text)}'"
        b.header.number := by
  obtain ⟨names, hnames⟩ := hh
  have hlacks : (((pieces ',' b.header.text.dropLast).map trim).any (·.isEmpty)) = true ↔
      LacksName b.header.text := by
    rw [List.any_map, List.any_eq_true, hnames, List.dropLast_concat]
    constructor
    · rintro ⟨piece, hpiece, hempty⟩
      exact ⟨names, piece, rfl, mem_pieces.mp hpiece,
        trim_eq_nil.mp (List.isEmpty_iff.mp hempty)⟩
    · rintro ⟨names', piece, heq, hpiece, hblank⟩
      rw [List.append_cancel_right heq]
      exact ⟨piece, mem_pieces.mpr hpiece, List.isEmpty_iff.mpr (trim_eq_nil.mpr hblank)⟩
  rw [Block.names, ← hlacks]
  split
  · rename_i h
    rw [errorOf?, Option.some.injEq]
    exact ⟨fun heq => ⟨h, heq.symm⟩, fun heq => heq.2.symm⟩
  · rename_i h
    constructor
    · intro heq
      cases heq
    · exact fun heq => absurd heq.1 h

/-- A setter reads as an assignment of what is behind the equals sign. -/
theorem read_setter {indent gap key gap' : List Char} (hindent : Blank indent) (hgap : Blank gap)
    (hgap' : Blank gap') (hkey : key ≠ []) (hkeys : ∀ c ∈ key, isAlphanumeric c = true)
    (value : List Char) (n : Nat) :
    Assignment.read ⟨n, indent ++ '.' :: (gap ++ (key ++ (gap' ++ '=' :: value)))⟩ =
      .ok ⟨String.ofList key, trim value, n⟩ := by
  obtain ⟨k, ks, rfl⟩ := List.exists_cons_of_ne_nil hkey
  have hk : isBlank k = false := by
    by_contra hblank
    rw [Bool.not_eq_false] at hblank
    have hnot := not_isAlphanumeric_of_isBlank hblank
    rw [hkeys k List.mem_cons_self] at hnot
    cases hnot
  -- what follows the letters and numbers of the key is a blank or the equals sign
  have hstop : (gap' ++ '=' :: value).takeWhile isAlphanumeric = [] ∧
      (gap' ++ '=' :: value).dropWhile isAlphanumeric = gap' ++ '=' :: value := by
    cases gap' with
    | nil =>
      have heq : ¬ isAlphanumeric '=' = true := by decide
      exact ⟨List.takeWhile_cons_of_neg heq, List.dropWhile_cons_of_neg heq⟩
    | cons b bs =>
      have hb := not_isAlphanumeric_of_isBlank (hgap' b List.mem_cons_self)
      exact ⟨List.takeWhile_cons_of_neg (by simp [hb]), List.dropWhile_cons_of_neg (by simp [hb])⟩
  have hstart : trimStart (indent ++ '.' :: (gap ++ (k :: ks ++ (gap' ++ '=' :: value)))) =
      ['.'] ++ (gap ++ (k :: ks ++ (gap' ++ '=' :: value))) := by
    rw [trimStart_append hindent, trimStart_cons rfl]
    rfl
  have hrest : trimStart (gap ++ (k :: ks ++ (gap' ++ '=' :: value))) =
      k :: ks ++ (gap' ++ '=' :: value) := by
    rw [trimStart_append hgap, List.cons_append, trimStart_cons hk]
  have hequals : trimStart (gap' ++ '=' :: value) = ['='] ++ value := by
    rw [trimStart_append hgap', trimStart_cons rfl]
    rfl
  rw [Assignment.read]
  dsimp only
  rw [hstart, stripStart?_append]
  dsimp only
  rw [hrest, List.takeWhile_append_of_pos hkeys, List.dropWhile_append_of_pos hkeys, hstop.1,
    hstop.2, hequals, stripStart?_append, List.append_nil]
  rfl

theorem read_of_setter {l : Line} (h : Setter l.text) : errorOf? (Assignment.read l) = none := by
  obtain ⟨indent, gap, key, gap', value, heq, hindent, hgap, hgap', hkey, hkeys⟩ := h
  have hl : l = ⟨l.number, l.text⟩ := rfl
  rw [hl, heq, read_setter hindent hgap hgap' hkey hkeys]
  rfl

/-- What reads as an assignment is a setter. -/
theorem setter_of_read {l : Line} (h : errorOf? (Assignment.read l) = none) : Setter l.text := by
  rw [Assignment.read] at h
  cases hpoint : stripStart? ['.'] (trimStart l.text) with
  | none =>
    rw [hpoint] at h
    cases h
  | some afterPoint =>
    rw [hpoint] at h
    dsimp only at h
    split at h
    · cases h
    · rename_i hkey
      cases hequals : stripStart? ['='] (trimStart ((trimStart afterPoint).dropWhile
          isAlphanumeric)) with
      | none =>
        rw [hequals] at h
        cases h
      | some value =>
        obtain ⟨indent, hl, hindent⟩ := exists_append_trimStart l.text
        obtain ⟨gap, hgap, hgaps⟩ := exists_append_trimStart afterPoint
        obtain ⟨gap', hgap', hgaps'⟩ :=
          exists_append_trimStart ((trimStart afterPoint).dropWhile isAlphanumeric)
        refine ⟨indent, gap, (trimStart afterPoint).takeWhile isAlphanumeric, gap', value, ?_,
          hindent, hgaps, hgaps', by simpa using hkey, fun _ => List.mem_takeWhile_imp⟩
        have hvalue := eq_append_of_stripStart? hequals
        have hkeys : trimStart afterPoint = (trimStart afterPoint).takeWhile isAlphanumeric ++
            (gap' ++ '=' :: value) := by
          rw [← List.singleton_append, ← hvalue, ← hgap', List.takeWhile_append_dropWhile]
        rw [← hkeys, ← hgap, ← List.singleton_append, ← eq_append_of_stripStart? hpoint]
        exact hl

theorem firstName_eq (b : Block) : b.firstName = firstName b.header.text := by
  rw [Block.firstName, headD_pieces]
  rfl

/-- There is one complaint about lines that are no setters. -/
theorem eq_expected_of_read {l : Line} {e : Error} (h : errorOf? (Assignment.read l) = some e) :
    e = Assignment.expected l := by
  rw [errorOf?_eq_some, Assignment.read] at h
  split at h
  · exact (Except.error.inj h).symm
  · dsimp only at h
    split at h
    · exact (Except.error.inj h).symm
    · split at h
      · exact (Except.error.inj h).symm
      · cases h

theorem assignment_refusal?_iff {l : Line} {e : Error} :
    Assignment.refusal? l = some e ↔
      Pointed l.text ∧ ¬ Setter l.text ∧ e = Assignment.expected l := by
  rw [Assignment.refusal?, ← opens_iff]
  split
  · rename_i hopens
    constructor
    · intro hread
      refine ⟨hopens, fun hsetter => ?_, eq_expected_of_read hread⟩
      rw [read_of_setter hsetter] at hread
      cases hread
    · rintro ⟨-, hnone, rfl⟩
      cases hread : errorOf? (Assignment.read l) with
      | none => exact absurd (setter_of_read hread) hnone
      | some e => rw [eq_expected_of_read hread]
  · rename_i hopens
    constructor
    · intro heq
      cases heq
    · exact fun heq => absurd heq.1 hopens

theorem growth_refusal?_iff {l : Line} {e : Error} :
    Growth.refusal? l = some e ↔ Spaced l.text ∧ e = Growth.crowded l := by
  have hany : (trim l.text).any isBlank = true ↔ Spaced l.text := List.any_eq_true
  rw [Growth.refusal?, ← hany]
  split
  · rename_i h
    rw [Option.some.injEq]
    exact ⟨fun heq => ⟨h, heq.symm⟩, fun heq => heq.2.symm⟩
  · rename_i h
    constructor
    · intro heq
      cases heq
    · exact fun heq => absurd heq.1 h

/-! ## Lines of a body -/

/-- Two bodies below the same lines are one. -/
theorem Under.unique {before body body' : List (List Char)} {h h' : List Char}
    (u : Under before h body) (u' : Under before h' body') : h = h' ∧ body = body' := by
  obtain ⟨earlier, hearlier⟩ := u.above
  obtain ⟨earlier', hearlier'⟩ := u'.above
  rw [hearlier] at hearlier'
  rcases List.append_eq_append_iff.mp hearlier' with ⟨between, -, hsplit⟩ | ⟨between, -, hsplit⟩
  · cases between with
    | nil => exact List.cons.inj hsplit
    | cons k ks =>
      -- the lower header would stand in the body of the upper one
      rw [(List.cons.inj hsplit).2] at u
      exact absurd u'.header (u.plain h' (List.mem_append_right ks List.mem_cons_self))
  · cases between with
    | nil => exact (List.cons.inj hsplit).imp Eq.symm Eq.symm
    | cons k ks =>
      rw [(List.cons.inj hsplit).2] at u'
      exact absurd u.header (u'.plain h (List.mem_append_right ks List.mem_cons_self))

/-- Where a text stands among the texts of lines, its line stands among the lines. -/
theorem exists_line {lines : List Line} {before after : List (List Char)} {t : List Char}
    (h : lines.map (·.text) = before ++ t :: after) :
    ∃ above l below, lines = above ++ l :: below ∧ above.map (·.text) = before ∧ l.text = t ∧
      below.map (·.text) = after := by
  obtain ⟨above, more, rfl, habove, hmore⟩ := List.map_eq_append_iff.mp h
  obtain ⟨l, below, rfl, hl, hbelow⟩ := List.map_eq_cons_iff.mp hmore
  exact ⟨above, l, below, rfl, habove, hl, hbelow⟩

/-- What a body starts with is its first line that is not blank. -/
theorem startsPointed_iff {lines : List Line} {first : Line} {rest : List Line}
    (h : lines.filter (!·.isEmpty) = first :: rest) :
    StartsPointed (lines.map (·.text)) ↔ Assignment.opens first = true := by
  rw [opens_iff]
  constructor
  · rintro ⟨blanks, t, more, hsplit, hblanks, hpointed⟩
    obtain ⟨above, l, below, rfl, rfl, rfl, -⟩ := exists_line hsplit
    have habove : above.filter (!·.isEmpty) = [] := by
      rw [List.filter_eq_nil_iff]
      intro k hk
      rw [isEmpty_iff.mpr (hblanks k.text (List.mem_map_of_mem hk))]
      exact Bool.false_ne_true
    have hl : (!l.isEmpty) = true := by
      rw [Bool.not_eq_true', Bool.eq_false_iff]
      exact mt isEmpty_iff.mp hpointed.not_blank
    rw [List.filter_append, habove, List.nil_append, List.filter_cons, if_pos hl] at h
    rw [← (List.cons.inj h).1]
    exact hpointed
  · intro hpointed
    obtain ⟨blanks, more, rfl, hblanks, -, -⟩ := List.filter_eq_cons_iff.mp h
    refine ⟨blanks.map (·.text), first.text, more.map (·.text), by simp, ?_, hpointed⟩
    intro t hmem
    obtain ⟨l, hl, rfl⟩ := List.mem_map.mp hmem
    exact isEmpty_iff.mp (by simpa using hblanks l hl)

/-- Something is wrong with a line below others, and this is the error. -/
def Blamed (before : List Line) (l : Line) (e : Error) : Prop :=
  ∃ detail notes, Wrong (before.map (·.text)) l.text detail notes ∧
    e = ⟨.unrecognized detail l.number, notes⟩

/-- A line of a body is refused if it is wrong. -/
theorem lineRefusal?_iff {before : List Line} (body : List Line) {l first : Line}
    {rest : List Line} {b : Block} {e : Error}
    (under : Under (before.map (·.text)) b.header.text (body.map (·.text)))
    (plain : ¬ Header l.text) (hfirst : (body ++ [l]).filter (!·.isEmpty) = first :: rest) :
    b.lineRefusal? first l = some e ↔ Blamed before l e := by
  have hstart := startsPointed_iff hfirst
  rw [List.map_append, List.map_singleton] at hstart
  rw [Block.lineRefusal?, firstName_eq, Option.map_eq_some_iff, Body.refusal?]
  constructor
  · rintro ⟨e', he', rfl⟩
    split at he'
    · rename_i hopens
      obtain ⟨hpointed, hnone, rfl⟩ := assignment_refusal?_iff.mp he'
      exact ⟨_, _, .noSetter under plain (hstart.mpr hopens) hpointed hnone, rfl⟩
    · rename_i hopens
      obtain ⟨hspaced, rfl⟩ := growth_refusal?_iff.mp he'
      exact ⟨_, _, .spaced under plain (mt hstart.mp hopens) hspaced, rfl⟩
  · rintro ⟨detail, notes, hwrong, rfl⟩
    cases hwrong with
    | stray full plain above =>
      obtain ⟨earlier, hearlier⟩ := under.above
      exact absurd under.header (above _ (by rw [hearlier]; simp))
    | unnamed lacks =>
      obtain ⟨names, piece, heq, -⟩ := lacks
      exact absurd ⟨names, heq⟩ plain
    | noSetter under' plain setters pointed formless =>
      obtain ⟨rfl, rfl⟩ := under.unique under'
      refine ⟨Assignment.expected l, ?_, rfl⟩
      rw [if_pos (hstart.mp setters)]
      exact assignment_refusal?_iff.mpr ⟨pointed, formless, rfl⟩
    | spaced under' plain names spaced =>
      obtain ⟨rfl, rfl⟩ := under.unique under'
      refine ⟨Growth.crowded l, ?_, rfl⟩
      rw [if_neg (mt hstart.mpr names)]
      exact growth_refusal?_iff.mpr ⟨spaced, rfl⟩

/-! ## Refused lines and wrong lines -/

/-- Lines above the first header are refused if they are wrong. -/
theorem blamed_of_leadRefusal {lead : List Line} {e : Error}
    (hplain : ∀ l ∈ lead, isHeader l = false) (h : leadRefusal? lead = some e) :
    ∃ before l after, lead = before ++ l :: after ∧ Blamed before l e := by
  obtain ⟨l, hfind, rfl⟩ := Option.map_eq_some_iff.mp h
  obtain ⟨hfull, before, after, rfl, -⟩ := List.find?_eq_some_iff_append.mp hfind
  refine ⟨before, l, after, rfl, _, _, .stray ?_ ?_ ?_, rfl⟩
  · rw [← isEmpty_iff]
    simpa using hfull
  · exact isHeader_eq_false_iff.mp (hplain l (by simp))
  · exact forall_not_header_iff.mpr fun k hk => hplain k (List.mem_append_left _ hk)

/-- A refused block has a wrong line. -/
theorem blamed_of_refusal (above : List Line) {b : Block} {e : Error}
    (hheader : isHeader b.header = true) (hplain : ∀ l ∈ b.body, isHeader l = false)
    (h : b.refusal? = some e) :
    ∃ before l after, b.header :: b.body = before ++ l :: after ∧ Blamed (above ++ before) l e := by
  have hh := isHeader_iff.mp hheader
  rw [Block.refusal?] at h
  split at h
  · rename_i e' hnames
    cases h
    obtain ⟨hlacks, rfl⟩ := (errorOf?_names hh).mp hnames
    exact ⟨[], b.header, b.body, rfl, _, _, .unnamed hlacks, rfl⟩
  · split at h
    · cases h
    · rename_i first rest hbody
      rw [← hbody] at h
      obtain ⟨l, hl, he⟩ := List.exists_of_findSome?_eq_some h
      obtain ⟨hmem, hfull⟩ := List.mem_filter.mp hl
      obtain ⟨seen, more, hsplit⟩ := List.append_of_mem hmem
      -- the line is not blank, so the body starts at it or above it
      have hfirst : ∃ rest, (seen ++ [l]).filter (!·.isEmpty) = first :: rest := by
        have hne : (seen ++ [l]).filter (!·.isEmpty) ≠ [] :=
          List.ne_nil_of_mem (List.mem_filter.mpr ⟨by simp, hfull⟩)
        obtain ⟨k, ks, hk⟩ := List.exists_cons_of_ne_nil hne
        rw [Block.statements, hsplit, List.append_cons, List.filter_append, hk] at hbody
        exact ⟨ks, by rw [hk, (List.cons.inj hbody).1]⟩
      obtain ⟨rest', hfirst⟩ := hfirst
      refine ⟨b.header :: seen, l, more, by rw [hsplit, List.cons_append], ?_⟩
      refine (lineRefusal?_iff seen ⟨⟨above.map (·.text), by simp⟩, hh, ?_⟩ ?_ hfirst).mp he
      · refine forall_not_header_iff.mpr fun k hk => hplain k ?_
        rw [hsplit]
        exact List.mem_append_left _ hk
      · exact isHeader_eq_false_iff.mp (hplain l hmem)

/-- Lines that are refused have a wrong one among them. -/
theorem blamed_of_linesRefusal {lines : List Line} {e : Error} (h : linesRefusal? lines = some e) :
    ∃ before l after, lines = before ++ l :: after ∧ Blamed before l e := by
  have hlines := Block.flatten_split lines
  rcases Option.or_eq_some_iff.mp h with hlead | ⟨-, hblocks⟩
  · obtain ⟨before, l, after, hsplit, hblamed⟩ :=
      blamed_of_leadRefusal (fun _ => Block.not_isHeader_of_mem_lead) hlead
    rw [hsplit, List.append_assoc, List.cons_append] at hlines
    exact ⟨before, l, _, hlines.symm, hblamed⟩
  · obtain ⟨done, b, rest, hsplit, hb, -⟩ := List.findSome?_eq_some_iff.mp hblocks
    have hmem : b ∈ (Block.split lines).2 := by
      rw [hsplit]
      exact List.mem_append_right done List.mem_cons_self
    rw [hsplit, List.flatMap_append, List.flatMap_cons] at hlines
    obtain ⟨before, l, after, hblock, hblamed⟩ := blamed_of_refusal
      ((Block.split lines).1 ++ done.flatMap fun b => b.header :: b.body)
      (Block.isHeader_of_mem_split hmem) (fun _ => Block.not_isHeader_of_mem_body hmem) hb
    refine ⟨_, l, after ++ rest.flatMap fun b => b.header :: b.body, hlines.symm.trans ?_, hblamed⟩
    rw [hblock]
    simp only [List.append_assoc, List.cons_append]

/-- Below lines that are not refused, a wrong line above every header is what lines are refused
    for. -/
theorem linesRefusal_stray {before : List Line} {l : Line} (hbefore : linesRefusal? before = none)
    (above : ∀ k ∈ before, isHeader k = false) (plain : isHeader l = false)
    (full : l.isEmpty = false) (after : List Line) :
    linesRefusal? (before ++ l :: after) = some (strayRefusal l) := by
  have hsplit : Block.split before = (before, []) := by
    have h := Block.split_append_plain above []
    rw [List.append_nil] at h
    exact h.trans (Prod.ext (List.append_nil before) rfl)
  rw [linesRefusal?, hsplit, Option.or_eq_none_iff, leadRefusal?, Option.map_eq_none_iff] at hbefore
  rw [linesRefusal?, Block.split_append_plain above, Block.split_plain plain, leadRefusal?,
    List.find?_append, hbefore.1, Option.none_or, List.find?_cons_of_pos (by simp [full])]
  rfl

/-- Lines with a header among them are refused for what stands above it, or for its block, or for
    what stands below the block. -/
theorem linesRefusal_append (before : List Line) {h : Line} (hh : isHeader h = true)
    {body : List Line} (plain : ∀ k ∈ body, isHeader k = false) (after : List Line) :
    linesRefusal? (before ++ h :: (body ++ after)) =
      (linesRefusal? before).or ((Block.refusal? ⟨h, body ++ (Block.split after).1⟩).or
        ((Block.split after).2.findSome? Block.refusal?)) := by
  rw [linesRefusal?, Block.split_append_header before hh, List.findSome?_append, ← Option.or_assoc,
    ← linesRefusal?, Block.split_header hh, Block.split_append_plain plain, List.findSome?_cons]
  cases Block.refusal? ⟨h, body ++ (Block.split after).1⟩ <;> rfl

/-- A block that is not refused is refused with one more line if that line is. -/
theorem refusal?_append {h : Line} {body : List Line} {l : Line} {e : Error}
    (hbody : Block.refusal? ⟨h, body⟩ = none) (full : l.isEmpty = false)
    (hline : ∀ first rest, (body ++ [l]).filter (!·.isEmpty) = first :: rest →
      Block.lineRefusal? ⟨h, body⟩ first l = some e) (more : List Line) :
    Block.refusal? ⟨h, body ++ l :: more⟩ = some e := by
  have hstatements : Block.statements ⟨h, body ++ l :: more⟩ =
      Block.statements ⟨h, body⟩ ++ l :: more.filter (!·.isEmpty) := by
    simp [Block.statements, full]
  have hfilter : (body ++ [l]).filter (!·.isEmpty) = Block.statements ⟨h, body⟩ ++ [l] := by
    simp [Block.statements, full]
  rw [hfilter] at hline
  rw [Block.refusal?] at hbody ⊢
  have hnames : Block.names ⟨h, body ++ l :: more⟩ = Block.names ⟨h, body⟩ := rfl
  rw [hnames, hstatements]
  cases hn : errorOf? (Block.names ⟨h, body⟩) with
  | some e' =>
    rw [hn] at hbody
    cases hbody
  | none =>
    rw [hn] at hbody
    cases hs : Block.statements ⟨h, body⟩ with
    | nil =>
      rw [hs] at hline
      show (l :: more.filter (!·.isEmpty)).findSome? (Block.lineRefusal? ⟨h, body⟩ l) = some e
      rw [List.findSome?_cons, hline l [] rfl]
    | cons first rest =>
      rw [hs] at hline hbody
      show (first :: rest ++ l :: more.filter (!·.isEmpty)).findSome?
        (Block.lineRefusal? ⟨h, body⟩ first) = some e
      have hrest : (first :: rest).findSome? (Block.lineRefusal? ⟨h, body⟩ first) = none := hbody
      rw [List.findSome?_append, hrest, Option.none_or, List.findSome?_cons,
        hline first (rest ++ [l]) rfl]

/-- Below lines that are not refused, a wrong line of a body is what lines are refused for. -/
theorem linesRefusal_body {before : List Line} {l : Line} {e : Error}
    (hbefore : linesRefusal? before = none) {header : List Char} {body : List (List Char)}
    (under : Under (before.map (·.text)) header body) (plain : ¬ Header l.text)
    (full : ¬ Blank l.text) (hblamed : Blamed before l e) (after : List Line) :
    linesRefusal? (before ++ l :: after) = some e := by
  obtain ⟨earlier, hearlier⟩ := under.above
  obtain ⟨above, h, lines, rfl, rfl, rfl, rfl⟩ := exists_line hearlier
  have hh := isHeader_iff.mpr under.header
  have hlines := forall_not_header_iff.mp under.plain
  -- what is not refused without the line is the part above the header, and the block so far
  have habove := linesRefusal_append above hh hlines []
  rw [List.append_nil, hbefore, eq_comm, Option.or_eq_none_iff, Option.or_eq_none_iff, Block.split,
    List.append_nil] at habove
  have hl := isHeader_eq_false_iff.mpr plain
  have hmore : ∀ k ∈ lines ++ [l], isHeader k = false := by
    intro k hk
    rcases List.mem_append.mp hk with hk | hk
    · exact hlines k hk
    · rw [List.mem_singleton.mp hk]
      exact hl
  rw [List.append_assoc, List.cons_append, List.append_cons lines,
    linesRefusal_append above hh hmore, habove.1, Option.none_or, List.append_assoc,
    List.singleton_append,
    refusal?_append habove.2.1 (Bool.eq_false_iff.mpr (mt isEmpty_iff.mp full)) ?_, Option.some_or]
  intro first rest hfirst
  exact (lineRefusal?_iff lines under plain hfirst).mpr hblamed

/-- Below lines that are not refused, a wrong line is what the lines are refused for. -/
theorem linesRefusal_of_blamed {before : List Line} {l : Line} {e : Error}
    (hbefore : linesRefusal? before = none) (hblamed : Blamed before l e) (after : List Line) :
    linesRefusal? (before ++ l :: after) = some e := by
  obtain ⟨detail, notes, hwrong, rfl⟩ := id hblamed
  cases hwrong with
  | stray full plain above =>
    refine linesRefusal_stray hbefore (forall_not_header_iff.mp above)
      (isHeader_eq_false_iff.mpr plain) ?_ after
    rw [Bool.eq_false_iff]
    exact mt isEmpty_iff.mp full
  | unnamed lacks =>
    obtain ⟨names, piece, heq, -⟩ := id lacks
    have hrefused : ∀ body, Block.refusal? ⟨l, body⟩ = some (.unrecognized
        s!"Empty declaration name in '{String.ofList (trim l.text)}'" l.number) := by
      intro body
      rw [Block.refusal?, (errorOf?_names ⟨names, heq⟩).mpr ⟨lacks, rfl⟩]
    have h := linesRefusal_append before (isHeader_iff.mpr ⟨names, heq⟩)
      (List.forall_mem_nil (isHeader · = false)) after
    rw [hbefore, Option.none_or, hrefused, Option.some_or] at h
    exact h
  | noSetter under plain setters pointed formless =>
    exact linesRefusal_body hbefore under plain pointed.not_blank hblamed after
  | spaced under plain names spaced =>
    exact linesRefusal_body hbefore under plain spaced.not_blank hblamed after

/-! ## The grammar of a source -/

/-- Accepted lines are not refused. -/
theorem linesRefusal_of_accepted {texts : List (List Char)} (h : Accepted texts) (n : Nat) :
    linesRefusal? (numbered n texts) = none := by
  cases hrefused : linesRefusal? (numbered n texts) with
  | none => rfl
  | some e =>
    obtain ⟨before, l, after, hsplit, detail, notes, hwrong, -⟩ := blamed_of_linesRefusal hrefused
    have htexts := map_text_numbered n texts
    rw [hsplit, List.map_append, List.map_cons] at htexts
    exact absurd hwrong (h _ _ _ htexts.symm detail notes)

/-- Lines are refused for the first that is wrong. -/
theorem linesRefusal_of_wrong {before : List (List Char)} {t : List Char} {detail : String}
    {notes : List String} (hbefore : Accepted before) (hwrong : Wrong before t detail notes)
    (after : List (List Char)) :
    linesRefusal? (numbered 1 (before ++ t :: after)) =
      some ⟨.unrecognized detail (before.length + 1), notes⟩ := by
  rw [numbered_append, numbered, Nat.add_comm]
  refine linesRefusal_of_blamed (linesRefusal_of_accepted hbefore 1) ⟨detail, notes, ?_, rfl⟩ _
  rw [map_text_numbered]
  exact hwrong

theorem parse_eq (source identifier : String) :
    (parse source identifier).2 = match linesRefusal? (sourceLines source.toList) with
      | some e => .error (e.during s!"while parsing {identifier}")
      | none => .ok (parseInto (.empty identifier) source).document := by
  rw [← failure_parseLines (.empty identifier), ← parseInto_eq, parse]
  cases (parseInto (.empty identifier) source).failure <;> rfl

/-- **The parser accepts its grammar, and blames the first line that is wrong.**  A source is a
    document exactly when none of its lines is wrong where it stands.  Else the error says why the
    first wrong line is wrong, with its number. -/
theorem parse_grammar (source identifier : String) :
    let lines := (splitLines source.toList).map codeOf
    ((∃ doc, (parse source identifier).2 = .ok doc) ↔ Accepted lines) ∧
    ∀ e, (parse source identifier).2 = .error e ↔
      ∃ before t after detail notes, lines = before ++ t :: after ∧ Accepted before ∧
        Wrong before t detail notes ∧
        e = ⟨.unrecognized detail (before.length + 1),
          notes ++ [s!"while parsing {identifier}"]⟩ := by
  intro lines
  rw [parse_eq, sourceLines]
  rcases accepted_or_first lines with
    hlines | ⟨before, t, after, detail, notes, hsplit, hbefore, hwrong⟩
  · rw [linesRefusal_of_accepted hlines]
    refine ⟨⟨fun _ => hlines, fun _ => ⟨_, rfl⟩⟩, fun e => ?_⟩
    constructor
    · intro h
      cases h
    · rintro ⟨before, t, after, detail, notes, hsplit, -, hwrong, -⟩
      exact absurd hwrong (hlines before t after hsplit detail notes)
  · have hrefused := linesRefusal_of_wrong hbefore hwrong after
    rw [← hsplit] at hrefused
    rw [hrefused]
    refine ⟨⟨?_, fun h => absurd hwrong (h before t after hsplit _ _)⟩, fun e => ?_⟩
    · rintro ⟨doc, h⟩
      cases h
    constructor
    · intro h
      exact ⟨before, t, after, detail, notes, hsplit, hbefore, hwrong, (Except.error.inj h).symm⟩
    · rintro ⟨before', t', after', detail', notes', hsplit', hbefore', hwrong', rfl⟩
      have hrefused' := linesRefusal_of_wrong hbefore' hwrong' after'
      rw [← hsplit', hrefused, Option.some.injEq] at hrefused'
      rw [hrefused']
      rfl

example : errorOf? (parse "A:\n  B\n  C D\nE" "sheet").2 =
    some ⟨.unrecognized "Expected a single view name, saw 'C D'" 3,
      ["while parsing declaration 'A'", "while parsing sheet"]⟩ := by
  decide +kernel

end Grammar

end ViewSheet
