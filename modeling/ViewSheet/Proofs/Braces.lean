/-
  Braces: which texts are points, sizes, rectangles and insets.

  1. **Program**: numbers are read between braces, with a comma behind each or without one, and only
     then they are counted.

  2. **Specification**: `Listed` is the grammar of what stands behind the opening brace, as
     `(ws* num ws* ,?)* ws* }` with numbers that go as far as they can, and `Braced` puts the
     opening brace in front and says which numbers these are.

  3. **The crux** (`rounds_of_listed`, `listed_of_rounds`): the rounds read what is listed, and what
     they have read was listed.

  4. **Result** (`geometry_lists`): a list is read exactly if it is written in this way, and a
     point, a size, a rectangle or insets exactly if there are as many numbers as it has.
-/
import ViewSheet.Proofs.Advancing
import ViewSheet.Proofs.Blame

namespace ViewSheet

open Text

/-! ## Numbers in their places -/

theorem Vec2.ofList?_eq_some_iff {values : List Single} {v : Vec2} :
    Vec2.ofList? values = some v ↔ values = [v.x, v.y] := by
  unfold Vec2.ofList?
  constructor
  · intro h
    split at h
    · rw [← Option.some.inj h]
    · cases h
  · rintro rfl
    rfl

theorem Rect.ofList?_eq_some_iff {values : List Single} {r : Rect} :
    Rect.ofList? values = some r ↔
      values = [r.origin.x, r.origin.y, r.size.x, r.size.y] := by
  unfold Rect.ofList?
  constructor
  · intro h
    split at h
    · rw [← Option.some.inj h]
    · cases h
  · rintro rfl
    rfl

theorem Edges.ofList?_eq_some_iff {values : List Single} {e : Edges} :
    Edges.ofList? values = some e ↔ values = [e.top, e.left, e.bottom, e.right] := by
  unfold Edges.ofList?
  constructor
  · intro h
    split at h
    · rw [← Option.some.inj h]
    · cases h
  · rintro rfl
    rfl

namespace Cursor

/-! ## How a list is written -/

/-- Numbers as they are written, up to the closing brace, and what follows it. -/
inductive Listed : List (List Char) → List Char → List Char → Prop where
  /-- The closing brace. -/
  | close {blanks tail : List Char} (hblanks : ∀ c ∈ blanks, isBlank c = true) :
      Listed [] (blanks ++ '\x7d' :: tail) tail
  /-- A number that nothing follows which could belong to it, perhaps a comma, and more. -/
  | number {blanks num gap comma rest tail : List Char} {nums : List (List Char)}
      (hblanks : ∀ c ∈ blanks, isBlank c = true) (hnum : Decimal.IsLiteral num)
      (hgap : ∀ c ∈ gap, isBlank c = true) (hcomma : comma = [] ∨ comma = [','])
      (hwhole : ∀ c ∈ (gap ++ (comma ++ rest)).head?, isNumberChar c = false)
      (hrest : Listed nums rest tail) :
      Listed (num :: nums) (blanks ++ (num ++ (gap ++ (comma ++ rest)))) tail

/-- At the cursor there is a list of these numbers, and the other cursor stands behind it. -/
def Braced (c : Cursor) (values : List Single) (c' : Cursor) : Prop :=
  ∃ blanks body nums tail, c.rest = blanks ++ '\x7b' :: body ∧ (∀ b ∈ blanks, isBlank b = true) ∧
    Listed nums body tail ∧ values = nums.map Decimal.numberOf ∧ c' = { c with rest := tail }

/-! ## Marks and numbers in front of a text -/

theorem exists_of_literal {mark : List Char} {c : Cursor} (h : (c.literal mark).1 = true) :
    ∃ rest, c.skipBlanks.rest = mark ++ rest ∧ (c.literal mark).2 = { c with rest } :=
  literal_eq_true_iff.mp (Prod.ext h rfl : c.literal mark = (true, (c.literal mark).2))

theorem skipBlanks_atEnd (c : Cursor) : c.atEnd.2.skipBlanks = c.skipBlanks :=
  skipBlanks_skipBlanks c

/-- No blank belongs to a number. -/
theorem not_isBlank_of_isNumberChar {c : Char} (h : isNumberChar c = true) :
    isBlank c = false := by
  rw [Bool.eq_false_iff]
  intro hblank
  have hall : ∀ n ∈ blankCodes, isNumberChar (Char.ofNat n) = false := by decide
  have hc := hall c.toNat (toNat_mem_blankCodes hblank)
  rw [Char.ofNat_toNat, h] at hc
  cases hc

/-- A literal starts with a character that may belong to a number. -/
theorem exists_cons_of_isLiteral {num : List Char} (h : Decimal.IsLiteral num) :
    ∃ c cs, num = c :: cs ∧ isNumberChar c = true := by
  obtain ⟨c, cs, rfl⟩ := List.exists_cons_of_ne_nil (ne_nil_of_isLiteral h)
  exact ⟨c, cs, rfl, isNumberChar_of_isLiteral h c List.mem_cons_self⟩

theorem trimStart_literal {num : List Char} (h : Decimal.IsLiteral num) (rest : List Char) :
    trimStart (num ++ rest) = num ++ rest := by
  obtain ⟨c, cs, rfl, hc⟩ := exists_cons_of_isLiteral h
  exact trimStart_cons (not_isBlank_of_isNumberChar hc) _

/-- A literal that comes next is read if nothing follows that could belong to it. -/
theorem float_literal {num rest : List Char} (hnum : Decimal.IsLiteral num)
    (hwhole : ∀ c ∈ rest.head?, isNumberChar c = false) {c : Cursor}
    (hc : c.skipBlanks.rest = num ++ rest) :
    float c = (.ok (Decimal.numberOf num), { c with rest }) := by
  obtain ⟨htake, hdrop⟩ := run_append (isNumberChar_of_isLiteral hnum) hwhole
  have hrun : c.run isNumberChar = (num, { c with rest }) := by rw [run, hc, htake, hdrop]
  rw [float_eq_ok_iff, hrun]
  exact ⟨hnum, rfl, rfl⟩

/-- What is listed goes on with a number or the closing brace, and not with a comma. -/
theorem Listed.no_comma {nums : List (List Char)} {text tail : List Char}
    (h : Listed nums text tail) : ∀ rest, trimStart text ≠ ',' :: rest := by
  intro rest heq
  cases h with
  | close hblanks =>
    rw [trimStart_append hblanks, trimStart_cons (by decide)] at heq
    exact absurd (List.cons.inj heq).1 (by decide)
  | number hblanks hnum =>
    rw [trimStart_append hblanks, trimStart_literal hnum] at heq
    obtain ⟨c, cs, rfl, hc⟩ := exists_cons_of_isLiteral hnum
    rw [(List.cons.inj heq).1] at hc
    exact absurd hc (by decide)

/-- Behind a number a comma is passed over with the blanks before it, or blanks alone. -/
theorem literal_comma {gap comma rest : List Char} (hgap : ∀ c ∈ gap, isBlank c = true)
    (hcomma : comma = [] ∨ comma = [',']) (hrest : ∀ more, trimStart rest ≠ ',' :: more)
    (c : Cursor) : ∃ rest',
      (({ c with rest := gap ++ (comma ++ rest) } : Cursor).literal [',']).2 =
        { c with rest := rest' } ∧ trimStart rest' = trimStart rest := by
  rcases hcomma with rfl | rfl
  · refine ⟨trimStart rest, ?_, List.dropWhile_idempotent _ _⟩
    rw [literal_of_not_found]
    · rw [skipBlanks, List.nil_append, trimStart_append hgap]
    · refine Bool.eq_false_iff.mpr fun hfound => ?_
      obtain ⟨more, hmore, -⟩ := exists_of_literal hfound
      rw [skipBlanks, List.nil_append, trimStart_append hgap] at hmore
      exact hrest more hmore
  · refine ⟨rest, congrArg Prod.snd (literal_eq_true_iff.mpr ⟨rest, ?_, rfl⟩), rfl⟩
    rw [skipBlanks, trimStart_append hgap, List.singleton_append, trimStart_cons (by decide)]

/-- What is passed over between a number and the next: blanks, and perhaps a comma. -/
theorem exists_of_comma (c : Cursor) : ∃ gap comma rest, c.rest = gap ++ (comma ++ rest) ∧
    (∀ b ∈ gap, isBlank b = true) ∧ (comma = [] ∨ comma = [',']) ∧
    (c.literal [',']).2 = { c with rest } := by
  obtain ⟨gap, hgap, hall⟩ := exists_append_trimStart c.rest
  by_cases hfound : (c.literal [',']).1 = true
  · obtain ⟨rest, hrest, hnext⟩ := exists_of_literal hfound
    exact ⟨gap, [','], rest, hgap.trans (congrArg (gap ++ ·) hrest), hall, Or.inr rfl, hnext⟩
  · exact ⟨gap, [], trimStart c.rest, hgap, hall, Or.inl rfl,
      literal_of_not_found (Bool.eq_false_iff.mpr hfound)⟩

/-! ## Rounds with numbers -/

/-- What is listed is read, by induction on the numbers; blanks in front of it do not count. -/
theorem rounds_of_listed {nums : List (List Char)} {text tail : List Char}
    (h : Listed nums text tail) : ∀ c : Cursor, c.skipBlanks.rest = trimStart text →
      Rounds ['\x7d'] float c (.ok (nums.map Decimal.numberOf), { c with rest := tail }) := by
  induction h with
  | @close blanks tail hblanks =>
    intro c hc
    rw [trimStart_append hblanks, trimStart_cons (by decide)] at hc
    have hmore : c.atEnd.1 = false :=
      atEnd_eq_false_iff.mpr (by rw [hc]; exact List.cons_ne_nil _ _)
    have hmark : c.atEnd.2.literal ['\x7d'] = (true, { c with rest := tail }) :=
      literal_eq_true_iff.mpr ⟨tail, by rw [skipBlanks_atEnd, hc]; rfl, rfl⟩
    rw [show ({ c with rest := tail } : Cursor) = (c.atEnd.2.literal ['\x7d']).2 by rw [hmark]]
    exact .closed hmore (List.cons_ne_nil _ _) (congrArg Prod.fst hmark)
  | @number blanks num gap comma rest tail nums hblanks hnum hgap hcomma hwhole hrest ih =>
    intro c hc
    rw [trimStart_append hblanks, trimStart_literal hnum] at hc
    obtain ⟨d, ds, hd, hdigit⟩ := exists_cons_of_isLiteral hnum
    have hmore : c.atEnd.1 = false :=
      atEnd_eq_false_iff.mpr (by rw [hc, hd]; exact List.cons_ne_nil _ _)
    have hmark : (c.atEnd.2.literal ['\x7d']).1 = false := by
      refine Bool.eq_false_iff.mpr fun hfound => ?_
      obtain ⟨more, hmore, -⟩ := exists_of_literal hfound
      rw [skipBlanks_atEnd, hc, hd] at hmore
      rw [(List.cons.inj hmore).1] at hdigit
      exact absurd hdigit (by decide)
    have hread : float c.atEnd.2 =
        (.ok (Decimal.numberOf num), { c with rest := gap ++ (comma ++ rest) }) :=
      float_literal hnum hwhole (by rw [skipBlanks_atEnd, hc])
    obtain ⟨rest', hnext, htrim⟩ := literal_comma hgap hcomma hrest.no_comma c
    have hmore' : Rounds ['\x7d'] float
        (({ c with rest := gap ++ (comma ++ rest) } : Cursor).literal [',']).2
        (.ok (nums.map Decimal.numberOf), { c with rest := tail }) := by
      rw [hnext]
      exact ih _ htrim
    have hround := Rounds.round hmore (fun _ => hmark) hread hmore'
    exact hround

/-- What the rounds read is listed, from the last round to the first. -/
theorem listed_of_rounds {c : Cursor} {r : Except Error (List Single) × Cursor}
    (h : Rounds ['\x7d'] float c r) : ∀ values, r.1 = .ok values → ∃ nums tail,
      Listed nums c.rest tail ∧ values = nums.map Decimal.numberOf ∧
        r.2 = { c with rest := tail } := by
  induction h with
  | ended _ hclose => cases hclose
  | unclosed | failed => rintro _ ⟨⟩
  | @closed c hmore _ hmark =>
    rintro _ ⟨⟩
    obtain ⟨tail, htail, hc'⟩ := exists_of_literal hmark
    obtain ⟨blanks, hblanks, hall⟩ := exists_append_trimStart c.rest
    refine ⟨[], tail, ?_, rfl, hc'⟩
    rw [skipBlanks_atEnd] at htail
    rw [hblanks, show trimStart c.rest = '\x7d' :: tail from htail]
    exact .close hall
  | @round c after v r hmore hmark hread _ ih =>
    rintro values hvalues
    obtain ⟨e | more, c'⟩ := r
    · cases hvalues
    obtain ⟨nums, tail, hlisted, rfl, hc'⟩ := ih more rfl
    obtain ⟨hnum, rfl, rfl⟩ := float_eq_ok_iff.mp hread
    obtain ⟨blanks, hblanks, hall⟩ := exists_append_trimStart c.rest
    obtain ⟨gap, comma, rest, hsplit, hgap, hcomma, hnext⟩ :=
      exists_of_comma (c.atEnd.2.run isNumberChar).2
    rw [hnext] at hlisted hc'
    have hrun : c.atEnd.2.run isNumberChar = c.run isNumberChar := by
      rw [run, run, skipBlanks_atEnd]
      rfl
    rw [hrun] at hnum hsplit hvalues hlisted hc'
    refine ⟨(c.run isNumberChar).1 :: nums, tail, ?_, (Except.ok.inj hvalues).symm, hc'⟩
    have htext : c.rest = blanks ++ ((c.run isNumberChar).1 ++ (gap ++ (comma ++ rest))) := by
      rw [← hsplit]
      exact hblanks.trans (congrArg (blanks ++ ·) List.takeWhile_append_dropWhile.symm)
    rw [htext]
    refine .number hall hnum hgap hcomma ?_ hlisted
    rw [← hsplit]
    exact head?_dropWhile_eq_false isNumberChar _

/-! ## Result -/

/-- **The rounds of a list of numbers.** -/
theorem items_float_iff {c c' : Cursor} {values : List Single} :
    items ['\x7d'] float advances_float c = (.ok values, c') ↔ ∃ nums tail,
      Listed nums c.rest tail ∧ values = nums.map Decimal.numberOf ∧
        c' = { c with rest := tail } := by
  constructor
  · intro h
    have hrounds := rounds_items advances_float ['\x7d'] c
    rw [h] at hrounds
    exact listed_of_rounds hrounds values rfl
  · rintro ⟨nums, tail, hlisted, rfl, rfl⟩
    exact items_of_rounds advances_float (rounds_of_listed hlisted c rfl)

/-- The list of numbers in braces. -/
theorem bracketed_float_iff {c c' : Cursor} {values : List Single} :
    bracketed ['\x7b'] ['\x7d'] float advances_float c = (.ok values, c') ↔ Braced c values c' := by
  rw [bracketed_eq, if_neg (List.cons_ne_nil _ _)]
  constructor
  · intro h
    split at h
    · rename_i hmark
      obtain ⟨body, hbody, hopened⟩ := exists_of_literal hmark
      rw [hopened] at h
      obtain ⟨nums, tail, hlisted, hvalues, hc'⟩ := items_float_iff.mp h
      obtain ⟨blanks, hblanks, hall⟩ := exists_append_trimStart c.rest
      rw [show trimStart c.rest = '\x7b' :: body from hbody] at hblanks
      exact ⟨blanks, body, nums, tail, hblanks, hall, hlisted, hvalues, hc'⟩
    · cases h
  · rintro ⟨blanks, body, nums, tail, hc, hall, hlisted, hvalues, hc'⟩
    have hmark : c.literal ['\x7b'] = (true, { c with rest := body }) := by
      refine literal_eq_true_iff.mpr ⟨body, ?_, rfl⟩
      rw [skipBlanks, hc, trimStart_append hall, trimStart_cons (by decide)]
      rfl
    rw [hmark, if_pos rfl]
    exact items_float_iff.mpr ⟨nums, tail, hlisted, hvalues, hc'⟩

/-- What is built of the numbers in braces. -/
theorem braced_eq_ok_iff {α : Type} {build : List Single → Option α} {numbers : α → List Single}
    (hbuild : ∀ values a, build values = some a ↔ values = numbers a) (form : String)
    {c c' : Cursor} {a : α} : braced build form c = (.ok a, c') ↔ Braced c (numbers a) c' := by
  rw [← bracketed_float_iff, braced]
  rcases bracketed ['\x7b'] ['\x7d'] float advances_float c with ⟨e | values, after⟩
  · simp
  · have hvalues := hbuild values
    dsimp only
    cases hbuilt : build values with
    | none =>
      have hnot : values ≠ numbers a := by
        rw [ne_eq, ← hvalues, hbuilt]
        exact Option.some_ne_none a |>.symm
      simp [hnot]
    | some b =>
      simp [← hvalues, hbuilt]

/-- **Lists of numbers in braces.**  A list is read exactly if it is written as one, and so are a
    point and a size exactly if the list has two numbers, a rectangle and insets exactly if it has
    four.  The numbers have their places in the order in which they are written.  Every other text
    is text that makes no sense, on the line of the cursor. -/
theorem geometry_lists :
    (∀ c values c',
      bracketed ['\x7b'] ['\x7d'] float advances_float c = (.ok values, c') ↔
        Braced c values c') ∧
    (∀ c p c', point c = (.ok p, c') ↔ Braced c [p.x, p.y] c') ∧
    (∀ c s c', size c = (.ok s, c') ↔ Braced c [s.x, s.y] c') ∧
    (∀ c r c', rect c = (.ok r, c') ↔
      Braced c [r.origin.x, r.origin.y, r.size.x, r.size.y] c') ∧
    (∀ c e c', edges c = (.ok e, c') ↔ Braced c [e.top, e.left, e.bottom, e.right] c') ∧
    Scan.Blames (bracketed ['\x7b'] ['\x7d'] float advances_float) ∧ Scan.Blames point ∧
      Scan.Blames size ∧ Scan.Blames rect ∧ Scan.Blames edges :=
  ⟨fun _ _ _ => bracketed_float_iff,
    fun _ _ _ => braced_eq_ok_iff (fun _ _ => Vec2.ofList?_eq_some_iff) _,
    fun _ _ _ => braced_eq_ok_iff (fun _ _ => Vec2.ofList?_eq_some_iff) _,
    fun _ _ _ => braced_eq_ok_iff (fun _ _ => Rect.ofList?_eq_some_iff) _,
    fun _ _ _ => braced_eq_ok_iff (fun _ _ => Edges.ofList?_eq_some_iff) _,
    blames_bracketed blames_float advances_float _ _, blames_braced _ _, blames_braced _ _,
    blames_braced _ _, blames_braced _ _⟩

/-- Insets with and without commas between them; a comma too many; and a number too few. -/
theorem geometry_lists_spaced :
    (∃ e c', edges (start " { 1,-.5 3. , 40,}; x" 7) = (.ok e, c') ∧
      Braced (start " { 1,-.5 3. , 40,}; x" 7) [e.top, e.left, e.bottom, e.right] c' ∧
      e.top = .one ∧ c'.remaining = "; x") ∧
    (∀ values c', ¬ Braced (start "{1,,2}" 7) values c') ∧
    ∃ detail, (point (start "{1}" 7)).1 = .error (.unrecognized detail 7) := by
  obtain ⟨hlist, -, -, -, hedges, -, hpoint, -⟩ := geometry_lists
  refine ⟨?_, fun values c' hbraced => ?_, ?_⟩
  · have hread : (edges (start " { 1,-.5 3. , 40,}; x" 7)).1.map Edges.top = .ok .one ∧
        (edges (start " { 1,-.5 3. , 40,}; x" 7)).2.remaining = "; x" := by decide +kernel
    rcases hrun : edges (start " { 1,-.5 3. , 40,}; x" 7) with ⟨e | e, c'⟩ <;> rw [hrun] at hread
    · cases hread.1
    · exact ⟨e, c', rfl, (hedges _ e c').mp hrun, Except.ok.inj hread.1, hread.2⟩
  · have hrefused :
        (bracketed ['\x7b'] ['\x7d'] float advances_float (start "{1,,2}" 7)).1.isOk = false := by
      decide +kernel
    rw [(hlist _ values c').mpr hbraced] at hrefused
    cases hrefused
  · have hrefused : (point (start "{1}" 7)).1.isOk = false := by decide +kernel
    have hblames := (hpoint (start "{1}" 7)).2
    rcases hrun : (point (start "{1}" 7)).1 with e | p <;> rw [hrun] at hrefused hblames
    · obtain ⟨detail, rfl⟩ := hblames e rfl
      exact ⟨detail, rfl⟩
    · cases hrefused

end Cursor

end ViewSheet
