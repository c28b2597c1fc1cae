/-
  Fonts: which texts are fonts.

  1. **Program**: a size is read if there is one, then a family up to the next blank, then a size
     again, and nothing may follow.  Each part but the first blank may be missing.

  2. **Specification**: a font is a size, a family, or both in either order (`FontForm`), in words
     (`Text.words`).

  3. **The crux** (`words_run`): a run takes from the first word what it can and leaves the others.

  4. **Result** (`font_forms`): the texts in these forms are fonts, and so are some others
     (`StrayForm`): a text without words, a size where a family should be, and a second size.  A
     size also ends inside a word (`unglued`).
-/
import ViewSheet.Proofs.Braces
import ViewSheet.Proofs.Writing

namespace ViewSheet

open Text

namespace Text

/-! ## Words -/

/-- The words of a text: what stands between blanks. -/
def words (cs : List Char) : List (List Char) := (cs.splitOnP isBlank).filter (!·.isEmpty)

theorem words_cons_blank {b : Char} (hb : isBlank b = true) (cs : List Char) :
    words (b :: cs) = words cs := by
  rw [words, List.splitOnP_cons_eq_if_modifyHead, if_pos hb]
  rfl

theorem words_trimStart (cs : List Char) : words (trimStart cs) = words cs := by
  induction cs with
  | nil => rfl
  | cons c cs ih =>
    by_cases hc : isBlank c = true
    · rw [words_cons_blank hc, ← ih, trimStart, List.dropWhile_cons_of_pos hc]
      rfl
    · rw [trimStart_cons (Bool.eq_false_iff.mpr hc)]

/-- Characters that are no blanks are a word where a blank follows, or nothing. -/
theorem words_append {w rest : List Char} (hfull : w ≠ [])
    (hsolid : ∀ c ∈ w, isBlank c = false) (hrest : ∀ c ∈ rest.head?, isBlank c = true) :
    words (w ++ rest) = w :: words rest := by
  have hkept : (!w.isEmpty) = true := by simpa using hfull
  cases rest with
  | nil =>
    rw [List.append_nil, words, List.splitOnP_eq_singleton hsolid, List.filter_cons, if_pos hkept]
    rfl
  | cons b cs =>
    have hb := hrest b rfl
    rw [words_cons_blank hb, words, List.splitOnP_append_cons_of_forall_mem hsolid b hb,
      List.filter_cons, if_pos hkept]
    rfl

/-- From the first character that is no blank, up to the next blank. -/
theorem solid_front {cs : List Char} (h : trimStart cs ≠ []) :
    (trimStart cs).takeWhile (!isBlank ·) ≠ [] ∧
      ∀ c ∈ (trimStart cs).takeWhile (!isBlank ·), isBlank c = false := by
  refine ⟨?_, fun c hc => by simpa using List.mem_takeWhile_imp hc⟩
  obtain ⟨c, rest, hrest⟩ := List.exists_cons_of_ne_nil h
  have hc : isBlank c = false := head?_dropWhile_eq_false isBlank cs c (congrArg List.head? hrest)
  rw [hrest, List.takeWhile_cons_of_pos (by simp [hc])]
  exact List.cons_ne_nil _ _

/-- That is the first word. -/
theorem words_eq_cons {cs : List Char} (h : trimStart cs ≠ []) :
    words cs = (trimStart cs).takeWhile (!isBlank ·) ::
      words ((trimStart cs).dropWhile (!isBlank ·)) := by
  obtain ⟨hfull, hsolid⟩ := solid_front h
  rw [← words_trimStart]
  nth_rewrite 1 [← List.takeWhile_append_dropWhile (p := (!isBlank ·)) (l := trimStart cs)]
  refine words_append hfull hsolid fun d hd => ?_
  simpa using head?_dropWhile_eq_false (!isBlank ·) _ d hd

theorem words_eq_nil_iff {cs : List Char} : words cs = [] ↔ trimStart cs = [] := by
  constructor
  · intro h
    by_contra hfull
    rw [words_eq_cons hfull] at h
    cases h
  · intro h
    rw [← words_trimStart, h]
    rfl

/-- A text with words is not blank, and the first of them is at its front. -/
theorem front_of_words {cs w : List Char} {ws : List (List Char)} (h : words cs = w :: ws) :
    trimStart cs ≠ [] ∧ (trimStart cs).takeWhile (!isBlank ·) = w ∧
      words ((trimStart cs).dropWhile (!isBlank ·)) = ws := by
  have hfull : trimStart cs ≠ [] := by
    rw [ne_eq, ← words_eq_nil_iff, h]
    exact List.cons_ne_nil w ws
  rw [words_eq_cons hfull, List.cons.injEq] at h
  exact ⟨hfull, h⟩

theorem solid_of_words {cs w : List Char} {ws : List (List Char)} (h : words cs = w :: ws) :
    w ≠ [] ∧ ∀ c ∈ w, isBlank c = false := by
  obtain ⟨hfull, rfl, -⟩ := front_of_words h
  exact solid_front hfull

end Text

namespace Cursor

/-! ## Words at a cursor -/

theorem atEnd_eq_true_iff {c : Cursor} : c.atEnd.1 = true ↔ words c.rest = [] := by
  rw [words_eq_nil_iff, atEnd, List.isEmpty_iff]
  rfl

theorem atEnd_of_no_words {c : Cursor} (h : words c.rest = []) : c.atEnd = (true, c.atEnd.2) :=
  Prod.ext (atEnd_eq_true_iff.mpr h) rfl

theorem atEnd_of_words {c : Cursor} {w : List Char} {ws : List (List Char)}
    (h : words c.rest = w :: ws) : c.atEnd = (false, c.atEnd.2) := by
  refine Prod.ext (Bool.eq_false_iff.mpr fun hend => ?_) rfl
  rw [atEnd_eq_true_iff, h] at hend
  cases hend

theorem words_atEnd (c : Cursor) : words c.atEnd.2.rest = words c.rest := words_trimStart c.rest

/-- **A run takes what it can of the first word**, and leaves the rest of it with the other
    words. -/
theorem words_run {p : Char → Bool} (hp : ∀ c, p c = true → isBlank c = false) {c : Cursor}
    {w : List Char} {ws : List (List Char)} (h : words c.rest = w :: ws) :
    (c.run p).1 = w.takeWhile p ∧
      words (c.run p).2.rest = if w.dropWhile p = [] then ws else w.dropWhile p :: ws := by
  obtain ⟨-, rfl, rfl⟩ := front_of_words h
  have hsplit := List.takeWhile_append_dropWhile (p := (!isBlank ·)) (l := trimStart c.rest)
  have hblank := head?_dropWhile_eq_false (!isBlank ·) (trimStart c.rest)
  have hstop : ∀ d ∈ ((trimStart c.rest).dropWhile (!isBlank ·)).head?, p d = false := by
    intro d hd
    refine Bool.eq_false_iff.mpr fun hpd => ?_
    have hsolid := hblank d hd
    rw [hp d hpd] at hsolid
    cases hsolid
  obtain ⟨htake, hdrop⟩ := run_append_of_stop hstop ((trimStart c.rest).takeWhile (!isBlank ·))
  rw [hsplit] at htake hdrop
  refine ⟨htake, ?_⟩
  rw [show (c.run p).2.rest = (trimStart c.rest).dropWhile p from rfl, hdrop]
  split
  · rename_i hall
    rw [hall, List.nil_append]
  · rename_i hmore
    refine words_append hmore (fun d hd => ?_) fun d hd => by simpa using hblank d hd
    have hmem := (List.dropWhile_sublist p).subset hd
    simpa using List.mem_takeWhile_imp hmem

/-- Before any word there is no run. -/
theorem run_of_no_words {p : Char → Bool} {c : Cursor} (h : words c.rest = []) :
    (c.run p).1 = [] := by
  rw [run, show c.skipBlanks.rest = [] from words_eq_nil_iff.mp h]
  rfl

end Cursor

/-! ## How a font is written -/

/-- The words of a font, with the literal that the first word starts with as a word of its own. -/
def unglued : List (List Char) → List (List Char)
  | [] => []
  | w :: ws =>
    let front := w.takeWhile Cursor.isNumberChar
    let back := w.dropWhile Cursor.isNumberChar
    if Decimal.IsLiteral front ∧ back ≠ [] then front :: back :: ws else w :: ws

/-- **The forms of a font**: a size, a family, or both in either order. -/
inductive FontForm : List (List Char) → Font → Prop where
  | size {n : List Char} (hn : Decimal.IsLiteral n) : FontForm [n] ⟨none, Decimal.numberOf n⟩
  | family {f : List Char} (hf : ¬ Decimal.IsLiteral f) :
      FontForm [f] ⟨some (String.ofList f), Font.standard.size⟩
  | sizeFamily {n f : List Char} (hn : Decimal.IsLiteral n) (hf : ¬ Decimal.IsLiteral f) :
      FontForm [n, f] ⟨some (String.ofList f), Decimal.numberOf n⟩
  | familySize {f n : List Char} (hf : ¬ Decimal.IsLiteral f) (hn : Decimal.IsLiteral n) :
      FontForm [f, n] ⟨some (String.ofList f), Decimal.numberOf n⟩

/-- What is taken for a font as well. -/
inductive StrayForm : List (List Char) → Font → Prop where
  /-- Nothing at all. -/
  | nothing : StrayForm [] Font.standard
  /-- A size in the place of the family. -/
  | sizeSize {n f : List Char} (hn : Decimal.IsLiteral n) (hf : Decimal.IsLiteral f) :
      StrayForm [n, f] ⟨some (String.ofList f), Decimal.numberOf n⟩
  /-- A size on either side of the family, of which the second counts. -/
  | sizeFamilySize {n f m : List Char} (hn : Decimal.IsLiteral n) (hm : Decimal.IsLiteral m) :
      StrayForm [n, f, m] ⟨some (String.ofList f), Decimal.numberOf m⟩

/-- A family, and perhaps a size in the place of the one that is given. -/
inductive FamilyForm (size : Single) : List (List Char) → Font → Prop where
  | family {f : List Char} : FamilyForm size [f] ⟨some (String.ofList f), size⟩
  | familySize {f n : List Char} (hn : Decimal.IsLiteral n) :
      FamilyForm size [f, n] ⟨some (String.ofList f), Decimal.numberOf n⟩

/-- A literal at the front of the first word is the first of the parts. -/
theorem unglued_of_literal {w : List Char} {ws : List (List Char)}
    (h : Decimal.IsLiteral (w.takeWhile Cursor.isNumberChar)) :
    unglued (w :: ws) = w.takeWhile Cursor.isNumberChar ::
      if w.dropWhile Cursor.isNumberChar = [] then ws
      else w.dropWhile Cursor.isNumberChar :: ws := by
  rw [unglued]
  by_cases hback : w.dropWhile Cursor.isNumberChar = []
  · have hw := List.takeWhile_append_dropWhile (p := Cursor.isNumberChar) (l := w)
    rw [hback, List.append_nil] at hw
    rw [if_neg (fun hglued => hglued.2 hback), if_pos hback, hw]
  · rw [if_pos ⟨h, hback⟩, if_neg hback]

theorem unglued_of_not_literal {w : List Char} {ws : List (List Char)}
    (h : ¬ Decimal.IsLiteral (w.takeWhile Cursor.isNumberChar)) : unglued (w :: ws) = w :: ws := by
  rw [unglued]
  exact if_neg fun hglued => h hglued.1

/-- A word is a literal if the run of characters in front that may belong to a number is all of it,
    and is one. -/
theorem isLiteral_iff_run {w : List Char} : Decimal.IsLiteral w ↔
    Decimal.IsLiteral (w.takeWhile Cursor.isNumberChar) ∧ w.dropWhile Cursor.isNumberChar = [] := by
  constructor
  · intro h
    have hall := Cursor.isNumberChar_of_isLiteral h
    rw [List.takeWhile_eq_self_iff.mpr hall]
    exact ⟨h, List.dropWhile_eq_nil_iff.mpr hall⟩
  · rintro ⟨h, hback⟩
    have hw := List.takeWhile_append_dropWhile (p := Cursor.isNumberChar) (l := w)
    rw [hback, List.append_nil] at hw
    rwa [hw] at h

/-- All forms, by the word that comes first. -/
theorem forms_iff {parts : List (List Char)} {f : Font} :
    FontForm parts f ∨ StrayForm parts f ↔
      (parts = [] ∧ f = Font.standard) ∨
      (∃ n ws, parts = n :: ws ∧ Decimal.IsLiteral n ∧
        (ws = [] ∧ f = ⟨none, Decimal.numberOf n⟩ ∨ FamilyForm (Decimal.numberOf n) ws f)) ∨
      ∃ w ws, parts = w :: ws ∧ ¬ Decimal.IsLiteral w ∧ FamilyForm Font.standard.size parts f := by
  constructor
  · rintro (h | h)
    · cases h with
      | size hn => exact Or.inr (Or.inl ⟨_, _, rfl, hn, Or.inl ⟨rfl, rfl⟩⟩)
      | family hf => exact Or.inr (Or.inr ⟨_, _, rfl, hf, .family⟩)
      | sizeFamily hn hf => exact Or.inr (Or.inl ⟨_, _, rfl, hn, Or.inr .family⟩)
      | familySize hf hn => exact Or.inr (Or.inr ⟨_, _, rfl, hf, .familySize hn⟩)
    · cases h with
      | nothing => exact Or.inl ⟨rfl, rfl⟩
      | sizeSize hn hf => exact Or.inr (Or.inl ⟨_, _, rfl, hn, Or.inr .family⟩)
      | sizeFamilySize hn hm => exact Or.inr (Or.inl ⟨_, _, rfl, hn, Or.inr (.familySize hm)⟩)
  · rintro (⟨rfl, rfl⟩ | ⟨n, ws, rfl, hn, ⟨rfl, rfl⟩ | hfamily⟩ | ⟨w, ws, rfl, hw, hfamily⟩)
    · exact Or.inr .nothing
    · exact Or.inl (.size hn)
    · cases hfamily with
      | @family f =>
        by_cases hf : Decimal.IsLiteral f
        · exact Or.inr (.sizeSize hn hf)
        · exact Or.inl (.sizeFamily hn hf)
      | familySize hm => exact Or.inr (.sizeFamilySize hn hm)
    · cases hfamily with
      | family => exact Or.inl (.family hw)
      | familySize hn => exact Or.inl (.familySize hw hn)

namespace Cursor

/-! ## Reading a font -/

/-- A size is read off the first word, if it starts with one. -/
theorem float_words {c : Cursor} {w : List Char} {ws : List (List Char)}
    (h : words c.rest = w :: ws) :
    (Decimal.IsLiteral (w.takeWhile isNumberChar) ∧ ∃ c', float c =
      (.ok (Decimal.numberOf (w.takeWhile isNumberChar)), c') ∧ words c'.rest =
        if w.dropWhile isNumberChar = [] then ws else w.dropWhile isNumberChar :: ws) ∨
    (¬ Decimal.IsLiteral (w.takeWhile isNumberChar) ∧ ∃ e, float c = (.error e, c)) := by
  obtain ⟨hrun, hwords⟩ := words_run (fun _ => not_isBlank_of_isNumberChar) h
  by_cases hn : Decimal.IsLiteral (w.takeWhile isNumberChar)
  · exact Or.inl ⟨hn, _, float_eq_ok_iff.mpr ⟨hrun ▸ hn, by rw [hrun], rfl⟩, hwords⟩
  · exact Or.inr ⟨hn, _, float_eq_error_iff.mpr ⟨hrun ▸ hn, rfl, rfl⟩⟩

/-- The word that is left is read as a size, to its end, exactly if it is a literal. -/
theorem float_last {c : Cursor} {w : List Char} {ws : List (List Char)}
    (h : words c.rest = w :: ws) (v : Single) :
    (∃ c', float c = (.ok v, c') ∧ words c'.rest = []) ↔
      ws = [] ∧ Decimal.IsLiteral w ∧ v = Decimal.numberOf w := by
  rcases float_words h with ⟨hn, c', hread, hwords⟩ | ⟨hn, e, hread⟩
  · have hsplit := List.takeWhile_append_dropWhile (p := isNumberChar) (l := w)
    constructor
    · rintro ⟨c'', hread', hend⟩
      rw [hread, Prod.mk.injEq, Except.ok.injEq] at hread'
      obtain ⟨rfl, rfl⟩ := hread'
      rw [hwords] at hend
      split at hend
      · rename_i hback
        rw [hback, List.append_nil] at hsplit
        rw [hsplit] at hn ⊢
        exact ⟨hend, hn, rfl⟩
      · cases hend
    · rintro ⟨rfl, hw, rfl⟩
      have hback := (isLiteral_iff_run.mp hw).2
      rw [hback, List.append_nil] at hsplit
      rw [if_pos hback] at hwords
      rw [hsplit] at hread
      exact ⟨c', hread, hwords⟩
  · constructor
    · rintro ⟨c', hread', -⟩
      rw [hread] at hread'
      cases hread'
    · rintro ⟨-, hw, -⟩
      exact absurd (isLiteral_iff_run.mp hw).1 hn

/-- The next word is a family. -/
theorem upToChars_words {c : Cursor} {f : List Char} {ws : List (List Char)}
    (h : words c.rest = f :: ws) :
    ∃ c', upToChars isBlank c = (.ok (String.ofList f), c') ∧ words c'.rest = ws := by
  obtain ⟨hfull, hsolid⟩ := solid_of_words h
  have hall : ∀ d ∈ f, (!isBlank d) = true := fun d hd => by rw [hsolid d hd]; rfl
  obtain ⟨hrun, hwords⟩ := words_run (p := (!isBlank ·)) (fun d hd => by simpa using hd) h
  rw [List.takeWhile_eq_self_iff.mpr hall] at hrun
  rw [if_pos (List.dropWhile_eq_nil_iff.mpr hall)] at hwords
  refine ⟨_, ?_, hwords⟩
  have htrim : trimEnd f = f :=
    trimEnd_eq_self fun d hd => hsolid d (List.mem_of_getLast? hd)
  rw [upToChars, someRun]
  dsimp only
  rw [hrun, if_neg (by simpa using hfull)]
  exact congrArg (fun cs => (Except.ok (String.ofList cs), _)) htrim

/-- A family and what may follow it are read to the end of the text. -/
theorem fontFamily_iff {c : Cursor} {f : List Char} {ws : List (List Char)}
    (h : words c.rest = f :: ws) (size : Single) (g : Font) :
    (∃ c', fontFamily size c = (.ok g, c') ∧ words c'.rest = []) ↔
      FamilyForm size (f :: ws) g := by
  obtain ⟨c₁, hfamily, hwords⟩ := upToChars_words h
  rw [fontFamily, hfamily]
  dsimp only
  rcases hws : ws with _ | ⟨n, ws'⟩
  · subst hws
    rw [atEnd_of_no_words hwords]
    constructor
    · rintro ⟨c', hread, -⟩
      rw [Prod.mk.injEq, Except.ok.injEq] at hread
      rw [← hread.1]
      exact .family
    · rintro ⟨⟩
      exact ⟨_, rfl, (words_atEnd c₁).trans hwords⟩
  · subst hws
    have hlast := float_last ((words_atEnd c₁).trans hwords)
    rw [atEnd_of_words hwords]
    dsimp only
    constructor
    · rintro ⟨c', hread, hend⟩
      rcases hsize : float c₁.atEnd.2 with ⟨e | v, after⟩ <;> rw [hsize] at hread
      · cases hread
      · rw [Prod.mk.injEq] at hread
        obtain ⟨hg, rfl⟩ := hread
        obtain ⟨rfl, hn, rfl⟩ := (hlast v).mp ⟨after, hsize, hend⟩
        rw [← Except.ok.inj hg]
        exact .familySize hn
    · intro hform
      cases hform with
      | familySize hn =>
        obtain ⟨after, hsize, hend⟩ := (hlast _).mpr ⟨rfl, hn, rfl⟩
        rw [hsize]
        exact ⟨after, rfl, hend⟩

/-- What is read behind the size, or where there is none. -/
def fontRest (size : Single) : Scan Font := fun c => match c.atEnd with
  | (true, c') => (.ok ⟨none, size⟩, c')
  | (false, c') => fontFamily size c'

theorem fontParts_of_ok {c c' : Cursor} {size : Single} (h : float c = (.ok size, c')) :
    fontParts c = fontRest size c' := by
  rw [fontParts, h]
  rfl

theorem fontParts_of_error {c c' : Cursor} {e : Error} (h : float c = (.error e, c')) :
    fontParts c = fontRest Font.standard.size c' := by
  rw [fontParts, h]
  rfl

theorem fontRest_iff (c : Cursor) (size : Single) (g : Font) :
    (∃ c', fontRest size c = (.ok g, c') ∧ words c'.rest = []) ↔
      words c.rest = [] ∧ g = ⟨none, size⟩ ∨ FamilyForm size (words c.rest) g := by
  rw [fontRest]
  cases hwords : words c.rest with
  | nil =>
    rw [atEnd_of_no_words hwords]
    constructor
    · rintro ⟨c', hread, -⟩
      rw [Prod.mk.injEq, Except.ok.injEq] at hread
      exact Or.inl ⟨rfl, hread.1.symm⟩
    · rintro (⟨-, rfl⟩ | hfamily)
      · exact ⟨_, rfl, (words_atEnd c).trans hwords⟩
      · cases hfamily
  | cons f ws =>
    rw [atEnd_of_words hwords]
    dsimp only
    rw [fontFamily_iff ((words_atEnd c).trans hwords)]
    exact ⟨Or.inr, fun h => h.resolve_left fun hnil => List.cons_ne_nil f ws hnil.1⟩

/-- **The parts of a font are read to the end of the text** exactly if they are in one of the
    forms. -/
theorem fontParts_iff (c : Cursor) (g : Font) :
    (∃ c', fontParts c = (.ok g, c') ∧ words c'.rest = []) ↔
      FontForm (unglued (words c.rest)) g ∨ StrayForm (unglued (words c.rest)) g := by
  rw [forms_iff]
  cases hwords : words c.rest with
  | nil =>
    have hempty := run_of_no_words (p := isNumberChar) hwords
    have hnot : ¬ Decimal.IsLiteral (c.run isNumberChar).1 := by
      rw [hempty]
      exact fun h => ne_nil_of_isLiteral h rfl
    rw [fontParts_of_error (float_eq_error_iff.mpr ⟨hnot, rfl, rfl⟩), fontRest_iff, hwords]
    constructor
    · rintro (⟨-, rfl⟩ | hfamily)
      · exact Or.inl ⟨rfl, rfl⟩
      · cases hfamily
    · rintro (⟨-, rfl⟩ | ⟨n, ws, hnil, -⟩ | ⟨w, ws, hnil, -⟩)
      · exact Or.inl ⟨rfl, rfl⟩
      · cases hnil
      · cases hnil
  | cons w ws =>
    rcases float_words hwords with ⟨hn, c', hread, hrest⟩ | ⟨hn, e, hread⟩
    · rw [fontParts_of_ok hread, fontRest_iff, unglued_of_literal hn, ← hrest]
      constructor
      · exact fun h => Or.inr (Or.inl ⟨_, _, rfl, hn, h⟩)
      · rintro (⟨hnil, -⟩ | ⟨n, ws', hparts, -, h⟩ | ⟨w', ws', hparts, hw', -⟩)
        · cases hnil
        · obtain ⟨rfl, rfl⟩ := List.cons.inj hparts
          exact h
        · rw [← (List.cons.inj hparts).1] at hw'
          exact absurd hn hw'
    · have hw : ¬ Decimal.IsLiteral w := fun h => hn (isLiteral_iff_run.mp h).1
      rw [fontParts_of_error hread, fontRest_iff, hwords, unglued_of_not_literal hn]
      constructor
      · rintro (⟨hnil, -⟩ | h)
        · cases hnil
        · exact Or.inr (Or.inr ⟨w, ws, rfl, hw, h⟩)
      · rintro (⟨hnil, -⟩ | ⟨n, ws', hparts, hn', -⟩ | ⟨w', ws', -, -, h⟩)
        · cases hnil
        · rw [← (List.cons.inj hparts).1] at hn'
          exact absurd hn' hw
        · exact Or.inr h

/-! ## Sizes above zero -/

/-- A number that is read is a number. -/
theorem isNaN_ofFraction {f : BinaryFormat} (negative : Bool) (n d : Nat) :
    (Binary.ofFraction negative n d : Binary f).isNaN = false := by
  have hle : f.round n d ≤ f.infinity := Nat.min_le_right _ _
  exact decide_eq_false (Nat.not_lt_of_le hle)

theorem isNaN_numberOf (cs : List Char) : (Decimal.numberOf cs).isNaN = false := by
  rw [Decimal.numberOf]
  split
  · rename_i d _
    rw [Binary.convert, show (d.toBinary : Double).isNaN = false from isNaN_ofFraction _ _ _,
      if_neg Bool.false_ne_true]
    split
    · exact decide_eq_false (Nat.lt_irrefl _)
    · exact isNaN_ofFraction _ _ _
  · rfl

theorem le_zero_eq_false_iff {f : BinaryFormat} {a : Binary f} (h : a.isNaN = false) :
    a.le .zero = false ↔ Binary.zero.lt a = true := by
  have hzero : (Binary.zero : Binary f).isNaN = false := decide_eq_false (Nat.not_lt_zero _)
  have hrank : (Binary.zero : Binary f).rank = 0 := rfl
  rw [Binary.le, Binary.lt, h, hzero, hrank]
  simp

/-- No form has a size that is no number. -/
theorem isNaN_of_form {parts : List (List Char)} {f : Font}
    (h : FontForm parts f ∨ StrayForm parts f) : f.size.isNaN = false := by
  have hstandard : Font.standard.size.isNaN = false := isNaN_ofFraction _ _ _
  rcases h with h | h
  · cases h with
    | family => exact hstandard
    | _ => exact isNaN_numberOf _
  · cases h with
    | nothing => exact hstandard
    | _ => exact isNaN_numberOf _

/-! ## Result -/

/-- A font is what the parts come to, if they are all of the text and their size is above zero. -/
theorem font_eq_ok_iff {c c' : Cursor} {f : Font} : font c = (.ok f, c') ↔
    ((∃ after, fontParts c = (.ok f, after) ∧ words after.rest = []) ∧ f.size.le .zero = false) ∧
      c' = { c with rest := [] } := by
  constructor
  · intro h
    obtain ⟨htext, hline, -⟩ := forward_font c
    have hrest := rest_of_font h
    rw [h] at htext hline
    refine ⟨?_, by rw [← hrest, ← htext, ← hline]⟩
    rw [font] at h
    rcases hparts : fontParts c with ⟨e | g, after⟩ <;> rw [hparts] at h
    · cases h
    · dsimp only at h
      split at h
      · cases h
      · rename_i hend
        split at h
        · cases h
        · rename_i hpositive
          rw [← Except.ok.inj (Prod.mk.inj h).1]
          exact ⟨⟨after, rfl, atEnd_eq_true_iff.mp (congrArg Prod.fst hend)⟩,
            Bool.eq_false_iff.mpr hpositive⟩
  · rintro ⟨⟨⟨after, hparts, hend⟩, hpositive⟩, rfl⟩
    have hread : ∃ c', font c = (.ok f, c') := by
      rw [font, hparts]
      dsimp only
      rw [atEnd_of_no_words hend]
      dsimp only
      rw [hpositive]
      exact ⟨_, rfl⟩
    obtain ⟨c', hc'⟩ := hread
    obtain ⟨htext, hline, -⟩ := forward_font c
    have hrest := rest_of_font hc'
    rw [hc'] at htext hline
    rw [hc', ← hrest, ← htext, ← hline]

/-- **Which texts are fonts.**  Those that are written in one of the forms, with a size above zero;
    the words that have a literal in front are taken apart.  Besides the forms that are meant, these
    are a text without words, a size in the place of the family and a second size.  A font is all
    of the text, and what is no font is text that makes no sense, on the line of the cursor. -/
theorem font_forms (c : Cursor) :
    (∀ f c', font c = (.ok f, c') ↔
      (FontForm (unglued (words c.rest)) f ∨ StrayForm (unglued (words c.rest)) f) ∧
        Binary.zero.lt f.size = true ∧ c' = { c with rest := [] }) ∧
    ∀ e, (font c).1 = .error e → ∃ detail, e = .unrecognized detail c.line := by
  refine ⟨fun f c' => ?_, (blames_font c).2⟩
  rw [font_eq_ok_iff, fontParts_iff, and_assoc]
  refine and_congr_right fun hform => ?_
  rw [le_zero_eq_false_iff (isNaN_of_form hform)]

/-- A family in front of its size, and a size of zero. -/
theorem font_forms_menlo :
    font (start " Menlo\t12.5 " 3) =
      (.ok ⟨some "Menlo", Decimal.numberOf "12.5".toList⟩, ⟨" Menlo\t12.5 ", [], 3⟩) ∧
    ∃ detail, (font (start "Menlo 0" 3)).1 = .error (.unrecognized detail 3) := by
  constructor
  · have hwords : words " Menlo\t12.5 ".toList = ["Menlo".toList, "12.5".toList] := by
      decide +kernel
    have hform : FontForm (unglued (words (start " Menlo\t12.5 " 3).rest))
        ⟨some "Menlo", Decimal.numberOf "12.5".toList⟩ := by
      rw [start, hwords, unglued_of_not_literal (by decide +kernel)]
      exact .familySize (by decide +kernel) (by decide +kernel)
    exact ((font_forms _).1 _ _).mpr ⟨Or.inl hform, by decide +kernel, rfl⟩
  · have hrefused : (font (start "Menlo 0" 3)).1.isOk = false := by decide +kernel
    rcases hrun : (font (start "Menlo 0" 3)).1 with e | f
    · obtain ⟨detail, rfl⟩ := (font_forms (start "Menlo 0" 3)).2 e hrun
      exact ⟨detail, rfl⟩
    · rw [hrun] at hrefused
      cases hrefused

/-- A second size, a size where a family should be, a size and a family in one word, and nothing. -/
theorem font_forms_strays :
    ((font (start "14 Menlo 12" 1)).1 = .ok ⟨some "Menlo", Decimal.numberOf "12".toList⟩ ∧
      ∀ f, ¬ FontForm (words "14 Menlo 12".toList) f) ∧
    ((font (start "14 20" 1)).1 = .ok ⟨some "20", Decimal.numberOf "14".toList⟩ ∧
      ∀ f, ¬ FontForm (words "14 20".toList) f) ∧
    ((font (start "14Menlo" 1)).1 = .ok ⟨some "Menlo", Decimal.numberOf "14".toList⟩ ∧
      ¬ FontForm (words "14Menlo".toList) ⟨some "Menlo", Decimal.numberOf "14".toList⟩) ∧
    (font (start "" 1)).1 = .ok Font.standard ∧ ∀ f, ¬ FontForm (words "".toList) f := by
  refine ⟨⟨by decide +kernel, fun f => ?_⟩, ⟨by decide +kernel, fun f => ?_⟩,
    ⟨by decide +kernel, ?_⟩, by decide +kernel, fun f => ?_⟩
  · rw [show words "14 Menlo 12".toList = ["14".toList, "Menlo".toList, "12".toList] by
      decide +kernel]
    rintro ⟨⟩
  · rw [show words "14 20".toList = ["14".toList, "20".toList] by decide +kernel]
    intro h
    cases h with
    | sizeFamily _ hf => exact hf (by decide +kernel)
    | familySize hf => exact hf (by decide +kernel)
  · rw [show words "14Menlo".toList = ["14Menlo".toList] by decide +kernel]
    intro h
    generalize hf : (⟨some "Menlo", Decimal.numberOf "14".toList⟩ : Font) = f at h
    cases h with
    | size => cases hf
    | family => exact absurd (congrArg Font.family hf) (by decide)
  · rw [show words "".toList = [] by decide +kernel]
    rintro ⟨⟩

end Cursor

end ViewSheet
