/-
  Spelling: which words of a list can be read from a text.

  1. **Program**: `Keywords.scan` reads the identifier that comes next and looks for the first word
     that is spelled like it, in whatever case.  A list may hold any words that are in lower case
     and have no blanks around them (`Keywords.Admitted`).

  2. **Specification**: written out in any case, with any blanks around it, a word gives its value
     exactly if it is an identifier.

  3. **The crux** (`Keywords.run_spelling`): what is read of a word that is none ends before the
     first character that an identifier has not.

  4. **Result** (`scan_spelling`): such a word gives the value of the word that it starts with, if
     that is in the list, and else it is refused by a complaint that lists it (`spelling_strays`).
-/
import Mathlib
import ViewSheet.Proofs.References

namespace ViewSheet

open Text

/-! ## Characters in either case -/

namespace Text

theorem isIdentifierChar_of_isAlpha {c : Char} (h : c.isAlpha = true) :
    isIdentifierChar c = true := by
  have hletter : isLatinLetter c = true := by
    simpa [isLatinLetter, Char.isAlpha, Char.isUpper, Char.isLower, Char.le_def] using h
  rw [isIdentifierChar, hletter, Bool.or_true, Bool.true_or]

/-- A character and its lower case are both in an identifier or both not. -/
theorem isIdentifierChar_toLower (c : Char) : isIdentifierChar c.toLower = isIdentifierChar c := by
  by_cases hupper : c.isUpper = true
  · have halpha : c.isAlpha = true := by rw [Char.isAlpha, hupper, Bool.true_or]
    rw [isIdentifierChar_of_isAlpha halpha, isIdentifierChar_of_isAlpha]
    rwa [Char.isAlpha_toLower_eq_isAlpha]
  · rw [Char.toLower_eq_of_not_isUpper hupper]

/-- No blank is in an identifier. -/
theorem not_isIdentifierChar_of_isBlank {c : Char} (h : isBlank c = true) :
    isIdentifierChar c = false := by
  have hall : ∀ n ∈ blankCodes, isIdentifierChar (Char.ofNat n) = false := by decide
  have hc := hall c.toNat (toNat_mem_blankCodes h)
  rwa [Char.ofNat_toNat] at hc

/-- A blank has no lower case. -/
theorem isBlank_of_toLower {c : Char} (h : isBlank c = true) : isBlank c.toLower = true := by
  have hnot := not_isIdentifierChar_of_isBlank h
  rw [Char.toLower_eq_of_not_isUpper]
  · exact h
  · intro hupper
    have halpha : c.isAlpha = true := by rw [Char.isAlpha, hupper, Bool.true_or]
    rw [isIdentifierChar_of_isAlpha halpha] at hnot
    cases hnot

/-- A text without blanks around it starts with none. -/
theorem trimStart_of_trim {cs : List Char} (h : trim cs = cs) : trimStart cs = cs := by
  obtain ⟨blanks, hend, -⟩ := trimEnd_append_blanks (trimStart cs)
  have hlength := congrArg List.length hend
  rw [← trim, h, List.length_append] at hlength
  exact (List.dropWhile_suffix isBlank).eq_of_length_le (by rw [trimStart] at hlength; omega)

end Text

namespace Keywords

variable {α : Type}

/-! ## Lists of words -/

/-- The words are different and in lower case, with nothing around them. -/
structure Admitted (k : Keywords α) : Prop where
  full : ∀ p ∈ k.words, p.1 ≠ ""
  distinct : (k.words.map Prod.fst).Nodup
  lower : ∀ p ∈ k.words, p.1.toList.map Char.toLower = p.1.toList
  bare : ∀ p ∈ k.words, trimmed p.1 = p.1

variable {k : Keywords α}

/-- The word that a text is spelled like is its lower case. -/
theorem Admitted.sameLetters_iff (hk : k.Admitted) {p : String × α} (hp : p ∈ k.words)
    {cs : List Char} : sameLetters p.1.toList cs = true ↔ p.1.toList = cs.map Char.toLower := by
  rw [sameLetters, beq_iff_eq, hk.lower p hp]

/-- A word is found by its lower case. -/
theorem Admitted.find?_eq_some_iff (hk : k.Admitted) {cs : List Char} {b : α} :
    k.find? cs = some b ↔ ∃ v, (v, b) ∈ k.words ∧ v.toList = cs.map Char.toLower := by
  have hfind : k.find? cs = (k.words.find? fun p => sameLetters p.1.toList cs).map (·.2) := rfl
  rw [hfind, Option.map_eq_some_iff]
  constructor
  · rintro ⟨p, hp, rfl⟩
    have hmem := List.mem_of_find?_eq_some hp
    have hsame := List.find?_some hp
    exact ⟨p.1, hmem, (hk.sameLetters_iff hmem).mp hsame⟩
  · rintro ⟨v, hmem, hv⟩
    have hsome : (k.words.find? fun p => sameLetters p.1.toList cs).isSome = true :=
      List.find?_isSome.mpr ⟨(v, b), hmem, (hk.sameLetters_iff hmem).mpr hv⟩
    obtain ⟨p, hp⟩ := Option.isSome_iff_exists.mp hsome
    have hpmem := List.mem_of_find?_eq_some hp
    have hsame := List.find?_some hp
    -- words that are spelled alike are one word
    have hname : p.1 = v :=
      String.toList_inj.mp (((hk.sameLetters_iff hpmem).mp hsame).trans hv.symm)
    exact ⟨p, hp, congrArg Prod.snd (List.inj_on_of_nodup_map hk.distinct hpmem hmem hname)⟩

/-- No word is spelled like nothing at all. -/
theorem Admitted.find?_nil (hk : k.Admitted) : k.find? [] = none := by
  rw [Option.eq_none_iff_forall_ne_some]
  intro b hb
  obtain ⟨v, hmem, hv⟩ := hk.find?_eq_some_iff.mp hb
  exact hk.full _ hmem (String.toList_inj.mp hv)

/-- What is read is looked for. -/
theorem Admitted.scan_eq (hk : k.Admitted) (c : Cursor) :
    k.scan c = match k.find? (c.run isIdentifierChar).1 with
      | some a => (.ok a, (c.run isIdentifierChar).2)
      | none => (.error (k.expected (c.run isIdentifierChar).2), (c.run isIdentifierChar).2) := by
  have hword : (if (c.run isIdentifierChar).1.isEmpty then none
      else k.find? (c.run isIdentifierChar).1) = k.find? (c.run isIdentifierChar).1 := by
    split
    · rename_i hempty
      rw [List.isEmpty_iff.mp hempty, hk.find?_nil]
    · rfl
  rw [scan]
  dsimp only
  cases hfind : k.find? (c.run isIdentifierChar).1 <;> rw [hfind] at hword <;> simp only [hword]

/-! ## Words in a text -/

section
variable {w : String} {a : α} {before spelling after : List Char}

/-- The text of a word in some spelling, with blanks around it. -/
def surrounded (before spelling after : List Char) : String :=
  String.ofList (before ++ spelling ++ after)

/-- **Of a word that is written out, the part in front is read** that an identifier can have. -/
theorem run_spelling (hk : k.Admitted) (hw : (w, a) ∈ k.words)
    (hbefore : ∀ c ∈ before, isBlank c = true) (hafter : ∀ c ∈ after, isBlank c = true)
    (hspelling : sameLetters w.toList spelling = true) (line : Nat) :
    (Cursor.start (surrounded before spelling after) line).run isIdentifierChar =
      (spelling.takeWhile isIdentifierChar,
        ⟨surrounded before spelling after, spelling.dropWhile isIdentifierChar ++ after, line⟩) ∧
    (spelling.takeWhile isIdentifierChar).map Char.toLower =
      w.toList.takeWhile isIdentifierChar := by
  have hlower : w.toList = spelling.map Char.toLower := (hk.sameLetters_iff hw).mp hspelling
  have hclass : isIdentifierChar ∘ Char.toLower = isIdentifierChar :=
    funext isIdentifierChar_toLower
  -- the spelling starts with no blank, since the word does not
  have htrim : trimStart (spelling ++ after) = spelling ++ after := by
    obtain ⟨c, cs, rfl⟩ := List.exists_cons_of_ne_nil
      (fun hnil => hk.full _ hw (String.toList_inj.mp (by rw [hlower, hnil]; rfl)) :
        spelling ≠ [])
    have hbare : trimStart w.toList = w.toList := by
      refine trimStart_of_trim ?_
      have hword := congrArg String.toList (hk.bare _ hw)
      rwa [trimmed, String.toList_ofList] at hword
    refine trimStart_cons (Bool.eq_false_iff.mpr fun hc => ?_) _
    have hlength := congrArg List.length hbare
    rw [hlower, List.map_cons, trimStart, List.dropWhile_cons_of_pos (isBlank_of_toLower hc),
      List.length_cons] at hlength
    have hle := (List.dropWhile_suffix (l := cs.map Char.toLower) isBlank).length_le
    omega
  have hstop : ∀ c ∈ after.head?, isIdentifierChar c = false := fun c hc =>
    not_isIdentifierChar_of_isBlank (hafter c (List.mem_of_mem_head? hc))
  have hstart : (Cursor.start (surrounded before spelling after) line).skipBlanks.rest =
      spelling ++ after := by
    rw [Cursor.start, Cursor.skipBlanks, surrounded, String.toList_ofList, List.append_assoc,
      trimStart_append hbefore, htrim]
  obtain ⟨htake, hdrop⟩ := run_append_of_stop hstop spelling
  refine ⟨?_, ?_⟩
  · rw [Cursor.run, hstart, htake, hdrop]
    rfl
  · rw [hlower, List.takeWhile_map, hclass]

end

/-! ## Result -/

/-- **Words that are identifiers are read, in any case and with any blanks around them.**  Of
    another word the identifier that it starts with is read: it gives the value of that word if the
    list has it, and else it is refused.  Whatever is refused, the complaint is about the line of
    the text and lists every word. -/
theorem scan_spelling (hk : k.Admitted) :
    (∀ w a, (w, a) ∈ k.words → ∀ before spelling after line,
      (∀ c ∈ before, isBlank c = true) → (∀ c ∈ after, isBlank c = true) →
      sameLetters w.toList spelling = true →
      let text := surrounded before spelling after
      (IsIdentifier w → k.scan (.start text line) = (.ok a, ⟨text, after, line⟩)) ∧
      (¬ IsIdentifier w → ∀ b, (k.scan (.start text line)).1 = .ok b ↔
        ∃ v, (v, b) ∈ k.words ∧ v ≠ w ∧ v.toList = w.toList.takeWhile isIdentifierChar)) ∧
    ∀ c, (∀ p ∈ k.words, sameLetters p.1.toList (c.run isIdentifierChar).1 = false) →
      ∃ complaint, (k.scan c).1 = .error (.unrecognized
        (complaint ++ ", ".intercalate (k.words.map (·.1))) c.line) := by
  refine ⟨fun w a hw before spelling after line hbefore hafter hspelling => ?_, fun c hc => ?_⟩
  · intro text
    obtain ⟨hrun, hfront⟩ := run_spelling hk hw hbefore hafter hspelling line
    have hfound : ∀ b, k.find? (spelling.takeWhile isIdentifierChar) = some b ↔
        ∃ v, (v, b) ∈ k.words ∧ v.toList = w.toList.takeWhile isIdentifierChar := by
      intro b
      rw [hk.find?_eq_some_iff, hfront]
    rw [hk.scan_eq, hrun]
    constructor
    · intro hident
      have hlower : w.toList = spelling.map Char.toLower := (hk.sameLetters_iff hw).mp hspelling
      have hall : ∀ c ∈ spelling, isIdentifierChar c = true := by
        intro c hc
        rw [← isIdentifierChar_toLower]
        exact hident _ (hlower ▸ List.mem_map_of_mem hc)
      rw [(hfound a).mpr ⟨w, hw, (List.takeWhile_eq_self_iff.mpr hident).symm⟩,
        List.dropWhile_eq_nil_iff.mpr hall]
      rfl
    · intro hident b
      have hother : ∀ v : String, v.toList = w.toList.takeWhile isIdentifierChar → v ≠ w := by
        rintro v hv rfl
        exact hident (List.takeWhile_eq_self_iff.mp hv.symm)
      have hresult : k.find? (spelling.takeWhile isIdentifierChar) = some b ↔
          ∃ v, (v, b) ∈ k.words ∧ v ≠ w ∧ v.toList = w.toList.takeWhile isIdentifierChar := by
        rw [hfound]
        exact exists_congr fun v => and_congr_right fun _ =>
          ⟨fun hv => ⟨hother v hv, hv⟩, And.right⟩
      rw [← hresult]
      cases k.find? (spelling.takeWhile isIdentifierChar) <;> simp
  · have hnone : k.find? (c.run isIdentifierChar).1 = none := by
      rw [Option.eq_none_iff_forall_ne_some]
      intro b hb
      obtain ⟨v, hv, hsame⟩ := hk.find?_eq_some_iff.mp hb
      have hnot := hc _ hv
      rw [(hk.sameLetters_iff hv).mpr hsame] at hnot
      cases hnot
    rw [hk.scan_eq, hnone]
    exact ⟨_, rfl⟩

/-- Sides and corners. -/
def corners : Keywords Nat := ⟨"Corner", [("top", 0), ("top-left", 1), ("left_1", 2), ("é", 3)]⟩

theorem admitted_corners : corners.Admitted where
  full := by decide
  distinct := by decide
  lower := by decide +kernel
  bare := by decide +kernel

/-- An identifier in mixed case, a word with another one in front of it, and one without. -/
theorem scan_spelling_corners :
    corners.scan (.start " \tLEFT_1\n" 5) = (.ok 2, ⟨" \tLEFT_1\n", ['\n'], 5⟩) ∧
    (corners.scan (.start "Top-Left" 5)).1 = .ok 0 ∧
    ∃ complaint, (corners.scan (.start "é" 5)).1 = .error (.unrecognized
      (complaint ++ ", ".intercalate ["top", "top-left", "left_1", "é"]) 5) := by
  have hblank : ∀ c ∈ [' ', '\t'], isBlank c = true := List.all_eq_true.mp rfl
  have hfeed : ∀ c ∈ ['\n'], isBlank c = true := List.all_eq_true.mp rfl
  have hnone : ∀ c ∈ ([] : List Char), isBlank c = true := List.forall_mem_nil _
  obtain ⟨hread, hrefused⟩ := scan_spelling admitted_corners
  refine ⟨?_, ?_, ?_⟩
  · exact (hread "left_1" 2 (by decide) [' ', '\t'] "LEFT_1".toList ['\n'] 5 hblank hfeed
      (by decide)).1 (by decide)
  · exact ((hread "top-left" 1 (by decide) [] "Top-Left".toList [] 5 hnone hnone
      (by decide)).2 (by decide) 0).mpr ⟨"top", by decide, by decide, by decide⟩
  · exact hrefused (.start "é" 5) (by decide)

/-- A word with a hyphen is taken for the word in front of it, or refused although the complaint
    lists it. -/
theorem spelling_strays :
    corners.Admitted ∧ ("top-left", 1) ∈ corners.words ∧
    corners.scan (.start "top-left" 1) = (.ok 0, ⟨"top-left", "-left".toList, 1⟩) ∧
    let k : Keywords Nat := ⟨"Corner", [("top-left", 0)]⟩
    k.Admitted ∧ (k.scan (.start "top-left" 1)).1 = .error (.unrecognized
      "Unrecognized value 'top-left' for Corner. Possible values: top-left" 1) := by
  refine ⟨admitted_corners, by decide, by decide +kernel, ⟨by decide, by decide, ?_, ?_⟩, ?_⟩
  all_goals decide +kernel

end Keywords

end ViewSheet
