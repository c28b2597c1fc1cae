/-
  Pieces: what trimming leaves of a text, and what cutting it at a character gives.

  1. **Runs**: a run of a class is as long as it can be (`run_append`).

  2. **Blanks**: the blanks are few, and none of them is a letter or a number.  Trimming leaves
     nothing of a text exactly when all of it is blank (`trim_eq_nil`).

  3. **Pieces**: what `pieces` gives is what stands between the separators, at the ends of the text
     or next to another separator (`mem_pieces`).
-/
import Mathlib.Data.List.TakeWhile
import ViewSheet.Text.Alphanumeric
import ViewSheet.Text.Blank
import ViewSheet.Text.Search

namespace ViewSheet.Text

/-! ## Runs -/

/-- A run does not go on where another character follows, or none. -/
theorem run_append_of_stop {p : Char → Bool} {rest : List Char}
    (hrest : ∀ c ∈ rest.head?, p c = false) (front : List Char) :
    (front ++ rest).takeWhile p = front.takeWhile p ∧
      (front ++ rest).dropWhile p = front.dropWhile p ++ rest := by
  induction front with
  | nil =>
    cases rest with
    | nil => exact ⟨rfl, rfl⟩
    | cons c cs =>
      have hc : ¬ p c = true := by simp [hrest c rfl]
      exact ⟨List.takeWhile_cons_of_neg hc, List.dropWhile_cons_of_neg hc⟩
  | cons c cs ih =>
    rw [List.cons_append, List.takeWhile_cons, List.takeWhile_cons, List.dropWhile_cons,
      List.dropWhile_cons, ih.1, ih.2]
    split <;> exact ⟨rfl, rfl⟩

/-- Characters of a class are a run where another character follows, or none. -/
theorem run_append {p : Char → Bool} {front rest : List Char} (hfront : ∀ c ∈ front, p c = true)
    (hrest : ∀ c ∈ rest.head?, p c = false) :
    (front ++ rest).takeWhile p = front ∧ (front ++ rest).dropWhile p = rest := by
  obtain ⟨htake, hdrop⟩ := run_append_of_stop hrest front
  rw [htake, hdrop, List.takeWhile_eq_self_iff.mpr hfront, List.dropWhile_eq_nil_iff.mpr hfront]
  exact ⟨rfl, rfl⟩

/-- What follows a run starts with another character, if it is not empty. -/
theorem head?_dropWhile_eq_false (p : Char → Bool) (cs : List Char) :
    ∀ c ∈ (cs.dropWhile p).head?, p c = false := by
  intro c hc
  have hnot := List.head?_dropWhile_not p cs
  rw [hc] at hnot
  exact hnot

/-! ## Blanks -/

/-- The blanks, by their code points. -/
def blankCodes : List Nat :=
  List.range' 0x09 5 ++ List.range' 0x2000 11 ++
    [0x20, 0x85, 0xA0, 0x1680, 0x2028, 0x2029, 0x202F, 0x205F, 0x3000]

theorem toNat_mem_blankCodes {c : Char} (h : isBlank c = true) : c.toNat ∈ blankCodes := by
  simp only [isBlank, Bool.or_eq_true, Bool.and_eq_true, decide_eq_true_eq, beq_iff_eq] at h
  simp only [blankCodes, List.mem_append, List.mem_range'_1, List.mem_cons, List.not_mem_nil,
    or_false]
  omega

/-- No blank is a letter or a number. -/
theorem not_isAlphanumeric_of_isBlank {c : Char} (h : isBlank c = true) :
    isAlphanumeric c = false := by
  have hall : ∀ n ∈ blankCodes, isAlphanumeric (Char.ofNat n) = false := by decide +kernel
  have hc := hall c.toNat (toNat_mem_blankCodes h)
  rwa [Char.ofNat_toNat] at hc

theorem trimStart_append {blanks : List Char} (h : ∀ c ∈ blanks, isBlank c = true)
    (rest : List Char) : trimStart (blanks ++ rest) = trimStart rest :=
  List.dropWhile_append_of_pos h

theorem trimStart_cons {c : Char} (h : isBlank c = false) (cs : List Char) :
    trimStart (c :: cs) = c :: cs :=
  List.dropWhile_cons_of_neg (by simp [h])

/-- A text is what it is without the blanks at its start, and blanks. -/
theorem exists_append_trimStart (cs : List Char) :
    ∃ blanks, cs = blanks ++ trimStart cs ∧ ∀ c ∈ blanks, isBlank c = true :=
  ⟨cs.takeWhile isBlank, List.takeWhile_append_dropWhile.symm, fun _ => List.mem_takeWhile_imp⟩

theorem trimEnd_eq_nil {cs : List Char} : trimEnd cs = [] ↔ ∀ c ∈ cs, isBlank c = true := by
  constructor
  · intro h
    obtain ⟨blanks, hcs, hblanks⟩ := trimEnd_append_blanks cs
    rw [h, List.nil_append] at hcs
    exact hcs ▸ hblanks
  · intro h
    induction cs with
    | nil => rfl
    | cons c cs ih =>
      rw [trimEnd, ih fun d hd => h d (List.mem_cons_of_mem c hd)]
      exact if_pos (h c List.mem_cons_self)

theorem trim_eq_nil {cs : List Char} : trim cs = [] ↔ ∀ c ∈ cs, isBlank c = true := by
  rw [trim, trimEnd_eq_nil]
  obtain ⟨blanks, hcs, hblanks⟩ := exists_append_trimStart cs
  constructor
  · intro h c hc
    rw [hcs] at hc
    exact (List.mem_append.mp hc).elim (hblanks c) (h c)
  · intro h c hc
    exact h c ((List.dropWhile_sublist _).subset hc)

/-! ## Pieces -/

/-- The pieces are those of the standard library. -/
theorem pieces_eq_splitOn (sep : Char) (cs : List Char) : pieces sep cs = cs.splitOn sep := by
  induction cs with
  | nil => rfl
  | cons c cs ih =>
    rw [pieces, List.splitOn, List.splitOnP_cons_eq_if_modifyHead, ih, List.splitOn]
    by_cases h : c = sep
    · rw [if_pos h, if_pos (beq_iff_eq.mpr h)]
    · rw [if_neg h, if_neg (by simpa using h)]
      obtain ⟨p, ps, hp⟩ := List.exists_cons_of_ne_nil (List.splitOnP_ne_nil (· == sep) cs)
      rw [hp]
      rfl

theorem headD_pieces (sep : Char) (cs : List Char) :
    (pieces sep cs).headD [] = cs.takeWhile (· ≠ sep) := by
  induction cs with
  | nil => rfl
  | cons c cs ih =>
    rw [pieces]
    by_cases h : c = sep
    · rw [if_pos h, List.takeWhile_cons_of_neg (by simpa using h)]
      rfl
    · rw [if_neg h, List.takeWhile_cons_of_pos (by simpa using h), ← ih]
      cases pieces sep cs <;> rfl

/-- A text stands between separators in another. -/
def IsPiece (sep : Char) (piece cs : List Char) : Prop :=
  ∃ left right, cs = left ++ piece ++ right ∧ sep ∉ piece ∧
    (left = [] ∨ ∃ l, left = l ++ [sep]) ∧ (right = [] ∨ ∃ r, right = sep :: r)

theorem not_mem_of_mem_pieces {sep : Char} {piece cs : List Char} (h : piece ∈ pieces sep cs) :
    sep ∉ piece := by
  induction cs generalizing piece with
  | nil =>
    rw [List.mem_singleton.mp h]
    exact List.not_mem_nil
  | cons c cs ih =>
    rw [pieces] at h
    split at h
    · rcases List.mem_cons.mp h with rfl | h
      · exact List.not_mem_nil
      · exact ih h
    · rename_i hc
      obtain ⟨p, ps, hp⟩ := List.exists_cons_of_ne_nil (pieces_ne_nil sep cs)
      rw [hp] at h ih
      rcases List.mem_cons.mp h with rfl | h
      · intro hmem
        rcases List.mem_cons.mp hmem with rfl | hmem
        · exact hc rfl
        · exact ih List.mem_cons_self hmem
      · exact ih (List.mem_cons_of_mem p h)

/-- What is put together with a separator has each part between separators. -/
theorem exists_eq_intercalate (sep : Char) (earlier : List (List Char)) (piece : List Char)
    (later : List (List Char)) :
    ∃ left right, [sep].intercalate (earlier ++ piece :: later) = left ++ piece ++ right ∧
      (left = [] ∨ ∃ l, left = l ++ [sep]) ∧ (right = [] ∨ ∃ r, right = sep :: r) := by
  induction earlier with
  | nil =>
    cases later with
    | nil => exact ⟨[], [], by simp, Or.inl rfl, Or.inl rfl⟩
    | cons p ps =>
      refine ⟨[], sep :: [sep].intercalate (p :: ps), ?_, Or.inl rfl, Or.inr ⟨_, rfl⟩⟩
      rw [List.nil_append, List.intercalate_cons_of_ne_nil (List.cons_ne_nil p ps),
        List.append_assoc]
      rfl
  | cons p earlier ih =>
    obtain ⟨left, right, heq, hleft, hright⟩ := ih
    refine ⟨p ++ [sep] ++ left, right, ?_, Or.inr ?_, hright⟩
    · rw [List.cons_append, List.intercalate_cons_of_ne_nil (by simp), heq]
      simp only [List.append_assoc]
    · rcases hleft with rfl | ⟨l, rfl⟩
      · exact ⟨p, List.append_nil _⟩
      · exact ⟨p ++ [sep] ++ l, by simp only [List.append_assoc]⟩

theorem mem_pieces {sep : Char} {piece cs : List Char} :
    piece ∈ pieces sep cs ↔ IsPiece sep piece cs := by
  constructor
  · intro h
    obtain ⟨earlier, later, hsplit⟩ := List.append_of_mem h
    obtain ⟨left, right, heq, hleft, hright⟩ := exists_eq_intercalate sep earlier piece later
    rw [← hsplit, intercalate_pieces] at heq
    exact ⟨left, right, heq, not_mem_of_mem_pieces h, hleft, hright⟩
  · rintro ⟨left, right, rfl, hsep, hleft, hright⟩
    have hcut : ∀ cs ds : List Char,
        (cs ++ sep :: ds).splitOn sep = cs.splitOn sep ++ ds.splitOn sep := fun cs ds =>
      List.splitOnP_append_cons (p := (· == sep)) cs ds (beq_self_eq_true sep)
    have hpiece : piece ∈ (piece ++ right).splitOn sep := by
      have hone : piece.splitOn sep = [piece] :=
        List.splitOnP_eq_singleton fun c hc => by
          simpa using fun heq : c = sep => hsep (heq ▸ hc)
      rcases hright with rfl | ⟨r, rfl⟩
      · rw [List.append_nil, hone]
        exact List.mem_singleton_self piece
      · rw [hcut, hone]
        exact List.mem_append_left _ (List.mem_singleton_self piece)
    rw [pieces_eq_splitOn]
    rcases hleft with rfl | ⟨l, rfl⟩
    · exact hpiece
    · rw [List.append_assoc, List.append_assoc, List.singleton_append, hcut]
      exact List.mem_append_right _ hpiece

end ViewSheet.Text
