/-
  Looking for one text inside another, over lists of characters.

  1. **Program**: `stripStart?` takes a text off the front, `cutAt?` splits at the first occurrence
     of a text, `pieces` splits at every occurrence of one character, `replaceAll` exchanges every
     occurrence of a non-empty text, left to right and without looking into what it has written.

  2. **Specification**: a successful `stripStart?` is an equation (`eq_append_of_stripStart?`), and
     so is a successful `cutAt?` (`eq_of_cutAt?`); the pieces of a text, with the separator put back
     between them, are the text (`intercalate_pieces`).
-/

namespace ViewSheet.Text

/-! ## Programs -/

/-- What follows `lead`, if the text starts with it. -/
def stripStart? : List Char → List Char → Option (List Char)
  | [], cs => some cs
  | _ :: _, [] => none
  | l :: ls, c :: cs => if l = c then stripStart? ls cs else none

/-- The text before and after the first occurrence of `mark`. -/
def cutAt? (mark : List Char) : List Char → Option (List Char × List Char)
  | [] => (stripStart? mark []).map fun rest => ([], rest)
  | c :: cs => match stripStart? mark (c :: cs) with
    | some rest => some ([], rest)
    | none => (cutAt? mark cs).map fun (before, after) => (c :: before, after)

/-- The text before the first occurrence of `mark`; all of it if there is none. -/
def before (mark cs : List Char) : List Char :=
  match cutAt? mark cs with
  | some (head, _) => head
  | none => cs

/-- The stretches between the occurrences of `sep`; there is always at least one. -/
def pieces (sep : Char) : List Char → List (List Char)
  | [] => [[]]
  | c :: cs =>
    if c = sep then [] :: pieces sep cs
    else match pieces sep cs with
      | [] => [[c]]
      | p :: ps => (c :: p) :: ps

/-- Steps over `skip` characters of an occurrence that is already exchanged, then goes on. -/
def replaceFrom (old new : List Char) : Nat → List Char → List Char
  | _, [] => []
  | skip + 1, _ :: cs => replaceFrom old new skip cs
  | 0, c :: cs =>
    if old.isPrefixOf (c :: cs) then new ++ replaceFrom old new (old.length - 1) cs
    else c :: replaceFrom old new 0 cs

/-- The text with every occurrence of `old`, which is not empty, exchanged for `new`. -/
def replaceAll (old new cs : List Char) : List Char := replaceFrom old new 0 cs

/-! ## What they find -/

theorem eq_append_of_stripStart? {lead cs rest : List Char}
    (h : stripStart? lead cs = some rest) : cs = lead ++ rest := by
  induction lead generalizing cs with
  | nil => simpa [stripStart?] using h
  | cons l ls ih =>
    cases cs with
    | nil => simp [stripStart?] at h
    | cons c cs =>
      simp only [stripStart?] at h
      split at h
      · rename_i hc
        rw [ih h, hc, List.cons_append]
      · simp at h

theorem stripStart?_append (lead rest : List Char) :
    stripStart? lead (lead ++ rest) = some rest := by
  induction lead with
  | nil => rfl
  | cons l ls ih => simpa [stripStart?] using ih

theorem eq_of_cutAt? {mark cs head tail : List Char}
    (h : cutAt? mark cs = some (head, tail)) : cs = head ++ mark ++ tail := by
  induction cs generalizing head with
  | nil =>
    simp only [cutAt?, Option.map_eq_some_iff, Prod.mk.injEq] at h
    obtain ⟨rest, hrest, rfl, rfl⟩ := h
    simpa using eq_append_of_stripStart? hrest
  | cons c cs ih =>
    rw [cutAt?] at h
    split at h
    · rename_i rest hrest
      simp only [Option.some.injEq, Prod.mk.injEq] at h
      obtain ⟨rfl, rfl⟩ := h
      simpa using eq_append_of_stripStart? hrest
    · simp only [Option.map_eq_some_iff, Prod.mk.injEq] at h
      obtain ⟨⟨head', tail'⟩, hcut, rfl, rfl⟩ := h
      rw [List.cons_append, List.cons_append, ← ih hcut]

/-- The text before a delimiter, and what starts with the delimiter. -/
theorem before_append_drop (mark cs : List Char) :
    before mark cs ++ cs.drop (before mark cs).length = cs := by
  unfold before
  split
  · rename_i head tail hcut
    rw [eq_of_cutAt? hcut, List.append_assoc, List.drop_left]
  · rw [List.drop_length, List.append_nil]

theorem pieces_ne_nil (sep : Char) (cs : List Char) : pieces sep cs ≠ [] := by
  cases cs with
  | nil => simp [pieces]
  | cons c cs =>
    rw [pieces]
    split
    · simp
    · split <;> simp

theorem intercalate_pieces (sep : Char) (cs : List Char) :
    [sep].intercalate (pieces sep cs) = cs := by
  induction cs with
  | nil => rfl
  | cons c cs ih =>
    rw [pieces]
    obtain ⟨p, ps, hp⟩ : ∃ p ps, pieces sep cs = p :: ps := by
      cases h : pieces sep cs with
      | nil => exact absurd h (pieces_ne_nil sep cs)
      | cons p ps => exact ⟨p, ps, rfl⟩
    rw [hp] at ih ⊢
    split
    · rename_i hc
      rw [List.intercalate_cons_of_ne_nil (by simp), ih, hc]
      rfl
    · cases ps with
      | nil => simpa using ih
      | cons q qs =>
        rw [List.intercalate_cons_of_ne_nil (by simp)] at ih ⊢
        rw [← ih]
        rfl

end ViewSheet.Text
