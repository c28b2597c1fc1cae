/-
  White space and trimming.

  1. **Program**: `isBlank` is the Unicode property White_Space: the tab and line controls, the
     space, U+0085, and the spaces and separators beyond.  `trimStart`, `trimEnd` and `trim` drop
     blanks at one end or both, on lists of characters; `trimmed` is `trim` on strings.

  2. **Specification**: trimming the end leaves a list that ends in no blank (`trimEnd_getLast?`),
     and what was dropped is blank throughout (`trimEnd_append_blanks`); the start is
     `List.dropWhile`, about which the library has these facts.  What a run has taken is gone
     (`length_dropWhile_lt`), and blanks are passed over once (`trimStart_trimStart`).
-/

namespace ViewSheet.Text

/-! ## The class -/

/-- A white-space character of any script. -/
def isBlank (c : Char) : Bool :=
  let n := c.toNat
  (0x09 ≤ n && n ≤ 0x0D) || n == 0x20 || n == 0x85 || n == 0xA0 || n == 0x1680 ||
    (0x2000 ≤ n && n ≤ 0x200A) || n == 0x2028 || n == 0x2029 || n == 0x202F || n == 0x205F ||
    n == 0x3000

/-! ## Trimming -/

/-- The text without the blanks it starts with. -/
def trimStart (cs : List Char) : List Char := cs.dropWhile isBlank

/-- The text without the blanks it ends with. -/
def trimEnd : List Char → List Char
  | [] => []
  | c :: cs => match trimEnd cs with
    | [] => if isBlank c then [] else [c]
    | kept => c :: kept

/-- The text without the blanks around it. -/
def trim (cs : List Char) : List Char := trimEnd (trimStart cs)

/-- The string without the blanks around it. -/
def trimmed (s : String) : String := String.ofList (trim s.toList)

/-- The UTF-8 length of the blanks a line starts with: how far the line is indented. -/
def indentOf (cs : List Char) : Nat :=
  (cs.takeWhile isBlank).foldl (fun size c => size + c.utf8Size) 0

/-! ## What trimming does -/

theorem length_dropWhile_lt {p : Char → Bool} {cs : List Char} (h : cs.takeWhile p ≠ []) :
    (cs.dropWhile p).length < cs.length := by
  have hpos := List.length_pos_iff.mpr h
  have hsplit := congrArg List.length (List.takeWhile_append_dropWhile (p := p) (l := cs))
  rw [List.length_append] at hsplit
  omega

theorem trimStart_trimStart (cs : List Char) : trimStart (trimStart cs) = trimStart cs := by
  induction cs with
  | nil => rfl
  | cons c cs ih =>
    by_cases hc : isBlank c = true
    · rw [show trimStart (c :: cs) = trimStart cs from List.dropWhile_cons_of_pos hc, ih]
    · have hkeep : trimStart (c :: cs) = c :: cs := List.dropWhile_cons_of_neg hc
      rw [hkeep, hkeep]

theorem trimEnd_append_blanks (cs : List Char) :
    ∃ blanks, cs = trimEnd cs ++ blanks ∧ ∀ c ∈ blanks, isBlank c = true := by
  induction cs with
  | nil => exact ⟨[], rfl, by simp⟩
  | cons c cs ih =>
    obtain ⟨blanks, hsplit, hblank⟩ := ih
    rw [trimEnd]
    split
    · rename_i hnil
      rw [hnil, List.nil_append] at hsplit
      split
      · rename_i hc
        exact ⟨c :: cs, rfl, by simpa [hc, hsplit] using hblank⟩
      · exact ⟨cs, rfl, by simpa [hsplit] using hblank⟩
    · exact ⟨blanks, by rw [List.cons_append, ← hsplit], hblank⟩

theorem trimEnd_getLast? (cs : List Char) :
    ∀ c, (trimEnd cs).getLast? = some c → isBlank c = false := by
  induction cs with
  | nil => simp [trimEnd]
  | cons d cs ih =>
    intro c
    rw [trimEnd]
    split
    · split
      · simp
      · rename_i hd
        intro h
        simp only [List.getLast?_singleton, Option.some.injEq] at h
        simpa [h] using hd
    · rename_i hne
      intro h
      apply ih
      rwa [List.getLast?_cons_of_ne_nil hne] at h

end ViewSheet.Text
