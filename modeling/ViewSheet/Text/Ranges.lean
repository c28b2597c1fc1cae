/-
  Sets of characters given as sorted lists of closed ranges of code points.

  1. **Program**: `inRanges rs n` walks the list from the left and stops at the first range that
     begins above `n`; on a sorted list nothing behind that range can hold `n`.

  2. **Specification**: `Sorted rs` says that the ranges are non-empty, disjoint and ascending.  On
     a sorted list the early stop changes nothing: `inRanges rs n` holds exactly when some range of
     the list holds `n` (`inRanges_iff`).
-/

namespace ViewSheet.Text

/-! ## The walk -/

/-- Whether `n` lies in one of the ranges, which ascend. -/
def inRanges : List (Nat × Nat) → Nat → Bool
  | [], _ => false
  | (low, high) :: rest, n => if n < low then false else n ≤ high || inRanges rest n

/-! ## What a sorted list promises -/

/-- Every range is non-empty and ends below the start of all later ones. -/
def Sorted : List (Nat × Nat) → Prop
  | [] => True
  | (low, high) :: rest => low ≤ high ∧ (∀ r ∈ rest, high < r.1) ∧ Sorted rest

theorem inRanges_iff {rs : List (Nat × Nat)} (h : Sorted rs) (n : Nat) :
    inRanges rs n = true ↔ ∃ r ∈ rs, r.1 ≤ n ∧ n ≤ r.2 := by
  induction rs with
  | nil => simp [inRanges]
  | cons r rest ih =>
    obtain ⟨low, high⟩ := r
    obtain ⟨hle, hlater, hrest⟩ := h
    unfold inRanges
    split
    · rename_i hlow
      constructor
      · intro hf
        cases hf
      · rintro ⟨r, hr, h1, h2⟩
        rcases List.mem_cons.1 hr with rfl | hr
        · omega
        · have := hlater r hr
          omega
    · rename_i hlow
      simp only [Bool.or_eq_true, decide_eq_true_eq, ih hrest, List.mem_cons]
      constructor
      · rintro (h | ⟨r, hr, h1, h2⟩)
        · exact ⟨(low, high), Or.inl rfl, Nat.le_of_not_lt hlow, h⟩
        · exact ⟨r, Or.inr hr, h1, h2⟩
      · rintro ⟨r, rfl | hr, h1, h2⟩
        · exact Or.inl h2
        · exact Or.inr ⟨r, hr, h1, h2⟩

end ViewSheet.Text
