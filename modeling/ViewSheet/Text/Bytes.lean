/-
  Texts by bytes: how long a text is in UTF-8, and where in it something stands.

  1. **Program**: offsets into a text count bytes.  `cutBytes?` cuts a text at an offset, which has
     to be between two characters or at an end.  `findChar?` and `findText?` give the offset of the
     first character of a class, and of the first occurrence of a text.

  2. **Specification**: a cut is an equation (`cutBytes?_eq_some_iff`).  What stands before the
     offset that is found is a `takeWhile` (`findChar?_getD`), or the text `before` the other one
     (`findText?_getD`).
-/
import ViewSheet.Text.Search

namespace ViewSheet.Text

/-! ## Programs -/

/-- How many bytes a text has. -/
def byteLength : List Char → Nat
  | [] => 0
  | c :: cs => c.utf8Size + byteLength cs

/-- The text before an offset and the text behind it.  There is no cut inside a character, nor
    beyond the end. -/
def cutBytes? : List Char → Nat → Option (List Char × List Char)
  | cs, 0 => some ([], cs)
  | [], _ + 1 => none
  | c :: cs, n + 1 =>
    if c.utf8Size ≤ n + 1 then
      (cutBytes? cs (n + 1 - c.utf8Size)).map fun (front, back) => (c :: front, back)
    else none

/-- The offset of the first character of a class. -/
def findChar? (p : Char → Bool) : List Char → Option Nat
  | [] => none
  | c :: cs => if p c then some 0 else (findChar? p cs).map (c.utf8Size + ·)

/-- The offset of the first occurrence of `mark`. -/
def findText? (mark : List Char) : List Char → Option Nat
  | [] => (stripStart? mark []).map fun _ => 0
  | c :: cs => match stripStart? mark (c :: cs) with
    | some _ => some 0
    | none => (findText? mark cs).map (c.utf8Size + ·)

/-! ## Lengths -/

theorem byteLength_append (a b : List Char) :
    byteLength (a ++ b) = byteLength a + byteLength b := by
  induction a with
  | nil => exact (Nat.zero_add _).symm
  | cons c a ih => rw [List.cons_append, byteLength, byteLength, ih, Nat.add_assoc]

theorem byteLength_eq (cs : List Char) : byteLength cs = (String.ofList cs).utf8ByteSize := by
  induction cs with
  | nil => rfl
  | cons c cs ih =>
    rw [byteLength, ih, ← List.singleton_append, String.ofList_append, String.utf8ByteSize_append,
      ← String.singleton_eq_ofList, String.utf8ByteSize_singleton]

theorem byteLength_eq_zero_iff {cs : List Char} : byteLength cs = 0 ↔ cs = [] := by
  cases cs with
  | nil => exact iff_of_true rfl rfl
  | cons c cs =>
    have hpos := c.utf8Size_pos
    rw [byteLength]
    refine iff_of_false ?_ (List.cons_ne_nil c cs)
    omega

/-! ## Cuts -/

/-- At the start of a text nothing is before the cut. -/
theorem cutBytes?_zero_iff {cs front back : List Char} :
    cutBytes? cs 0 = some (front, back) ↔ cs = front ++ back ∧ byteLength front = 0 := by
  rw [cutBytes?, Option.some.injEq, Prod.mk.injEq, byteLength_eq_zero_iff]
  constructor
  · rintro ⟨rfl, rfl⟩
    exact ⟨rfl, rfl⟩
  · rintro ⟨hsplit, rfl⟩
    exact ⟨rfl, hsplit⟩

/-- **A cut is an equation**: the parts make up the text, and the first has that many bytes. -/
theorem cutBytes?_eq_some_iff {cs front back : List Char} {n : Nat} :
    cutBytes? cs n = some (front, back) ↔ cs = front ++ back ∧ byteLength front = n := by
  induction cs generalizing front n with
  | nil =>
    cases n with
    | zero => exact cutBytes?_zero_iff
    | succ n =>
      rw [cutBytes?]
      refine iff_of_false (by rintro ⟨⟩) ?_
      rintro ⟨hsplit, hbytes⟩
      rw [(List.append_eq_nil_iff.mp hsplit.symm).1] at hbytes
      cases hbytes
  | cons c cs ih =>
    cases n with
    | zero => exact cutBytes?_zero_iff
    | succ n =>
      rw [cutBytes?]
      constructor
      · intro h
        split at h
        · rename_i hfits
          obtain ⟨⟨front', back'⟩, hcut, heq⟩ := Option.map_eq_some_iff.mp h
          obtain ⟨rfl, rfl⟩ := Prod.mk.inj heq
          obtain ⟨rfl, hbytes⟩ := ih.mp hcut
          refine ⟨rfl, ?_⟩
          rw [byteLength, hbytes]
          omega
        · cases h
      · rintro ⟨hsplit, hbytes⟩
        cases front with
        | nil => cases hbytes
        | cons d front =>
          obtain ⟨rfl, rfl⟩ := List.cons.inj hsplit
          rw [byteLength] at hbytes
          rw [if_pos (by omega), ih.mpr ⟨rfl, by omega⟩]
          rfl

/-! ## Offsets -/

/-- What stands before the first character of the other class, or all of it. -/
theorem findChar?_getD (p : Char → Bool) (cs : List Char) :
    (findChar? (!p ·) cs).getD (byteLength cs) = byteLength (cs.takeWhile p) := by
  induction cs with
  | nil => rfl
  | cons c cs ih =>
    rw [findChar?]
    by_cases hc : p c = true
    · rw [List.takeWhile_cons_of_pos hc, byteLength, byteLength, ← ih, if_neg (by simp [hc])]
      cases findChar? (!p ·) cs <;> rfl
    · rw [List.takeWhile_cons_of_neg hc, if_pos (by simpa using hc)]
      rfl

/-- What stands before the first occurrence, or all of it. -/
theorem findText?_getD (mark cs : List Char) :
    (findText? mark cs).getD (byteLength cs) = byteLength (before mark cs) := by
  induction cs with
  | nil =>
    rw [findText?, before, cutAt?]
    cases stripStart? mark [] <;> rfl
  | cons c cs ih =>
    rw [findText?, before, cutAt?]
    cases stripStart? mark (c :: cs) with
    | some rest => rfl
    | none =>
      have hlater : ((findText? mark cs).map (c.utf8Size + ·)).getD (byteLength (c :: cs)) =
          c.utf8Size + (findText? mark cs).getD (byteLength cs) := by
        cases findText? mark cs <;> rfl
      dsimp only
      rw [hlater, ih, before]
      rcases cutAt? mark cs with _ | ⟨head, tail⟩ <;> rfl

end ViewSheet.Text
