/-
  Integers: which texts are integers of 64 bits.

  1. **Program**: `whole` takes a sign off the front, if there is one, and then the run of digits.
     It works out what the digits come to, however many there are, and only then asks whether that
     is within 64 bits.

  2. **Specification**: `IntegerLiteral` says how an integer is written and which one it is.  A
     digit counts by its place (`placeValue`), and leading zeros do not count.

  3. **The crux** (`digitsValue_eq`): adding digit by digit comes to the value by place.  Nothing
     wraps around on the way, so a value out of range is seen as what it is.

  4. **Result** (`whole_exact`): a text is read exactly if it starts with a literal in range, and
     the literal is taken.  An integer of 64 bits is read back from the way it is printed.
-/
import Mathlib.Data.Nat.Digits.Defs
import ViewSheet.Proofs.Blame
import ViewSheet.Proofs.Pieces

namespace ViewSheet

open Text

/-! ## How an integer is written -/

/-- Digits, at least one. -/
def IsDigits (cs : List Char) : Prop := cs ≠ [] ∧ ∀ c ∈ cs, isDigit c = true

/-- What digits come to, each by its place. -/
def placeValue (digits : List Char) : Nat :=
  Nat.ofDigits 10 (digits.map fun c => c.toNat - '0'.toNat).reverse

/-- The text is an integer, with or without a sign. -/
inductive IntegerLiteral : List Char → Int → Prop where
  | unsigned {digits : List Char} (h : IsDigits digits) : IntegerLiteral digits (placeValue digits)
  | plus {digits : List Char} (h : IsDigits digits) :
      IntegerLiteral ('+' :: digits) (placeValue digits)
  | minus {digits : List Char} (h : IsDigits digits) :
      IntegerLiteral ('-' :: digits) (-(placeValue digits : Int))

/-- The integer is one of 64 bits. -/
def Fits (n : Int) : Prop := -2 ^ 63 ≤ n ∧ n ≤ 2 ^ 63 - 1

/-! ## What digits come to -/

/-- **Adding digit by digit comes to the value by place**, by induction on the last digit. -/
theorem digitsValue_eq (digits : List Char) : digitsValue digits = placeValue digits := by
  induction digits using List.reverseRecOn with
  | nil => rfl
  | append_singleton front d ih =>
    have hlast : digitsValue (front ++ [d]) = 10 * digitsValue front + (d.toNat - '0'.toNat) := by
      rw [digitsValue, List.foldl_append]
      rfl
    rw [hlast, ih, placeValue, placeValue, List.map_append, List.reverse_append, List.map_singleton,
      List.reverse_singleton, List.singleton_append, Nat.ofDigits_cons]
    exact Nat.add_comm _ _

theorem isDigit_of_isDigit {c : Char} (h : c.isDigit = true) : isDigit c = true := by
  simpa only [isDigit, Char.isDigit, Char.le_def, ge_iff_le, Bool.and_eq_true,
    decide_eq_true_eq] using h

/-- A natural number is printed as digits that come to it. -/
theorem isDigits_repr (n : Nat) : IsDigits n.repr.toList ∧ placeValue n.repr.toList = n := by
  rw [Nat.repr_eq_ofList_toDigits, String.toList_ofList]
  refine ⟨⟨List.length_pos_iff.mp Nat.length_toDigits_pos, fun c hc => ?_⟩, ?_⟩
  · exact isDigit_of_isDigit (Nat.isDigit_of_mem_toDigits (by decide) (by decide) hc)
  · rw [← digitsValue_eq]
    exact Nat.ofDigitChars_ten_toDigits

/-- An integer is printed as a literal of it. -/
theorem integerLiteral_toString (n : Int) : IntegerLiteral (toString n).toList n := by
  rw [Int.toString_eq_repr, Int.repr_eq_if]
  split
  · rename_i hn
    obtain ⟨hdigits, hvalue⟩ := isDigits_repr n.toNat
    have h := IntegerLiteral.unsigned hdigits
    rwa [hvalue, Int.toNat_of_nonneg hn] at h
  · rename_i hn
    obtain ⟨hdigits, hvalue⟩ := isDigits_repr (-n).toNat
    have h := IntegerLiteral.minus hdigits
    rw [hvalue, Int.toNat_of_nonneg (by omega), Int.neg_neg] at h
    rwa [String.toList_append]

namespace Cursor

/-! ## Signs in front of digits -/

/-- A number with its sign. -/
def signed (negative : Bool) (n : Nat) : Int := if negative then -n else n

theorem signOf_of_ne {c : Char} (hminus : c ≠ '-') (hplus : c ≠ '+') (cs : List Char) :
    signOf (c :: cs) = (false, c :: cs) := by
  unfold signOf
  split
  · rename_i heq
    exact absurd (List.cons.inj heq).1 hminus
  · rename_i heq
    exact absurd (List.cons.inj heq).1 hplus
  · rfl

/-- In front of a literal, the sign is taken off and the digits are left. -/
theorem signOf_literal {literal : List Char} {n : Int} (h : IntegerLiteral literal n)
    (tail : List Char) : ∃ negative digits, signOf (literal ++ tail) = (negative, digits ++ tail) ∧
      IsDigits digits ∧ n = signed negative (digitsValue digits) := by
  cases h with
  | @unsigned digits h =>
    refine ⟨false, literal, ?_, h, by rw [digitsValue_eq]; rfl⟩
    obtain ⟨d, ds, rfl⟩ := List.exists_cons_of_ne_nil h.1
    have hd := h.2 d List.mem_cons_self
    exact signOf_of_ne (by rintro rfl; exact absurd hd (by decide))
      (by rintro rfl; exact absurd hd (by decide)) _
  | @plus digits h => exact ⟨false, digits, rfl, h, by rw [digitsValue_eq]; rfl⟩
  | @minus digits h => exact ⟨true, digits, rfl, h, by rw [digitsValue_eq]; rfl⟩

/-- Digits behind what was taken off as a sign make a literal with it. -/
theorem literal_of_signOf {cs digits tail : List Char} {negative : Bool}
    (h : signOf cs = (negative, digits ++ tail)) (hdigits : IsDigits digits) :
    ∃ literal, cs = literal ++ tail ∧
      IntegerLiteral literal (signed negative (digitsValue digits)) := by
  rw [digitsValue_eq]
  unfold signOf at h
  split at h
  all_goals
    obtain ⟨rfl, rfl⟩ := Prod.mk.inj h
  · exact ⟨'-' :: digits, rfl, .minus hdigits⟩
  · exact ⟨'+' :: digits, rfl, .plus hdigits⟩
  · exact ⟨digits, rfl, .unsigned hdigits⟩

theorem inRange_iff {n : Int} : inRange n = true ↔ Fits n := by
  have hlimit : (twoTo 63 : Int) = 2 ^ 63 := rfl
  rw [inRange, hlimit, Bool.and_eq_true, decide_eq_true_eq, decide_eq_true_eq, Fits]
  omega

/-! ## What is read -/

/-- An integer is read off the sign and the run of digits that come next. -/
theorem whole_eq_ok_iff {c c' : Cursor} {n : Int} : whole c = (.ok n, c') ↔
    ∃ negative rest, signOf c.skipBlanks.rest = (negative, rest) ∧ rest.takeWhile isDigit ≠ [] ∧
      n = signed negative (digitsValue (rest.takeWhile isDigit)) ∧ Fits n ∧
      c' = { c with rest := rest.dropWhile isDigit } := by
  rcases hsign : signOf c.skipBlanks.rest with ⟨negative, rest⟩
  have hwhole : whole c = if (rest.takeWhile isDigit).isEmpty then
        (.error (c.skipBlanks.expected "integer"), c.skipBlanks)
      else if inRange (signed negative (digitsValue (rest.takeWhile isDigit))) then
        (.ok (signed negative (digitsValue (rest.takeWhile isDigit))),
          { c with rest := rest.dropWhile isDigit })
      else
        (.error (c.skipBlanks.expected "integer"), { c with rest := rest.dropWhile isDigit }) := by
    rw [whole, hsign]
    rfl
  rw [hwhole]
  constructor
  · intro h
    split at h
    · cases h
    · rename_i hdigits
      split at h
      · rename_i hrange
        obtain ⟨hn, rfl⟩ := Prod.mk.inj h
        obtain rfl := Except.ok.inj hn
        exact ⟨negative, rest, rfl, fun hnil => hdigits (List.isEmpty_iff.mpr hnil), rfl,
          inRange_iff.mp hrange, rfl⟩
      · cases h
  · rintro ⟨_, _, heq, hdigits, rfl, hfits, rfl⟩
    obtain ⟨rfl, rfl⟩ := Prod.mk.inj heq
    rw [if_neg (by simpa using hdigits), if_pos (inRange_iff.mpr hfits)]

/-- A literal in range comes next, as long as it can be, and the other cursor stands behind it. -/
def IntegerNext (c : Cursor) (n : Int) (c' : Cursor) : Prop :=
  ∃ blanks literal tail, c.rest = blanks ++ (literal ++ tail) ∧
    (∀ b ∈ blanks, isBlank b = true) ∧ IntegerLiteral literal n ∧
    (∀ d ∈ tail.head?, isDigit d = false) ∧ Fits n ∧ c' = { c with rest := tail }

/-- A literal starts with a character that is not passed over as a blank. -/
theorem trimStart_integer {literal : List Char} {n : Int} (h : IntegerLiteral literal n)
    (tail : List Char) : trimStart (literal ++ tail) = literal ++ tail := by
  have hdigit : ∀ d, isDigit d = true → isBlank d = false := by
    intro d hd
    refine Bool.eq_false_iff.mpr fun hblank => ?_
    have hnot := not_isAlphanumeric_of_isBlank hblank
    rw [isAlphanumeric_of_isDigit hd] at hnot
    cases hnot
  cases h with
  | unsigned h =>
    obtain ⟨d, ds, rfl⟩ := List.exists_cons_of_ne_nil h.1
    exact trimStart_cons (hdigit d (h.2 d List.mem_cons_self)) _
  | plus h => exact trimStart_cons (by decide) _
  | minus h => exact trimStart_cons (by decide) _

/-- **An integer is read exactly if a literal in range comes next.** -/
theorem whole_iff {c c' : Cursor} {n : Int} : whole c = (.ok n, c') ↔ IntegerNext c n c' := by
  rw [whole_eq_ok_iff]
  constructor
  · rintro ⟨negative, rest, hsign, hfull, rfl, hfits, rfl⟩
    have hsplit := List.takeWhile_append_dropWhile (p := isDigit) (l := rest)
    rw [← hsplit] at hsign
    obtain ⟨literal, hliteral, hinteger⟩ :=
      literal_of_signOf hsign ⟨hfull, fun _ => List.mem_takeWhile_imp⟩
    obtain ⟨blanks, hblanks, hall⟩ := exists_append_trimStart c.rest
    rw [show trimStart c.rest = _ from hliteral] at hblanks
    exact ⟨blanks, literal, _, hblanks, hall, hinteger, head?_dropWhile_eq_false isDigit rest,
      hfits, rfl⟩
  · rintro ⟨blanks, literal, tail, hc, hall, hinteger, hstop, hfits, rfl⟩
    obtain ⟨negative, digits, hsign, hdigits, hn⟩ := signOf_literal hinteger tail
    obtain ⟨htake, hdrop⟩ := run_append hdigits.2 hstop
    refine ⟨negative, digits ++ tail, ?_, by rw [htake]; exact hdigits.1, by rw [htake]; exact hn,
      hfits, by rw [hdrop]⟩
    rw [← hsign, skipBlanks, hc, trimStart_append hall, trimStart_integer hinteger]

/-- **Integers of 64 bits.**  A text is read exactly if a literal in range comes next, with digits
    as far as they go, and then the literal is taken and nothing behind it.  Every other text is
    text that makes no sense, on the line of the cursor.  What an integer of 64 bits is printed as
    is read as this integer, whatever follows that is no digit. -/
theorem whole_exact :
    (∀ c n c', whole c = (.ok n, c') ↔ IntegerNext c n c') ∧
    (∀ c, (¬ ∃ n c', IntegerNext c n c') →
      ∃ detail, (whole c).1 = .error (.unrecognized detail c.line)) ∧
    (∀ (n : Int64) (c : Cursor) (tail : List Char), (∀ d ∈ tail.head?, isDigit d = false) →
      c.rest = (toString n).toList ++ tail →
      whole c = (.ok n.toInt, { c with rest := tail })) := by
  refine ⟨fun c n c' => whole_iff, fun c hnot => ?_, fun n c tail hstop hc => ?_⟩
  · rcases hrun : whole c with ⟨e | n, c'⟩
    · obtain ⟨-, hblames⟩ := blames_whole c
      rw [hrun] at hblames
      obtain ⟨detail, rfl⟩ := hblames e rfl
      exact ⟨detail, rfl⟩
    · exact absurd ⟨n, c', whole_iff.mp hrun⟩ hnot
  · have hfits : Fits n.toInt := by
      have hleast := n.le_toInt
      have hgreatest := n.toInt_lt
      rw [Fits]
      omega
    exact whole_iff.mpr ⟨[], (toString n.toInt).toList, tail, hc, List.forall_mem_nil _,
      integerLiteral_toString n.toInt, hstop, hfits, rfl⟩

/-- The least integer is read back, the one before it is refused, and zeros in front make no
    difference. -/
theorem whole_exact_limits :
    whole (start "-9223372036854775808px" 3) =
      (.ok (-9223372036854775808), { start "-9223372036854775808px" 3 with rest := ['p', 'x'] }) ∧
    (∀ n c', ¬ IntegerNext (start " -9223372036854775809" 3) n c') ∧
    IntegerNext (start "+0007" 3) 7 { start "+0007" 3 with rest := [] } := by
  obtain ⟨hiff, -, hback⟩ := whole_exact
  have hstop : ∀ d ∈ ['p', 'x'].head?, isDigit d = false := by
    rintro d ⟨⟩
    rfl
  refine ⟨hback Int64.minValue (start "-9223372036854775808px" 3) ['p', 'x'] hstop rfl,
    fun n c' hnext => ?_, (hiff _ _ _).mp (by decide +kernel)⟩
  have hrefused : (whole (start " -9223372036854775809" 3)).1.isOk = false := by decide +kernel
  rw [(hiff _ n c').mpr hnext] at hrefused
  cases hrefused

end Cursor

end ViewSheet
