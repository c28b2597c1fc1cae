/-
  Literals: which texts are numbers, and what a cursor takes for one.

  1. **Program**: `Decimal.read?` takes a text apart into a sign and the digits before and after the
     point.  At a cursor the whole run of digits, points and minus signs has to be one literal.

  2. **Specification**: a literal matches the regular expression `-?(\d*\.\d+|\d+\.?\d*)`
     (`Decimal.pattern`); its number is what the reading makes of it (`Decimal.numberOf`).

  3. **Result**: `read?` succeeds on what matches and on nothing else (`isSome_read?_iff`), so a
     number at a cursor is the run that comes next, if that run is a literal (`float_eq_ok_iff`).
-/
import Mathlib.Computability.RegularExpressions
import ViewSheet.Cursor.Number
import ViewSheet.Proofs.Pieces

namespace ViewSheet

open Text RegularExpression

namespace Decimal

/-! ## The pattern -/

/-- One of these characters. -/
def oneOf (cs : List Char) : RegularExpression Char := (cs.map char).foldr (· + ·) 0

/-- Once or not at all. -/
def perhaps (p : RegularExpression Char) : RegularExpression Char := 1 + p

/-- At least once. -/
def several (p : RegularExpression Char) : RegularExpression Char := p * star p

/-- `\d` -/
def digit : RegularExpression Char := oneOf ['0', '1', '2', '3', '4', '5', '6', '7', '8', '9']

/-- `\d*\.\d+|\d+\.?\d*` -/
def unsigned : RegularExpression Char :=
  star digit * char '.' * several digit + several digit * perhaps (char '.') * star digit

/-- `-?(\d*\.\d+|\d+\.?\d*)` -/
def pattern : RegularExpression Char := perhaps (char '-') * unsigned

/-- A decimal literal from end to end. -/
def IsLiteral (cs : List Char) : Prop := cs ∈ pattern.matches'

instance (cs : List Char) : Decidable (IsLiteral cs) :=
  decidable_of_iff _ (rmatch_iff_matches' pattern cs)

/-! ## What matches -/

theorem mem_oneOf {cs w : List Char} : w ∈ (oneOf cs).matches' ↔ ∃ c ∈ cs, w = [c] := by
  induction cs with
  | nil => exact ⟨False.elim, by rintro ⟨c, ⟨⟩, -⟩⟩
  | cons d ds ih =>
    rw [show oneOf (d :: ds) = char d + oneOf ds from rfl, matches'_add, Language.mem_add, ih,
      matches'_char]
    constructor
    · rintro (rfl | ⟨c, hc, rfl⟩)
      · exact ⟨d, List.mem_cons_self, rfl⟩
      · exact ⟨c, List.mem_cons_of_mem d hc, rfl⟩
    · rintro ⟨c, hc, rfl⟩
      rcases List.mem_cons.mp hc with rfl | hc
      · exact Or.inl rfl
      · exact Or.inr ⟨c, hc, rfl⟩

theorem mem_perhaps {c : Char} {w : List Char} :
    w ∈ (perhaps (char c)).matches' ↔ w = [] ∨ w = [c] := by
  rw [perhaps, matches'_add, Language.mem_add, matches'_epsilon, Language.mem_one, matches'_char]
  exact Iff.rfl

theorem isDigit_iff {c : Char} :
    isDigit c = true ↔ c ∈ ['0', '1', '2', '3', '4', '5', '6', '7', '8', '9'] := by
  constructor
  · intro h
    simp only [isDigit, Bool.and_eq_true, decide_eq_true_eq, Char.le_def,
      UInt32.le_iff_toNat_le] at h
    have hall : ∀ n ∈ List.range' 48 10,
        Char.ofNat n ∈ ['0', '1', '2', '3', '4', '5', '6', '7', '8', '9'] := by decide
    have hc := hall c.toNat (List.mem_range'_1.mpr ⟨h.1, Nat.lt_succ_of_le h.2⟩)
    rwa [Char.ofNat_toNat] at hc
  · exact List.all_eq_true.mp (by decide) c

theorem mem_digit {w : List Char} : w ∈ digit.matches' ↔ ∃ c, isDigit c = true ∧ w = [c] := by
  rw [digit, mem_oneOf]
  simp only [isDigit_iff]

theorem mem_star_digit {w : List Char} :
    w ∈ (star digit).matches' ↔ ∀ c ∈ w, isDigit c = true := by
  rw [matches'_star, Language.mem_kstar]
  constructor
  · rintro ⟨parts, rfl, hparts⟩ c hc
    obtain ⟨part, hpart, hmem⟩ := List.mem_flatten.mp hc
    obtain ⟨d, hd, rfl⟩ := mem_digit.mp (hparts part hpart)
    rwa [List.mem_singleton.mp hmem]
  · intro h
    refine ⟨w.map ([·]), by rw [← List.flatMap_def, List.flatMap_singleton'], fun part hpart => ?_⟩
    obtain ⟨c, hc, rfl⟩ := List.mem_map.mp hpart
    exact mem_digit.mpr ⟨c, h c hc, rfl⟩

theorem mem_several_digit {w : List Char} :
    w ∈ (several digit).matches' ↔ w ≠ [] ∧ ∀ c ∈ w, isDigit c = true := by
  rw [several, matches'_mul, Language.mem_mul]
  constructor
  · rintro ⟨u, hu, v, hv, rfl⟩
    obtain ⟨c, hc, rfl⟩ := mem_digit.mp hu
    exact ⟨List.cons_ne_nil c v, List.forall_mem_cons.mpr ⟨hc, mem_star_digit.mp hv⟩⟩
  · rintro ⟨hfull, hdigits⟩
    obtain ⟨c, v, rfl⟩ := List.exists_cons_of_ne_nil hfull
    obtain ⟨hc, hv⟩ := List.forall_mem_cons.mp hdigits
    exact ⟨[c], mem_digit.mpr ⟨c, hc, rfl⟩, v, mem_star_digit.mpr hv, rfl⟩

/-- Digits, and a point before, among or behind them or none. -/
structure Written (cs whole fraction : List Char) : Prop where
  wholeDigits : ∀ c ∈ whole, isDigit c = true
  fractionDigits : ∀ c ∈ fraction, isDigit c = true
  full : whole ≠ [] ∨ fraction ≠ []
  pointed : cs = whole ++ '.' :: fraction ∨ fraction = [] ∧ cs = whole

theorem mem_unsigned {cs : List Char} :
    cs ∈ unsigned.matches' ↔ ∃ whole fraction, Written cs whole fraction := by
  simp only [unsigned, matches'_add, matches'_mul, Language.mem_add, Language.mem_mul,
    mem_perhaps, mem_star_digit, mem_several_digit, matches'_char]
  constructor
  · rintro (⟨-, ⟨whole, hwhole, -, rfl, rfl⟩, fraction, ⟨hfull, hfraction⟩, rfl⟩ |
      ⟨-, ⟨whole, ⟨hfull, hwhole⟩, point, rfl | rfl, rfl⟩, more, hmore, rfl⟩)
    · exact ⟨whole, fraction, hwhole, hfraction, Or.inr hfull, Or.inl (by simp)⟩
    -- without a point all digits are whole
    · exact ⟨whole ++ more, [], List.forall_mem_append.mpr ⟨hwhole, hmore⟩, List.forall_mem_nil _,
        Or.inl (List.append_ne_nil_of_left_ne_nil hfull _), Or.inr ⟨rfl, by simp⟩⟩
    · exact ⟨whole, more, hwhole, hmore, Or.inl hfull, Or.inl (by simp)⟩
  · rintro ⟨whole, fraction, hwhole, hfraction, hfull, rfl | ⟨rfl, rfl⟩⟩
    · by_cases hnone : fraction = []
      · subst hnone
        exact Or.inr ⟨_, ⟨whole, ⟨hfull.resolve_right (absurd rfl), hwhole⟩, _, Or.inr rfl, rfl⟩,
          [], hfraction, List.append_nil _⟩
      · exact Or.inl ⟨_, ⟨whole, hwhole, _, rfl, rfl⟩, fraction, ⟨hnone, hfraction⟩, by simp⟩
    · exact Or.inr ⟨_, ⟨cs, ⟨hfull.resolve_right (absurd rfl), hwhole⟩, [], Or.inl rfl, rfl⟩, [],
        hfraction, by simp⟩

/-- A literal is an optional minus sign, and digits with at most one point. -/
theorem isLiteral_iff {cs : List Char} : IsLiteral cs ↔
    ∃ body, (cs = body ∨ cs = '-' :: body) ∧ ∃ whole fraction, Written body whole fraction := by
  simp only [IsLiteral, pattern, matches'_mul, Language.mem_mul, mem_perhaps, mem_unsigned]
  constructor
  · rintro ⟨sign, rfl | rfl, body, hbody, rfl⟩
    · exact ⟨body, Or.inl rfl, hbody⟩
    · exact ⟨body, Or.inr rfl, hbody⟩
  · rintro ⟨body, rfl | rfl, hbody⟩
    · exact ⟨[], Or.inl rfl, cs, hbody, rfl⟩
    · exact ⟨['-'], Or.inr rfl, body, hbody, rfl⟩

/-! ## What is read -/

theorem isSome_readBody?_iff {negative : Bool} {cs : List Char} :
    (readBody? negative cs).isSome = true ↔ ∃ whole fraction, Written cs whole fraction := by
  rw [readBody?]
  constructor
  · intro h
    have hdigits : ∀ c ∈ cs.takeWhile isDigit, isDigit c = true := fun _ => List.mem_takeWhile_imp
    have hsplit := List.takeWhile_append_dropWhile (p := isDigit) (l := cs)
    split at h
    · rename_i hrest
      rw [hrest, List.append_nil] at hsplit
      rw [hsplit] at h hdigits
      refine ⟨cs, [], hdigits, List.forall_mem_nil _, Or.inl ?_, Or.inr ⟨rfl, rfl⟩⟩
      rintro rfl
      cases h
    · rename_i c fraction hrest
      split at h
      · rename_i hc
        obtain ⟨rfl, hfraction, hfull⟩ := hc
        refine ⟨_, fraction, hdigits, List.all_eq_true.mp hfraction, ?_, Or.inl ?_⟩
        · simpa [Classical.or_iff_not_imp_left] using hfull
        · rw [← hrest, hsplit]
      · cases h
  · rintro ⟨whole, fraction, hwhole, hfraction, hfull, rfl | ⟨rfl, rfl⟩⟩
    · obtain ⟨htake, hdrop⟩ := @run_append isDigit whole ('.' :: fraction) hwhole
        (by rintro c ⟨⟩; rfl)
      have hsome : (!(whole.isEmpty && fraction.isEmpty)) = true := by simpa using hfull
      rw [htake, hdrop]
      dsimp only
      rw [if_pos ⟨rfl, List.all_eq_true.mpr hfraction, hsome⟩]
      rfl
    · obtain ⟨htake, hdrop⟩ := @run_append isDigit cs [] hwhole (by rintro c ⟨⟩)
      rw [List.append_nil] at htake hdrop
      rw [htake, hdrop]
      dsimp only
      rw [if_neg (by simpa using hfull)]
      rfl

/-- Digits and points do not start with a sign. -/
theorem Written.not_minus {cs whole fraction : List Char} (h : Written cs whole fraction) :
    ∀ rest, cs ≠ '-' :: rest := by
  rintro rest rfl
  cases whole with
  | nil =>
    rcases h.pointed with heq | ⟨-, heq⟩
    · exact absurd (List.cons.inj heq).1 (by decide)
    · cases heq
  | cons d ds =>
    have hminus : '-' = d := by
      rcases h.pointed with heq | ⟨-, heq⟩ <;> exact (List.cons.inj heq).1
    exact absurd (h.wholeDigits '-' (hminus ▸ List.mem_cons_self)) (by decide)

/-- **A text is read exactly if it is a literal.** -/
theorem isSome_read?_iff {cs : List Char} : (read? cs).isSome = true ↔ IsLiteral cs := by
  rw [isLiteral_iff]
  constructor
  · intro h
    unfold read? at h
    split at h
    · exact ⟨_, Or.inr rfl, isSome_readBody?_iff.mp h⟩
    · exact ⟨_, Or.inl rfl, isSome_readBody?_iff.mp h⟩
  · rintro ⟨body, rfl | rfl, whole, fraction, hwritten⟩
    · rw [read?]
      · exact isSome_readBody?_iff.mpr ⟨whole, fraction, hwritten⟩
      · exact hwritten.not_minus
    · exact isSome_readBody?_iff.mpr ⟨whole, fraction, hwritten⟩

/-- The number in single precision that a literal stands for; nothing for other texts. -/
def numberOf (cs : List Char) : Single :=
  match read? cs with
  | some d => Binary.convert (d.toBinary : Double)
  | none => .zero

end Decimal

namespace Cursor

/-! ## Numbers at a cursor -/

/-- Every character of a literal may belong to a number. -/
theorem isNumberChar_of_isLiteral {cs : List Char} (h : Decimal.IsLiteral cs) :
    ∀ c ∈ cs, isNumberChar c = true := by
  obtain ⟨body, hsign, whole, fraction, hwritten⟩ := Decimal.isLiteral_iff.mp h
  have hdigit : ∀ c, isDigit c = true → isNumberChar c = true := by
    intro c hc
    rw [isNumberChar, hc, Bool.true_or, Bool.true_or]
  have hbody : ∀ c ∈ body, isNumberChar c = true := by
    intro c hc
    rcases hwritten.pointed with rfl | ⟨rfl, rfl⟩
    · rcases List.mem_append.mp hc with hc | hc
      · exact hdigit c (hwritten.wholeDigits c hc)
      · rcases List.mem_cons.mp hc with rfl | hc
        · rfl
        · exact hdigit c (hwritten.fractionDigits c hc)
    · exact hdigit c (hwritten.wholeDigits c hc)
  rcases hsign with rfl | rfl
  · exact hbody
  · exact List.forall_mem_cons.mpr ⟨rfl, hbody⟩

theorem ne_nil_of_isLiteral {cs : List Char} (h : Decimal.IsLiteral cs) : cs ≠ [] := by
  rintro rfl
  exact absurd h (by decide)

/-- **A number is the run that comes next**, if the run is a literal. -/
theorem float_eq_ok_iff {c c' : Cursor} {v : Single} : float c = (.ok v, c') ↔
    Decimal.IsLiteral (c.run isNumberChar).1 ∧ v = Decimal.numberOf (c.run isNumberChar).1 ∧
      c' = (c.run isNumberChar).2 := by
  rw [← Decimal.isSome_read?_iff, Decimal.numberOf, float, number]
  dsimp only
  cases Decimal.read? (c.run isNumberChar).1 with
  | none => simp [Except.map]
  | some d => simp [Except.map, eq_comm]

/-- A run that is no literal is not passed over. -/
theorem float_eq_error_iff {c c' : Cursor} {e : Error} : float c = (.error e, c') ↔
    ¬ Decimal.IsLiteral (c.run isNumberChar).1 ∧ e = c.expected "number" ∧ c' = c := by
  rw [← Decimal.isSome_read?_iff, float, number]
  dsimp only
  cases Decimal.read? (c.run isNumberChar).1 with
  | none => simp [Except.map, eq_comm]
  | some d => simp [Except.map]

end Cursor

end ViewSheet
