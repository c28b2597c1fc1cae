/-
  Numerals: which run of characters a cursor accepts as a number.

  1. **Program**: the run of digits, points and minus signs that comes next is read as a number in
     `Cursor.number`; if it is none, the cursor stays where it was.

  2. **Specification**: `NumberRun` says which run comes next, and `Decimal.IsLiteral` whether it
     matches `-?(\d*\.\d+|\d+\.?\d*)`.  `numberBy` has the two steps of a number apart: a test,
     which takes the sign off and cuts at the first point (`Decimal.isNumeral`), and a parser, which
     may be any and could refuse what has passed the test.

  3. **The crux** (`Decimal.isUnsigned_iff`): a second point, and a sign that is not in front, are
     left over in one of the two parts, where only digits may stand.

  4. **Result** (`number_accepted`): with a parser that reads every literal, a scan succeeds exactly
     if the run is a literal, and takes just that; else nothing is taken, and it was not the parser
     that refused.
-/
import ViewSheet.Proofs.Literals

namespace ViewSheet

open Text

namespace Text

/-! ## Cutting at a character -/

theorem cutAt?_eq_none {c : Char} {cs : List Char} (h : c ∉ cs) : cutAt? [c] cs = none := by
  cases hcut : cutAt? [c] cs with
  | none => rfl
  | some parts =>
    rw [eq_of_cutAt? hcut] at h
    exact absurd (by simp) h

theorem cutAt?_append {c : Char} {head : List Char} (h : c ∉ head) (tail : List Char) :
    cutAt? [c] (head ++ c :: tail) = some (head, tail) := by
  induction head with
  | nil =>
    rw [List.nil_append, cutAt?, stripStart?, if_pos rfl]
    rfl
  | cons d head ih =>
    rw [List.mem_cons, not_or] at h
    rw [List.cons_append, cutAt?, stripStart?, if_neg h.1, ih h.2]
    rfl

theorem trimStart_eq_self {cs : List Char} (h : ∀ c ∈ cs.head?, isBlank c = false) :
    trimStart cs = cs := by
  cases cs with
  | nil => rfl
  | cons c cs => exact trimStart_cons (h c rfl) cs

end Text

namespace Decimal

/-! ## The test -/

theorem point_not_mem {digits : List Char} (h : ∀ c ∈ digits, isDigit c = true) : '.' ∉ digits :=
  fun hpoint => absurd (h '.' hpoint) (by decide)

/-- **The test finds digits with at most one point.** -/
theorem isUnsigned_iff {cs : List Char} :
    isUnsigned cs = true ↔ ∃ whole fraction, Written cs whole fraction := by
  rw [isUnsigned]
  constructor
  · intro h
    split at h
    · rename_i whole fraction hcut
      simp only [Bool.and_eq_true, List.all_eq_true] at h
      obtain ⟨⟨hwhole, hfraction⟩, hfull⟩ := h
      refine ⟨whole, fraction, hwhole, hfraction, ?_, Or.inl ?_⟩
      · simpa [Classical.or_iff_not_imp_left] using hfull
      · rw [eq_of_cutAt? hcut, List.append_assoc]
        rfl
    · simp only [Bool.and_eq_true, List.all_eq_true] at h
      exact ⟨cs, [], h.2, List.forall_mem_nil _, Or.inl (by simpa using h.1), Or.inr ⟨rfl, rfl⟩⟩
  · rintro ⟨whole, fraction, hwhole, hfraction, hfull, rfl | ⟨rfl, rfl⟩⟩
    · rw [cutAt?_append (point_not_mem hwhole)]
      simp only [Bool.and_eq_true, List.all_eq_true]
      exact ⟨⟨hwhole, hfraction⟩, by simpa [Classical.or_iff_not_imp_left] using hfull⟩
    · rw [cutAt?_eq_none (point_not_mem hwhole)]
      simp only [Bool.and_eq_true, List.all_eq_true]
      exact ⟨by simpa using hfull, hwhole⟩

/-- **The test is passed exactly by the literals.** -/
theorem isNumeral_iff {cs : List Char} : isNumeral cs = true ↔ IsLiteral cs := by
  rw [isNumeral, isLiteral_iff]
  cases hstrip : stripStart? ['-'] cs with
  | some body =>
    obtain rfl : cs = '-' :: body := eq_append_of_stripStart? hstrip
    rw [Option.getD_some, isUnsigned_iff]
    constructor
    · exact fun h => ⟨body, Or.inr rfl, h⟩
    · rintro ⟨body', rfl | heq, whole, fraction, hwritten⟩
      · exact absurd rfl (hwritten.not_minus body)
      · obtain rfl := (List.cons.inj heq).2
        exact ⟨whole, fraction, hwritten⟩
  | none =>
    rw [Option.getD_none, isUnsigned_iff]
    constructor
    · exact fun h => ⟨cs, Or.inl rfl, h⟩
    · rintro ⟨body, rfl | rfl, hwritten⟩
      · exact hwritten
      · cases hstrip

/-! ## Parsers -/

/-- The parser that gives the nearest number in double precision. -/
def nearest? (cs : List Char) : Option Double := (read? cs).map toBinary

/-- A parser of numbers reads every literal. -/
def ReadsLiterals (parse? : List Char → Option Double) : Prop :=
  ∀ cs, IsLiteral cs → (parse? cs).isSome = true

theorem isSome_nearest?_iff {cs : List Char} : (nearest? cs).isSome = true ↔ IsLiteral cs := by
  rw [nearest?, Option.isSome_map, isSome_read?_iff]

theorem readsLiterals_nearest? : ReadsLiterals nearest? := fun _ => isSome_nearest?_iff.mpr

end Decimal

namespace Cursor

/-! ## A scan in two steps -/

/-- A number with a test and a parser: the run that comes next is tested, and is then parsed.  If it
    does not pass the test, the cursor stays where it was. -/
def numberBy (parse? : List Char → Option Double) : Scan Double := fun c =>
  let (cs, c') := c.run isNumberChar
  if Decimal.isNumeral cs then
    match parse? cs with
    | some d => (.ok d, c')
    | none => (.error (c'.expected "number"), c')
  else (.error (c.expected "number"), c)

/-- The parser is asked for the run that comes next, and refuses it. -/
def Refused (parse? : List Char → Option Double) (c : Cursor) : Prop :=
  Decimal.isNumeral (c.run isNumberChar).1 = true ∧ parse? (c.run isNumberChar).1 = none

/-- The two steps are those of a number. -/
theorem numberBy_nearest? : numberBy Decimal.nearest? = number := by
  funext c
  have htest : Decimal.isNumeral (c.run isNumberChar).1 = true ↔
      (Decimal.read? (c.run isNumberChar).1).isSome = true :=
    Decimal.isNumeral_iff.trans Decimal.isSome_read?_iff.symm
  rw [numberBy, number]
  dsimp only [Decimal.nearest?]
  cases hread : Decimal.read? (c.run isNumberChar).1 with
  | none =>
    rw [hread] at htest
    rw [if_neg (mt htest.mp Bool.false_ne_true)]
  | some d =>
    rw [hread] at htest
    rw [if_pos (htest.mpr rfl)]
    rfl

/-! ## The run that comes next -/

/-- Behind blanks, the token comes next: digits, points and minus signs as far as they go. -/
def NumberRun (c : Cursor) (token tail : List Char) : Prop :=
  ∃ blanks, c.rest = blanks ++ (token ++ tail) ∧ (∀ b ∈ blanks, isBlank b = true) ∧
    (∀ x ∈ (token ++ tail).head?, isBlank x = false) ∧ (∀ x ∈ token, isNumberChar x = true) ∧
    ∀ x ∈ tail.head?, isNumberChar x = false

/-- There is one run that comes next, and it is the one that is taken. -/
theorem numberRun_iff {c : Cursor} {token tail : List Char} :
    NumberRun c token tail ↔ c.run isNumberChar = (token, { c with rest := tail }) := by
  rw [run]
  constructor
  · rintro ⟨blanks, hc, hblanks, hsolid, htoken, htail⟩
    have hskip : c.skipBlanks.rest = token ++ tail := by
      rw [skipBlanks, hc, trimStart_append hblanks, trimStart_eq_self hsolid]
    obtain ⟨htake, hdrop⟩ := run_append htoken htail
    rw [hskip, htake, hdrop]
  · intro h
    obtain ⟨rfl, hrest⟩ := Prod.mk.inj h
    obtain rfl := congrArg Cursor.rest hrest
    obtain ⟨blanks, hc, hblanks⟩ := exists_append_trimStart c.rest
    refine ⟨blanks, ?_, hblanks, ?_, fun _ => List.mem_takeWhile_imp,
      head?_dropWhile_eq_false isNumberChar _⟩
    · rw [List.takeWhile_append_dropWhile]
      exact hc
    · rw [List.takeWhile_append_dropWhile]
      exact head?_dropWhile_eq_false isBlank c.rest

/-! ## Result -/

/-- What a scan does with the run that comes next. -/
structure Accepts (scan : Scan Double) (parse? : List Char → Option Double) (c : Cursor)
    (token tail : List Char) : Prop where
  literal : (∃ d c', scan c = (.ok d, c')) ↔ Decimal.IsLiteral token
  taken : ∀ d c', scan c = (.ok d, c') → parse? token = some d ∧ c' = { c with rest := tail }
  restored : ∀ e c', scan c = (.error e, c') → e = c.expected "number" ∧ c' = c

variable {parse? : List Char → Option Double} {c : Cursor} {token tail : List Char}

theorem accepts_numberBy (hparse : Decimal.ReadsLiterals parse?) (hrun : NumberRun c token tail) :
    Accepts (numberBy parse?) parse? c token tail := by
  have hscan : numberBy parse? c = if Decimal.isNumeral token then
        match parse? token with
        | some d => (.ok d, { c with rest := tail })
        | none => (.error (c.expected "number"), { c with rest := tail })
      else (.error (c.expected "number"), c) := by
    rw [numberBy, numberRun_iff.mp hrun]
    rfl
  by_cases hliteral : Decimal.IsLiteral token
  · obtain ⟨d, hd⟩ := Option.isSome_iff_exists.mp (hparse token hliteral)
    rw [if_pos (Decimal.isNumeral_iff.mpr hliteral), hd] at hscan
    refine ⟨⟨fun _ => hliteral, fun _ => ⟨d, _, hscan⟩⟩, fun d' c' h => ?_, fun e c' h => ?_⟩
    · obtain ⟨hvalue, rfl⟩ := Prod.mk.inj (hscan.symm.trans h)
      exact ⟨by rw [hd, Except.ok.inj hvalue], rfl⟩
    · cases hscan.symm.trans h
  · rw [if_neg (mt Decimal.isNumeral_iff.mp hliteral)] at hscan
    refine ⟨⟨fun ⟨d, c', h⟩ => ?_, fun h => absurd h hliteral⟩, fun d' c' h => ?_, fun e c' h => ?_⟩
    · cases hscan.symm.trans h
    · cases hscan.symm.trans h
    · obtain ⟨herror, rfl⟩ := Prod.mk.inj (hscan.symm.trans h)
      exact ⟨(Except.error.inj herror).symm, rfl⟩

theorem not_refused (hparse : Decimal.ReadsLiterals parse?) (c : Cursor) : ¬ Refused parse? c := by
  rintro ⟨htest, hnone⟩
  have hsome := hparse _ (Decimal.isNumeral_iff.mp htest)
  rw [hnone] at hsome
  cases hsome

/-- **Exactly the literals are accepted.**  At every place one run of digits, points and minus signs
    comes next, behind blanks.  If a parser reads every literal, the scan with it succeeds exactly
    if the run is a literal from end to end.  Then it gives what the parser reads, and has taken the
    blanks and the run; else it fails, and has taken nothing.  The parser never refuses.  All this
    holds of a number, whose parser gives the nearest one. -/
theorem number_accepted {parse? : List Char → Option Double}
    (hparse : Decimal.ReadsLiterals parse?) (c : Cursor) :
    ∃ token tail, NumberRun c token tail ∧
      (∀ token' tail', NumberRun c token' tail' → token' = token ∧ tail' = tail) ∧
      Accepts (numberBy parse?) parse? c token tail ∧ ¬ Refused parse? c ∧
      Accepts number Decimal.nearest? c token tail := by
  have hrun : NumberRun c (c.run isNumberChar).1 (c.run isNumberChar).2.rest :=
    numberRun_iff.mpr rfl
  refine ⟨_, _, hrun, fun token tail h => ?_, accepts_numberBy hparse hrun, not_refused hparse c,
    ?_⟩
  · rw [numberRun_iff.mp h]
    exact ⟨rfl, rfl⟩
  · rw [← numberBy_nearest?]
    exact accepts_numberBy Decimal.readsLiterals_nearest? hrun

/-- A half with a sign and nothing before the point is taken up to the comma.  With another sign
    behind it nothing is taken. -/
theorem number_accepted_half :
    Decimal.ReadsLiterals Decimal.nearest? ∧
      (∃ d, number (start "\t-.5, 3" 7) =
        (.ok d, { start "\t-.5, 3" 7 with rest := [',', ' ', '3'] })) ∧
      number (start "\t-.5-, 3" 7) =
        (.error ((start "\t-.5-, 3" 7).expected "number"), start "\t-.5-, 3" 7) := by
  have hparse := Decimal.readsLiterals_nearest?
  refine ⟨hparse, ?_, ?_⟩
  · obtain ⟨token, tail, -, honly, -, -, haccepts⟩ := number_accepted hparse (start "\t-.5, 3" 7)
    have hrun : NumberRun (start "\t-.5, 3" 7) ['-', '.', '5'] [',', ' ', '3'] :=
      numberRun_iff.mpr (by decide +kernel)
    obtain ⟨rfl, rfl⟩ := honly _ _ hrun
    obtain ⟨d, c', hscan⟩ := haccepts.literal.mpr (Decimal.isNumeral_iff.mp (by decide))
    obtain ⟨-, rfl⟩ := haccepts.taken d c' hscan
    exact ⟨d, hscan⟩
  · obtain ⟨token, tail, -, honly, -, -, haccepts⟩ := number_accepted hparse (start "\t-.5-, 3" 7)
    have hrun : NumberRun (start "\t-.5-, 3" 7) ['-', '.', '5', '-'] [',', ' ', '3'] :=
      numberRun_iff.mpr (by decide +kernel)
    obtain ⟨rfl, rfl⟩ := honly _ _ hrun
    have hnot : ¬ Decimal.IsLiteral ['-', '.', '5', '-'] :=
      mt Decimal.isNumeral_iff.mpr (by decide)
    rcases hscan : number (start "\t-.5-, 3" 7) with ⟨e | d, c'⟩
    · obtain ⟨rfl, rfl⟩ := haccepts.restored e c' hscan
      rfl
    · exact absurd (haccepts.literal.mp ⟨d, c', hscan⟩) hnot

end Cursor

end ViewSheet
