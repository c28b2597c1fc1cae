/-
  Booleans and numbers at a cursor.

  1. **Booleans**: the next word decides.  Signs and then zeros in front of it do not count; what
     follows says yes with `y`, `t` or a digit from 1 to 9, and no with `n`, `f` or nothing.

  2. **Numbers**: the next run of digits, points and minus signs has to be one decimal literal; if
     it is not, the cursor stays where it was.  `number` keeps double precision, `float` rounds once
     more to single precision.

  3. **Integers**: an optional sign and digits, within 64 bits.
-/
import ViewSheet.Cursor.Basic
import ViewSheet.Number.Decimal

namespace ViewSheet

open Text

namespace Cursor

/-! ## Booleans -/

/-- What the first character that counts says. -/
def truth? : List Char → Option Bool
  | [] => some false
  | c :: _ =>
    if ['y', 'Y', 't', 'T'].contains c || ('1' ≤ c && c ≤ '9') then some true
    else if ['n', 'N', 'f', 'F'].contains c then some false
    else none

/-- A word as a boolean. -/
def flag : Scan Bool := fun c =>
  match someRun (!isBlank ·) "Bool" c with
  | (.error e, c') => (.error e, c')
  | (.ok word, c') =>
    let significant := (word.dropWhile fun x => x == '+' || x == '-').dropWhile (· == '0')
    match truth? significant with
    | some b => (.ok b, c')
    | none => (.error (c'.expected "Bool"), c')

/-! ## Numbers -/

/-- A character that a number may be made of. -/
def isNumberChar (c : Char) : Bool := isDigit c || c == '.' || c == '-'

/-- A decimal literal in double precision. -/
def number : Scan Double := fun c =>
  let (cs, c') := c.run isNumberChar
  match Decimal.read? cs with
  | some d => (.ok d.toBinary, c')
  | none => (.error (c.expected "number"), c)

/-- A decimal literal in single precision. -/
def float : Scan Single := fun c =>
  let (r, c') := number c
  (r.map Binary.convert, c')

/-- A number takes at least a digit. -/
theorem advances_number : Scan.Advances number := by
  intro c d c' _ h
  unfold number at h
  dsimp only at h
  split at h
  · rename_i literal hread
    rw [← (Prod.mk.inj h).2]
    refine length_run_lt fun hnil => ?_
    rw [hnil] at hread
    cases hread
  · cases h

theorem advances_float : Scan.Advances float := advances_number.map Binary.convert

/-! ## Integers -/

/-- The least and the greatest integer of 64 bits. -/
def inRange (n : Int) : Bool := -(twoTo 63 : Int) ≤ n && n < twoTo 63

/-- Takes a sign off the front. -/
def signOf : List Char → Bool × List Char
  | '-' :: cs => (true, cs)
  | '+' :: cs => (false, cs)
  | cs => (false, cs)

/-- An integer of at most 64 bits. -/
def whole : Scan Int := fun c =>
  let c := c.skipBlanks
  let (negative, unsigned) := signOf c.rest
  let digits := unsigned.takeWhile isDigit
  if digits.isEmpty then (.error (c.expected "integer"), c)
  else
    let n : Int := digitsValue digits
    let value := if negative then -n else n
    let c' := { c with rest := unsigned.dropWhile isDigit }
    if inRange value then (.ok value, c') else (.error (c.expected "integer"), c')

end Cursor

end ViewSheet
