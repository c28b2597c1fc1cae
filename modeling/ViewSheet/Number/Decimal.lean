/-
  Decimal literals: an optional minus sign, digits, and at most one point among or around them.

  1. **Program**: `Decimal.isNumeral` tests a text, `Decimal.read?` takes it apart, and
     `Decimal.toBinary` rounds its exact value once.

  2. **Specification**: a literal is written as sign, whole digits, and perhaps a point and more
     digits; `read?` succeeds on exactly these texts.
-/
import ViewSheet.Number.Binary
import ViewSheet.Text.Alphanumeric
import ViewSheet.Text.Search

namespace ViewSheet

open Text

/-- The value of a run of digits. -/
def digitsValue (cs : List Char) : Nat := cs.foldl (fun n c => 10 * n + (c.toNat - '0'.toNat)) 0

/-- A literal: its sign and the digits before and after the point. -/
structure Decimal where
  negative : Bool
  whole : List Char
  fraction : List Char
deriving DecidableEq, Repr

namespace Decimal

/-- Reads a literal without a sign. -/
def readBody? (negative : Bool) (body : List Char) : Option Decimal :=
  let whole := body.takeWhile isDigit
  match body.dropWhile isDigit with
  | [] => if whole.isEmpty then none else some ⟨negative, whole, []⟩
  | c :: fraction =>
    if c = '.' ∧ fraction.all isDigit ∧ !(whole.isEmpty && fraction.isEmpty) then
      some ⟨negative, whole, fraction⟩
    else none

/-- Reads a text that is a literal from end to end. -/
def read? : List Char → Option Decimal
  | '-' :: body => readBody? true body
  | body => readBody? false body

/-- The test of a text without a sign: only digits before and after the first point, and not nothing
    on both sides. -/
def isUnsigned (cs : List Char) : Bool :=
  match cutAt? ['.'] cs with
  | some (whole, fraction) =>
    whole.all isDigit && fraction.all isDigit && !(whole.isEmpty && fraction.isEmpty)
  | none => !cs.isEmpty && cs.all isDigit

/-- The test of a text, which may have a minus sign in front. -/
def isNumeral (cs : List Char) : Bool := isUnsigned ((stripStart? ['-'] cs).getD cs)

/-- The nearest number. -/
def toBinary {f : BinaryFormat} (d : Decimal) : Binary f :=
  .ofFraction d.negative (digitsValue (d.whole ++ d.fraction)) (tenTo d.fraction.length)

end Decimal

end ViewSheet
