/-
  Numbers as text: the fewest decimal digits that read back as the same number.

  1. **Program**: the multiples of a power of ten form a grid.  `onGrid?` tests the two points of a
     grid around a value: a point is good if rounding it gives the number back.  Of two good points
     the nearer is taken, and of two equally near the greater.  `shortest` tries ever finer grids
     and takes the first good point; on a grid as fine as the format there always is one.

  2. **Format**: positional notation throughout, no exponent, no point without digits after it, a
     minus sign also before zero, `inf` and `NaN` for what has no digits.
-/
import ViewSheet.Number.Binary

namespace ViewSheet

namespace Binary

variable {f : BinaryFormat}

/-! ## The shortest digits -/

/-- The good point of the grid of multiples of `10 ^ k` for the value `n / d` of a magnitude, as a
    multiple. -/
def onGrid? (f : BinaryFormat) (magnitude n d : Nat) (k : Int) : Option Nat :=
  let up := tenTo k.toNat
  let down := tenTo (-k).toNat
  let low := n * down / (d * up)
  let good := fun (point : Nat) => f.round (point * up) down == magnitude
  if good low && (!good (low + 1) || 2 * (n * down % (d * up)) < d * up) then some low
  else if good (low + 1) then some (low + 1)
  else none

/-- Tries the grid of `10 ^ k` and so many finer ones. -/
def shortestFrom (f : BinaryFormat) (magnitude n d : Nat) : Nat → Int → Nat × Int
  | 0, k => (0, k)
  | more + 1, k => match onGrid? f magnitude n d k with
    | some point => (point, k)
    | none => shortestFrom f magnitude n d more (k - 1)

/-- A multiple and an exponent of ten that read back as the number, with the fewest digits. -/
def shortest (a : Binary f) : Nat × Int :=
  let n := a.numerator
  let d := denominator f
  let wholeDigits := (toString (n / d)).length
  shortestFrom f a.magnitude n d (wholeDigits + f.scale) (wholeDigits - 1 : Nat)

/-! ## Positional notation -/

/-- Decimal digits, with zeros in front up to a width. -/
def padded (width n : Nat) : String :=
  let digits := toString n
  String.ofList (List.replicate (width - digits.length) '0') ++ digits

/-- A multiple of `10 ^ k` in positional notation. -/
def positional (point : Nat) (k : Int) : String :=
  let places := (-k).toNat
  if places = 0 then toString (point * tenTo k.toNat)
  else toString (point / tenTo places) ++ "." ++ padded places (point % tenTo places)

/-- The number as text. -/
def text (a : Binary f) : String :=
  if a.isNaN then "NaN"
  else
    let digits :=
      if a.isInfinite then "inf"
      else if a.magnitude = 0 then "0"
      else
        let (point, k) := a.shortest
        positional point k
    if a.negative then "-" ++ digits else digits

end Binary

end ViewSheet
