/-
  Binary floating point, in exact arithmetic on natural numbers.

  1. **Program**: a format has a precision, a width of the exponent and a least unit, `2 ^ -scale`.
     A number is a sign and a magnitude.  Magnitudes are the numbers of the representable values in
     ascending order: 0 is zero, every step goes to the next value, `infinity` stands after the last
     finite one, and what lies above is no number.  `round` gives the magnitude nearest to a
     fraction, of two equally near the even one; a fraction beyond the last finite value becomes
     infinity.

  2. **Why it is right**: with units of `2 ^ -scale`, a value below `2 ^ precision` units is a whole
     number of units, and a greater one is `m * 2 ^ k` with `m` of full precision.  Its magnitude is
     `k * 2 ^ (precision - 1) + m` in both cases, and rounding `m` up to the next power of two gives
     the first magnitude of the next binade without a case of its own.
-/
import ViewSheet.Number.Power

namespace ViewSheet

/-! ## Formats -/

/-- A binary interchange format. -/
structure BinaryFormat where
  /-- How many bits the significand has, the leading one included. -/
  precision : Nat
  /-- How many bits the exponent has. -/
  exponentBits : Nat
  /-- The least unit is two to the power of minus this. -/
  scale : Nat
deriving DecidableEq, Repr

/-- Numbers of 32 bits. -/
def single : BinaryFormat := ⟨24, 8, 149⟩

/-- Numbers of 64 bits. -/
def double : BinaryFormat := ⟨53, 11, 1074⟩

/-- The whole number nearest to `n / d`, a half going to the even neighbour. -/
def roundHalfEven (n d : Nat) : Nat :=
  let q := n / d
  let twice := 2 * (n % d)
  if twice < d then q
  else if d < twice then q + 1
  else if q % 2 = 0 then q
  else q + 1

namespace BinaryFormat

/-- The magnitude after the last finite one. -/
def infinity (f : BinaryFormat) : Nat := (twoTo f.exponentBits - 1) * twoTo (f.precision - 1)

/-- The magnitude nearest to `n / d`. -/
def round (f : BinaryFormat) (n d : Nat) : Nat :=
  let units := n * twoTo f.scale
  let k := Nat.log2 (units / d) + 1 - f.precision
  min (k * twoTo (f.precision - 1) + roundHalfEven units (d * twoTo k)) f.infinity

/-- A finite magnitude as a number of least units. -/
def units (f : BinaryFormat) (magnitude : Nat) : Nat :=
  let half := twoTo (f.precision - 1)
  if magnitude < half then magnitude
  else (half + magnitude % half) * twoTo (magnitude / half - 1)

end BinaryFormat

/-! ## Numbers -/

/-- A number of a format. -/
structure Binary (f : BinaryFormat) where
  negative : Bool
  magnitude : Nat
deriving DecidableEq, Repr

/-- A number of 32 bits, as used for lengths and colour channels. -/
abbrev Single := Binary single

/-- A number of 64 bits, as written in a sheet. -/
abbrev Double := Binary double

namespace Binary

variable {f : BinaryFormat}

/-- The number nearest to `n / d`, with a sign. -/
def ofFraction (negative : Bool) (n d : Nat) : Binary f := ⟨negative, f.round n d⟩

/-- The number nearest to a natural number. -/
def ofNat (n : Nat) : Binary f := ofFraction false n 1

/-- Zero without a sign. -/
def zero : Binary f := ⟨false, 0⟩

/-- One. -/
def one : Binary f := ofNat 1

/-- Whether this is no number at all. -/
def isNaN (a : Binary f) : Bool := f.infinity < a.magnitude

/-- Whether this is one of the infinities. -/
def isInfinite (a : Binary f) : Bool := a.magnitude = f.infinity

/-- The numerator of the absolute value, over `denominator f`. -/
def numerator (a : Binary f) : Nat := f.units a.magnitude

/-- The denominator of all values of a format. -/
def denominator (f : BinaryFormat) : Nat := twoTo f.scale

/-- Place in the order of the numbers; both zeros have the same. -/
def rank (a : Binary f) : Int := if a.negative then -(a.magnitude : Int) else a.magnitude

/-- Less than; nothing is less or greater than what is no number. -/
def lt (a b : Binary f) : Bool := !a.isNaN && !b.isNaN && a.rank < b.rank

/-- Less than or equal. -/
def le (a b : Binary f) : Bool := !a.isNaN && !b.isNaN && a.rank ≤ b.rank

/-- Equal as numbers: the two zeros are, and what is no number is equal to nothing. -/
def eq (a b : Binary f) : Bool := !a.isNaN && !b.isNaN && a.rank = b.rank

/-- The nearest value between two bounds.  What lies between them is kept as it is. -/
def clamp (a low high : Binary f) : Binary f :=
  if a.lt low then low else if high.lt a then high else a

/-- The number if it is greater than the bound, and else the bound. -/
def atLeast (a low : Binary f) : Binary f := if low.lt a then a else low

/-- The same value in another format, rounded to nearest. -/
def convert {g : BinaryFormat} (a : Binary f) : Binary g :=
  if a.isNaN then ⟨a.negative, g.infinity + 1⟩
  else if a.isInfinite then ⟨a.negative, g.infinity⟩
  else ofFraction a.negative a.numerator (denominator f)

/-- The nearest number to the value times a natural number. -/
def times (a : Binary f) (n : Nat) : Binary f :=
  if a.isNaN || a.isInfinite then a
  else ofFraction a.negative (a.numerator * n) (denominator f)

/-- The absolute value without its fraction. -/
def truncate (a : Binary f) : Nat := a.numerator / denominator f

/-- The whole number nearest to the absolute value, a half going up. -/
def roundHalfUp (a : Binary f) : Nat := (2 * a.numerator + denominator f) / (2 * denominator f)

/-- The bit pattern. -/
def bits (a : Binary f) : Nat :=
  (if a.negative then twoTo (f.exponentBits + f.precision - 1) else 0) + a.magnitude

/-- The number with this bit pattern. -/
def ofBits (n : Nat) : Binary f :=
  let sign := twoTo (f.exponentBits + f.precision - 1)
  ⟨sign ≤ n, n % sign⟩

end Binary

end ViewSheet
