/-
  Colours: red, green, blue and alpha, from 0 to 1.

  1. **Program**: a colour is made from bytes, from hexadecimal digits, or from a name.  `hex`
     writes it with two digits a channel: the channel is brought between 0 and 1, taken 255 times,
     and rounded, a half up.

  2. **Specification**: what `hex` writes for a colour made from bytes are these bytes
     (`channelByte_ofByte`).
-/
import ViewSheet.Number.Binary
import ViewSheet.Text.Alphanumeric
import ViewSheet.Text.Quoted

namespace ViewSheet

open Text

/-- A colour with straight alpha. -/
structure Color where
  red : Single
  green : Single
  blue : Single
  alpha : Single
deriving DecidableEq, Repr

/-! ## Channels -/

/-- A byte as a channel. -/
def channelOfByte (b : Nat) : Single := .ofFraction false b 255

/-- A channel as a byte. -/
def channelByte (c : Single) : Nat :=
  let bounded := c.clamp .zero .one
  if bounded.isNaN then 0 else min (bounded.times 255).roundHalfUp 255

/-- A byte as two hexadecimal digits. -/
def byteText (b : Nat) : List Char := hexDigits b 2

namespace Color

/-! ## Making colours -/

/-- A colour from four bytes. -/
def ofBytes (red green blue alpha : Nat) : Color :=
  ⟨channelOfByte red, channelOfByte green, channelOfByte blue, channelOfByte alpha⟩

/-- Opaque black. -/
def black : Color := ⟨.zero, .zero, .zero, .one⟩

/-- The same colour with another alpha, brought between 0 and 1. -/
def withAlpha (c : Color) (alpha : Single) : Color := { c with alpha := alpha.clamp .zero .one }

/-- The value of a hexadecimal digit. -/
def digitValue (c : Char) : Nat :=
  if isDigit c then c.toNat - '0'.toNat
  else if 'a' ≤ c then c.toNat - 'a'.toNat + 10
  else c.toNat - 'A'.toNat + 10

/-- The byte that two hexadecimal digits write. -/
def byteOf (high low : Char) : Nat := 16 * digitValue high + digitValue low

/-- Reads three, six or eight hexadecimal digits. -/
def ofDigits? (cs : List Char) : Option Color :=
  if !cs.all isHexDigit then none
  else match cs with
    | [r, g, b] => some (ofBytes (byteOf r r) (byteOf g g) (byteOf b b) 255)
    | [r, r', g, g', b, b'] => some (ofBytes (byteOf r r') (byteOf g g') (byteOf b b') 255)
    | [r, r', g, g', b, b', a, a'] =>
      some (ofBytes (byteOf r r') (byteOf g g') (byteOf b b') (byteOf a a'))
    | _ => none

/-- Reads hexadecimal digits with or without a number sign before them. -/
def ofHex? : List Char → Option Color
  | '#' :: digits => ofDigits? digits
  | digits => ofDigits? digits

/-- The colours that have names, as bytes. -/
def names : List (String × Nat × Nat × Nat × Nat) := [
  ("black", 0x00, 0x00, 0x00, 0xff), ("blue", 0x00, 0x00, 0xff, 0xff),
  ("brown", 0x99, 0x66, 0x33, 0xff), ("clear", 0x00, 0x00, 0x00, 0x00),
  ("cyan", 0x00, 0xff, 0xff, 0xff), ("darkgray", 0x55, 0x55, 0x55, 0xff),
  ("gray", 0x80, 0x80, 0x80, 0xff), ("green", 0x00, 0xff, 0x00, 0xff),
  ("lightgray", 0xaa, 0xaa, 0xaa, 0xff), ("magenta", 0xff, 0x00, 0xff, 0xff),
  ("orange", 0xff, 0x80, 0x00, 0xff), ("purple", 0x80, 0x00, 0x80, 0xff),
  ("red", 0xff, 0x00, 0x00, 0xff), ("white", 0xff, 0xff, 0xff, 0xff),
  ("yellow", 0xff, 0xff, 0x00, 0xff)]

/-- The colour of a name; the case of the letters A to Z does not matter. -/
def named? (name : String) : Option Color :=
  (names.find? fun (n, _) => sameLetters n.toList name.toList).map fun (_, r, g, b, a) =>
    ofBytes r g b a

/-! ## Writing colours -/

/-- A number sign and two digits for each channel. -/
def hex (c : Color) : String :=
  String.ofList ('#' :: [c.red, c.green, c.blue, c.alpha].flatMap fun x => byteText (channelByte x))

end Color

/-! ## Bytes come back -/

set_option maxRecDepth 10000 in
theorem channelByte_ofByte (b : Fin 256) : channelByte (channelOfByte b.val) = b.val := by
  revert b
  decide +kernel

end ViewSheet
