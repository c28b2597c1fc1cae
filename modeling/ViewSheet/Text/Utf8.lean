/-
  UTF-8: characters as one to four bytes.

  1. **Program**: `decodeUtf8` reads a whole text, or says where it stops being one.  Every
     character has one form: no form longer than needed, no surrogates, nothing above U+10FFFF.

  2. **Faults**: a malformed sequence is blamed on its longest start that could still have become a
     character, one to three bytes; a sequence cut off by the end of the bytes has no such length.
-/

namespace ViewSheet.Text

/-! ## One character -/

/-- What the bytes at the front are. -/
inductive Lead where
  /-- A character, and how many bytes after the first it takes. -/
  | char (c : Char) (more : Nat)
  /-- No character: the first `length` bytes cannot be continued as they are. -/
  | malformed (length : Nat)
  /-- The bytes end inside a character. -/
  | cut
deriving DecidableEq, Repr

/-- A byte that continues a character. -/
def isTail (b : UInt8) : Bool := 0x80 ≤ b && b ≤ 0xBF

/-- The six bits that a continuation byte carries. -/
def tailBits (b : UInt8) : Nat := b.toNat % 64

/-- Which second bytes may follow a first byte of a longer character. -/
def maySecond (a b : UInt8) : Bool :=
  if a == 0xE0 then 0xA0 ≤ b && b ≤ 0xBF
  else if a == 0xED then 0x80 ≤ b && b ≤ 0x9F
  else if a == 0xF0 then 0x90 ≤ b && b ≤ 0xBF
  else if a == 0xF4 then 0x80 ≤ b && b ≤ 0x8F
  else isTail b

/-- A character of three bytes, from its first byte and what follows. -/
def leadOfThree (a : UInt8) : List UInt8 → Lead
  | [] => .cut
  | b :: rest =>
    if !maySecond a b then .malformed 1
    else match rest with
      | [] => .cut
      | c :: _ =>
        if !isTail c then .malformed 2
        else .char (Char.ofNat ((a.toNat % 16) * 4096 + tailBits b * 64 + tailBits c)) 2

/-- A character of four bytes, from its first byte and what follows. -/
def leadOfFour (a : UInt8) : List UInt8 → Lead
  | [] => .cut
  | b :: rest =>
    if !maySecond a b then .malformed 1
    else match rest with
      | [] => .cut
      | c :: rest =>
        if !isTail c then .malformed 2
        else match rest with
          | [] => .cut
          | d :: _ =>
            if !isTail d then .malformed 3
            else .char (Char.ofNat ((a.toNat % 8) * 262144 + tailBits b * 4096 + tailBits c * 64
              + tailBits d)) 3

/-- What the bytes `a :: rest` start with. -/
def leadOf (a : UInt8) (rest : List UInt8) : Lead :=
  if a < 0x80 then .char (Char.ofNat a.toNat) 0
  else if 0xC2 ≤ a && a ≤ 0xDF then
    match rest with
    | [] => .cut
    | b :: _ =>
      if !isTail b then .malformed 1
      else .char (Char.ofNat ((a.toNat % 32) * 64 + tailBits b)) 1
  else if 0xE0 ≤ a && a ≤ 0xEF then leadOfThree a rest
  else if 0xF0 ≤ a && a ≤ 0xF4 then leadOfFour a rest
  else .malformed 1

/-! ## A whole text -/

/-- Where and how bytes fail to be a text. -/
inductive Utf8Fault where
  | malformed (length index : Nat)
  | cut (index : Nat)
deriving DecidableEq, Repr

namespace Utf8Fault

/-- The fault in words. -/
def message : Utf8Fault → String
  | malformed length index => s!"invalid utf-8 sequence of {length} bytes from index {index}"
  | cut index => s!"incomplete utf-8 byte sequence from index {index}"

end Utf8Fault

/-- The text of the bytes that stand from index `start` on. -/
def decodeFrom (start : Nat) : List UInt8 → Except Utf8Fault (List Char)
  | [] => .ok []
  | a :: rest => match leadOf a rest with
    | .malformed length => .error (.malformed length start)
    | .cut => .error (.cut start)
    | .char c more => (decodeFrom (start + 1 + more) (rest.drop more)).map (c :: ·)
termination_by bytes => bytes.length
decreasing_by
  rw [List.length_drop, List.length_cons]
  omega

/-- The text that the bytes encode. -/
def decodeUtf8 (bytes : List UInt8) : Except Utf8Fault (List Char) := decodeFrom 0 bytes

end ViewSheet.Text
