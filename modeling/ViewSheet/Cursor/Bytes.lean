/-
  Cursors by bytes: reading the text of a property at an offset.

  1. **Program**: a `ByteCursor` holds the text, how many bytes of it have been read, and the line.
     Every operation works out how many bytes it has to go on, and cuts what it gives out of the
     text.  A failure leaves the cursor as far as it has read; a number that is none goes back to
     where it began.

  2. **What can go wrong**: the program stops if it cuts a text inside a character or beyond its end
     (`Panic`).  A list of items that take nothing may never end, and then there is no result.
     `Scanning` keeps the two apart from an error, which is a result like any other.
-/
import ViewSheet.Cursor.Number
import ViewSheet.Text.Bytes

namespace ViewSheet

open Text

/-- A place in the text of a property, counted in bytes. -/
structure ByteCursor where
  text : String
  pos : Nat
  line : Nat
deriving DecidableEq, Repr

/-- Why a program stops in the middle of what it does. -/
inductive Panic where
  /-- A text was cut inside a character, or beyond its end. -/
  | cut
deriving DecidableEq, Repr

/-- Does something at a cursor, and may stop, or never come to an end. -/
abbrev Scanning (β : Type) := StateT ByteCursor (ExceptT Panic Option) β

namespace ByteCursor

/-- The start of a text. -/
def start (text : String) (line : Nat) : ByteCursor := ⟨text, 0, line⟩

/-- How many bytes are left to read. -/
def left (b : ByteCursor) : Nat := b.text.utf8ByteSize - b.pos

/-! ## Places -/

/-- A text before an offset and behind it. -/
def cut (cs : List Char) (n : Nat) : Scanning (List Char × List Char) :=
  match cutBytes? cs n with
  | some parts => pure parts
  | none => throw .cut

/-- What is left to read. -/
def remaining : Scanning (List Char) := do
  let b ← get
  let (_, rest) ← cut b.text.toList b.pos
  return rest

/-- Goes on by some bytes. -/
def advance (n : Nat) : Scanning Unit := modify fun b => { b with pos := b.pos + n }

/-- Goes to an offset. -/
def goTo (pos : Nat) : Scanning Unit := modify fun b => { b with pos }

/-- The complaint that something else was expected. -/
def expected (what : String) : Scanning Error := do
  let b ← get
  return .unrecognized s!"Expected {what} but saw '{b.text}'" b.line

/-- Fails with the complaint that something else was expected. -/
def fail {α : Type} (what : String) : Scanning (Except Error α) := do
  let e ← expected what
  return .error e

/-- Passes over blanks. -/
def skipBlanks : Scanning Unit := do
  let rest ← remaining
  advance (byteLength rest - byteLength (trimStart rest))

/-- Whether nothing but blanks is left; they are passed over. -/
def atEnd : Scanning Bool := do
  skipBlanks
  let b ← get
  return b.text.utf8ByteSize ≤ b.pos

/-! ## Tokens -/

/-- Passes over `mark` if it comes next; says whether it did. -/
def literal (mark : List Char) : Scanning Bool := do
  skipBlanks
  let rest ← remaining
  if (stripStart? mark rest).isSome then
    advance (byteLength mark)
    return true
  else
    return false

/-- Passes over the characters of a class that come next. -/
def run (p : Char → Bool) : Scanning (List Char) := do
  skipBlanks
  let rest ← remaining
  let len := (findChar? (!p ·) rest).getD (byteLength rest)
  advance len
  let (cs, _) ← cut rest len
  return cs

/-- Passes over the characters of a class that come next, at least one. -/
def someRun (p : Char → Bool) (what : String) : Scanning (Except Error (List Char)) := do
  let cs ← run p
  if cs.isEmpty then fail what else return .ok cs

/-- Characters of a class. -/
def chars (p : Char → Bool) : Scanning (Except Error String) := do
  let r ← someRun p "characters from the expected set"
  return r.map String.ofList

/-- Text up to a character of a class, or to the end; blanks at its end do not count. -/
def upToChars (stop : Char → Bool) : Scanning (Except Error String) := do
  let r ← someRun (!stop ·) "text before the delimiter"
  return r.map fun cs => String.ofList (trimEnd cs)

/-- Text up to a delimiter, or to the end; blanks at its end do not count. -/
def upTo (delimiter : String) : Scanning (Except Error String) := do
  skipBlanks
  let rest ← remaining
  let len := (findText? delimiter.toList rest).getD (byteLength rest)
  if len = 0 then fail s!"text before '{delimiter}'"
  else
    advance len
    let (head, _) ← cut rest len
    return .ok (String.ofList (trimEnd head))

/-- Letters from A to Z, digits and underscores. -/
def identifier : Scanning (Except Error String) := do
  let r ← someRun isIdentifierChar "an identifier"
  return r.map String.ofList

/-- All that is left, without the blanks around it. -/
def remainder : Scanning String := do
  let rest ← remaining
  let b ← get
  goTo b.text.utf8ByteSize
  return String.ofList (trim rest)

/-! ## Booleans and numbers -/

/-- A word as a boolean. -/
def flag : Scanning (Except Error Bool) := do
  let r ← someRun (!isBlank ·) "Bool"
  match r with
  | .error e => return .error e
  | .ok word =>
    let significant := (word.dropWhile fun x => x == '+' || x == '-').dropWhile (· == '0')
    match Cursor.truth? significant with
    | some b => return .ok b
    | none => fail "Bool"

/-- A decimal literal in double precision. -/
def number : Scanning (Except Error Double) := do
  let before ← get
  let cs ← run Cursor.isNumberChar
  if Decimal.isNumeral cs then
    match Decimal.read? cs with
    | some d => return .ok d.toBinary
    | none => fail "number"
  else
    goTo before.pos
    fail "number"

/-- A decimal literal in single precision. -/
def float : Scanning (Except Error Single) := do
  let r ← number
  return r.map Binary.convert

/-- An integer of 64 bits, from its sign and its digits. -/
def wholeOf? (literal : List Char) : Option Int :=
  let (negative, digits) := Cursor.signOf literal
  let n : Int := digitsValue digits
  let value := if negative then -n else n
  if Cursor.inRange value then some value else none

/-- Reads an integer of some bytes, and goes behind it. -/
def wholeOf (pos : Nat) (rest : List Char) (len : Nat) : Scanning (Except Error Int) := do
  let (literal, _) ← cut rest len
  goTo (pos + byteLength literal)
  match wholeOf? literal with
  | some n => return .ok n
  | none => fail "integer"

/-- An integer of at most 64 bits. -/
def whole : Scanning (Except Error Int) := do
  skipBlanks
  let before ← get
  let rest ← remaining
  let sign := if rest.head? = some '-' ∨ rest.head? = some '+' then 1 else 0
  let (_, unsigned) ← cut rest sign
  let digits := (findChar? (!isDigit ·) unsigned).getD (byteLength rest - sign)
  if digits = 0 then fail "integer" else wholeOf before.pos rest (sign + digits)

/-! ## Lists -/

variable {α : Type}

/-- Whether a closing mark comes next, and is passed over.  An empty one is not asked for. -/
def closes (close : List Char) : Scanning Bool :=
  if close.isEmpty then pure false else literal close

/-- What a round of a list comes to. -/
inductive Round (α : Type) where
  /-- There is no further round. -/
  | last (r : Except Error (List α))
  /-- An item was read. -/
  | item (a : α)

/-- A round of a list: the list is at its end, or an item is read, and a comma if one comes next. -/
def round (close : List Char) (item : Scanning (Except Error α)) : Scanning (Round α) := do
  if ← atEnd then
    if close.isEmpty then return .last (.ok [])
    else
      let r ← fail s!"'{String.ofList close}' to close list"
      return .last r
  else if ← closes close then return .last (.ok [])
  else
    match ← item with
    | .error e => return .last (.error e)
    | .ok a =>
      let _ ← literal [',']
      return .item a

/-- Items from a cursor on, round after round.  Behind a round that has taken nothing the next one
    is the same, and so on without an end. -/
def itemsFrom (close : List Char) (item : Scanning (Except Error α)) (b : ByteCursor) :
    Option (Except Panic (Except Error (List α) × ByteCursor)) := do
  match ← ((round close item).run b).run with
  | .error p => return .error p
  | .ok (.last r, b') => return .ok (r, b')
  | .ok (.item a, b') =>
    if b'.left < b.left then
      match ← itemsFrom close item b' with
      | .error p => return .error p
      | .ok (r, b'') => return .ok (r.map (a :: ·), b'')
    else none
termination_by b.left

/-- Items up to the closing mark or the end of the text. -/
def items (close : List Char) (item : Scanning (Except Error α)) :
    Scanning (Except Error (List α)) :=
  itemsFrom close item

/-- Items to the end of the text. -/
def list (item : Scanning (Except Error α)) : Scanning (Except Error (List α)) := items [] item

/-- Items between two marks. -/
def bracketed (opening close : List Char) (item : Scanning (Except Error α)) :
    Scanning (Except Error (List α)) := do
  if ← (if opening.isEmpty then pure true else literal opening) then items close item
  else fail s!"'{String.ofList opening}' to open list"

end ByteCursor

end ViewSheet
