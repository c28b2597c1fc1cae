/-
  What of a text is left to see when its control sequences for a terminal are taken out.

  1. **Program**: a text is read from the left by a machine that is either in plain text or inside
     a control sequence.  An escape opens a sequence, and what comes behind it says of which kind;
     each kind ends in its own way.  `visible` keeps the characters of plain text but for the
     controls that are no white space.

  2. **White space**: a line break, tab or form feed is kept inside a short sequence too, but is
     lost inside a string.  Nothing but an end gets a reader out of a string, so a string without
     one takes all that follows.

  3. **Streams**: white space ends a short sequence for `visible`.  For `visibleInStream` it only
     interrupts it: what follows is kept up to the next control, where the sequence goes on, unless
     a character beyond the first 128 came in between.
-/

namespace ViewSheet.Text

/-! ## Characters -/

/-- A control that is white space: a tab, line feed, form feed or carriage return. -/
def isSpacing (c : Char) : Bool := ['\t', '\n', '\x0c', '\r'].contains c

/-- A character that plain text shows: any but the controls of the first 128 characters, and of
    those the white space. -/
def isShown (c : Char) : Bool := isSpacing c || (' ' ≤ c && c ≠ '\x7f')

/-- A character that stands between an escape and what it selects. -/
def isIntermediate (c : Char) : Bool := ' ' ≤ c && c ≤ '/'

/-- A character that ends a sequence of an escape with intermediate characters. -/
def isSelector (c : Char) : Bool := '0' ≤ c && c ≤ '~'

/-- A character that ends the parameters of a sequence. -/
def isFinal (c : Char) : Bool := '@' ≤ c && c ≤ '~'

/-- A character whose encoding holds the byte that terminates a string. -/
def isTerminator (c : Char) : Bool := (String.utf8EncodeChar c).contains 0x9C

/-! ## The machine -/

/-- Where in a text a reader is. -/
inductive Place where
  | plain
  /-- Right behind an escape. -/
  | escape
  /-- Behind an escape and an intermediate character. -/
  | designation
  /-- In a sequence with parameters. -/
  | control
  /-- Right behind the start of a string for the device. -/
  | deviceEntry
  /-- In the parameters of a string for the device. -/
  | deviceParameters
  /-- Behind an intermediate character of a string for the device. -/
  | deviceIntermediate
  /-- In a string that ends with a terminator. -/
  | string
  /-- In a string for the operating system, which a bell ends. -/
  | command
deriving DecidableEq, Repr

namespace Place

/-- Where a character right behind an escape leads. -/
def behindEscape (c : Char) : Place :=
  if c = '[' then control
  else if c = ']' then command
  else if c = 'P' then deviceEntry
  else if ['X', '^', '_'].contains c then string
  else if isIntermediate c then designation
  else if isSelector c then plain
  else escape

/-- Where a character at the start of a string for the device leads. -/
def behindDevice (c : Char) : Place :=
  if isIntermediate c then deviceIntermediate
  else if isFinal c then string
  else if isSelector c then deviceParameters
  else deviceEntry

/-- Where a character in the parameters of a string for the device leads.  A colon or semicolon
    parts them; a sign that can stand only in front of them spoils the string. -/
def behindParameter (c : Char) : Place :=
  if isIntermediate c then deviceIntermediate
  else if isSelector c && ';' < c then string
  else deviceParameters

/-- The place behind a character that is not kept.  An escape starts anew everywhere, and a cancel
    or substitute goes back to plain text. -/
def next (p : Place) (c : Char) : Place :=
  if c = '\x1b' then escape
  else if c = '\x18' ∨ c = '\x1a' then plain
  else match p with
    | plain => plain
    | escape => behindEscape c
    | designation => if isSelector c then plain else designation
    | control => if isFinal c then plain else control
    | deviceEntry => behindDevice c
    | deviceParameters => behindParameter c
    | deviceIntermediate => if isSelector c then string else deviceIntermediate
    | string => if isTerminator c then plain else string
    | command => if c = '\x07' then plain else command

/-- Whether a character is kept at a place. -/
def keeps : Place → Char → Bool
  | plain, c => isShown c
  | escape, c => isSpacing c
  | designation, c => isSpacing c
  | control, c => isSpacing c
  | _, _ => false

end Place

/-! ## The reader -/

/-- A reader in the middle of a text. -/
structure Reader where
  place : Place := .plain
  /-- Whether the sequence at `place` is interrupted, so that text is kept. -/
  interrupted : Bool := false
deriving DecidableEq, Repr

namespace Reader

/-- Whether the next character is kept. -/
def keeps (r : Reader) (c : Char) : Bool := if r.interrupted then isShown c else r.place.keeps c

/-- The reader behind a character that is kept. -/
def afterKept (resumes : Bool) (r : Reader) (c : Char) : Reader :=
  if resumes && c.toNat < 0x80 then ⟨r.place, true⟩ else ⟨.plain, false⟩

/-- The reader behind a character that is not kept. -/
def afterDropped (r : Reader) (c : Char) : Reader := ⟨r.place.next c, false⟩

/-- What is kept of a text, if interrupted sequences go on or if they do not. -/
def read (resumes : Bool) : Reader → List Char → List Char
  | _, [] => []
  | r, c :: cs =>
    if r.keeps c then c :: read resumes (r.afterKept resumes c) cs
    else read resumes (r.afterDropped c) cs

end Reader

/-- What of a text is left to see. -/
def visible (cs : List Char) : List Char := Reader.read false {} cs

/-- What of a text is left to see when it is written to a stream. -/
def visibleInStream (cs : List Char) : List Char := Reader.read true {} cs

end ViewSheet.Text
