/-
  Readings: how a property's text becomes a value of one kind.

  1. **Program**: one scan for each kind of value: colours, geometry in braces, fonts, words from a
     list.

  2. **Kinds**: a `Kind` pairs a scan with its place in `Value`, so that setters for different kinds
     fit into one table while their hooks take the type they are for.  What a kind puts into `Value`
     it takes out again (`project_inject`).
-/
import ViewSheet.Cursor.Number
import ViewSheet.Cursor.Sequence
import ViewSheet.Value

namespace ViewSheet

open Text

namespace Cursor

/-! ## Colours -/

/-- A number between 0 and 256 as a byte, without its fraction. -/
def channel? (v : Double) : Option Nat :=
  if Binary.zero.le v && v.lt (.ofNat 256) then some v.truncate else none

/-- An alpha between 0 and 1, or 1 if there is none. -/
def alpha? : List Double → Option Single
  | [] => some .one
  | [a] => if Binary.zero.le a && a.le .one then some a.convert else none
  | _ => none

/-- The colour of so many channels. -/
def colorOfChannels? (arity : Nat) : List Double → Option Color
  | r :: g :: b :: rest =>
    if rest.length + 3 = arity then
      match channel? r, channel? g, channel? b, alpha? rest with
      | some r, some g, some b, some a => some ((Color.ofBytes r g b 255).withAlpha a)
      | _, _, _, _ => none
    else none
  | _ => none

/-- Channels in parentheses. -/
def colorChannels (arity : Nat) (form : String) : Scan Color := fun c =>
  match bracketed ['('] [')'] number advances_number c with
  | (.error e, c') => (.error e, c')
  | (.ok channels, c') => match colorOfChannels? arity channels with
    | some color => (.ok color, c')
    | none => (.error (c'.expected form), c')

/-- Hexadecimal digits after a number sign. -/
def colorDigits : Scan Color := fun c =>
  match someRun isHexDigit "hex color digits" c with
  | (.error e, c') => (.error e, c')
  | (.ok digits, c') => match Color.ofHex? digits with
    | some color => (.ok color, c')
    | none => (.error (c'.expected "a 3, 6 or 8 digit hex color"), c')

/-- The name of a colour. -/
def colorName : Scan Color := fun c =>
  match someRun isIdentifierChar "a color" c with
  | (.error e, c') => (.error e, c')
  | (.ok name, c') => match Color.named? (String.ofList name) with
    | some color => (.ok color, c')
    | none => (.error (c'.expected "a known color name"), c')

/-- A colour in any form. -/
def color : Scan Color := fun c =>
  match c.literal ['#'] with
  | (true, c') => colorDigits c'
  | (false, c') => match c'.literal ['r', 'g', 'b', 'a'] with
    | (true, c') => colorChannels 4 "color format rgba(R, G, B, A)" c'
    | (false, c') => match c'.literal ['r', 'g', 'b'] with
      | (true, c') => colorChannels 3 "color format rgb(R, G, B)" c'
      | (false, c') => colorName c'

/-! ## Geometry -/

/-- Numbers in braces, as many as `build` takes. -/
def braced {α : Type} (build : List Single → Option α) (form : String) : Scan α := fun c =>
  match bracketed ['\x7b'] ['\x7d'] float advances_float c with
  | (.error e, c') => (.error e, c')
  | (.ok numbers, c') => match build numbers with
    | some a => (.ok a, c')
    | none => (.error (c'.expected form), c')

/-- A point. -/
def point : Scan Vec2 := braced Vec2.ofList? "point in format \x7bx, y\x7d"

/-- A size. -/
def size : Scan Vec2 := braced Vec2.ofList? "size in format \x7bwidth, height\x7d"

/-- A rectangle. -/
def rect : Scan Rect := braced Rect.ofList? "rect in format \x7bx, y, width, height\x7d"

/-- Insets. -/
def edges : Scan Edges :=
  braced Edges.ofList? "edge insets in format \x7btop, left, bottom, right\x7d"

/-! ## Fonts -/

/-- A family, and perhaps a size after it that overrides the one before it. -/
def fontFamily (size : Single) : Scan Font := fun c =>
  match upToChars isBlank c with
  | (.error e, c') => (.error e, c')
  | (.ok family, c') => match c'.atEnd with
    | (true, c'') => (.ok ⟨some family, size⟩, c'')
    | (false, c'') =>
      let (r, after) := float c''
      (r.map fun size => ⟨some family, size⟩, after)

/-- What the size and the family may look like: either of them, or both in either order. -/
def fontParts : Scan Font := fun c =>
  let (size, c') := match float c with
    | (.ok size, c') => (size, c')
    | (.error _, c') => (Font.standard.size, c')
  match c'.atEnd with
  | (true, c'') => (.ok ⟨none, size⟩, c'')
  | (false, c'') => fontFamily size c''

/-- A font: nothing else in the text, and a size above zero. -/
def font : Scan Font := fun c =>
  match fontParts c with
  | (.error e, c') => (.error e, c')
  | (.ok f, c') => match c'.atEnd with
    | (false, c'') => (.error (c''.expected "font in format '<size> <family>'"), c'')
    | (true, c'') =>
      if f.size.le .zero then (.error (c''.expected "a positive font size"), c'')
      else (.ok f, c'')

/-! ## Texts -/

/-- The whole text without the blanks around it; the cursor stays where it is. -/
def trimmedText : Scan String := fun c => (.ok (trimmed c.text), c)

/-- The whole text, each line without the blanks around it; the cursor stays where it is. -/
def trimmedLines : Scan String := fun c => (.ok ("\n".intercalate c.lines), c)

/-- All that is left of the text. -/
def restOfText : Scan String := fun c =>
  let (s, c') := c.remainder
  (.ok s, c')

end Cursor

/-! ## Words from a list -/

/-- Words that stand for values of one type. -/
structure Keywords (α : Type) where
  typeName : String
  words : List (String × α)

namespace Keywords

variable {α : Type}

/-- The complaint that lists the words. -/
def expected (k : Keywords α) (c : Cursor) : Error :=
  .unrecognized (s!"Unrecognized value '{trimmed c.text}' for {k.typeName}. Possible values: "
    ++ ", ".intercalate (k.words.map (·.1))) c.line

/-- The value of the first word that is spelled like this, in whatever case. -/
def find? (k : Keywords α) (word : List Char) : Option α :=
  (k.words.find? fun (w, _) => sameLetters w.toList word).map (·.2)

/-- The next word as a value. -/
def scan (k : Keywords α) : Scan α := fun c =>
  match c.run isIdentifierChar with
  | (word, c') => match if word.isEmpty then none else k.find? word with
    | some a => (.ok a, c')
    | none => (.error (k.expected c'), c')

end Keywords

/-- The words for alignments of a text. -/
def TextAlignment.keywords : Keywords TextAlignment :=
  ⟨"TextAlignment", [("natural", .natural), ("left", .left), ("center", .center),
    ("right", .right), ("justified", .justified)]⟩

/-- The words for directions of a stack. -/
def StackDirection.keywords : Keywords StackDirection :=
  ⟨"StackDirection", [("horizontal", .horizontal), ("vertical", .vertical)]⟩

/-- The words for alignments of a stack. -/
def StackAlignment.keywords : Keywords StackAlignment :=
  ⟨"StackAlignment", [("first", .first), ("last", .last), ("both", .both),
    ("neither", .neither)]⟩

/-! ## Kinds of value -/

/-- A type of values with a scan and a place among all values. -/
structure Kind (α : Type) where
  scan : Scan α
  inject : α → Value
  project : Value → Option α
  project_inject : ∀ a, project (inject a) = some a

namespace Kind

/-- The scan with its result among all values. -/
def scanValue {α : Type} (k : Kind α) : Scan Value := fun c =>
  let (r, c') := k.scan c
  (r.map k.inject, c')

/-- Texts, however they are scanned. -/
def textBy (scan : Scan String) : Kind String :=
  ⟨scan, .text, fun | .text s => some s | _ => none, fun _ => rfl⟩

/-- Vectors, however they are scanned. -/
def vec2By (scan : Scan Vec2) : Kind Vec2 :=
  ⟨scan, .vec2, fun | .vec2 v => some v | _ => none, fun _ => rfl⟩

/-- Booleans. -/
def flag : Kind Bool := ⟨Cursor.flag, .flag, fun | .flag b => some b | _ => none, fun _ => rfl⟩

/-- Numbers in single precision. -/
def number : Kind Single :=
  ⟨Cursor.float, .number, fun | .number n => some n | _ => none, fun _ => rfl⟩

/-- Integers. -/
def whole : Kind Int := ⟨Cursor.whole, .whole, fun | .whole n => some n | _ => none, fun _ => rfl⟩

/-- Colours. -/
def color : Kind Color := ⟨Cursor.color, .color, fun | .color c => some c | _ => none, fun _ => rfl⟩

/-- Points. -/
def point : Kind Vec2 := vec2By Cursor.point

/-- Sizes. -/
def size : Kind Vec2 := vec2By Cursor.size

/-- Rectangles. -/
def rect : Kind Rect := ⟨Cursor.rect, .rect, fun | .rect r => some r | _ => none, fun _ => rfl⟩

/-- Insets. -/
def edges : Kind Edges := ⟨Cursor.edges, .edges, fun | .edges e => some e | _ => none, fun _ => rfl⟩

/-- Fonts. -/
def font : Kind Font := ⟨Cursor.font, .font, fun | .font f => some f | _ => none, fun _ => rfl⟩

/-- The whole text, trimmed. -/
def text : Kind String := textBy Cursor.trimmedText

/-- The whole text, trimmed line by line. -/
def lines : Kind String := textBy Cursor.trimmedLines

/-- Identifiers. -/
def identifier : Kind String := textBy Cursor.identifier

/-- All that is left of the text. -/
def remainder : Kind String := textBy Cursor.restOfText

/-- Alignments of a text. -/
def textAlignment : Kind TextAlignment :=
  ⟨TextAlignment.keywords.scan, .textAlignment,
    fun | .textAlignment a => some a | _ => none, fun _ => rfl⟩

/-- Directions of a stack. -/
def stackDirection : Kind StackDirection :=
  ⟨StackDirection.keywords.scan, .stackDirection,
    fun | .stackDirection d => some d | _ => none, fun _ => rfl⟩

/-- Alignments of a stack. -/
def stackAlignment : Kind StackAlignment :=
  ⟨StackAlignment.keywords.scan, .stackAlignment,
    fun | .stackAlignment a => some a | _ => none, fun _ => rfl⟩

end Kind

end ViewSheet
