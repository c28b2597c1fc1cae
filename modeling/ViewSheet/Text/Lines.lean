/-
  Source lines: where a line ends, and how much of it counts.

  1. **Program**: `splitLines` ends a line at a line feed, at a carriage return, or at the two
     together.  `codeOf` drops a comment, which runs from `#--` to the end of the line, and the
     blanks before it.  `sourceLines` does both and numbers the lines from 1.

  2. **Streams**: `fedLines` has another rule, that of a text written to a stream.  A line feed
     alone ends a line there, and a carriage return belongs to the end only right before one.

  3. **Specification**: no line of a source holds a line break (`no_break_of_mem_splitLines`), and
     there is always at least one line (`splitLines_ne_nil`).
-/
import ViewSheet.Text.Blank
import ViewSheet.Text.Search

namespace ViewSheet.Text

/-! ## Programs -/

/-- A character that ends a line. -/
def isBreak (c : Char) : Bool := c == '\n' || c == '\r'

/-- The lines of a text, without their ends. -/
def splitLines : List Char → List (List Char)
  | [] => [[]]
  | '\r' :: '\n' :: cs => [] :: splitLines cs
  | c :: cs =>
    if isBreak c then [] :: splitLines cs
    else match splitLines cs with
      | [] => [[c]]
      | line :: rest => (c :: line) :: rest

/-- What starts a comment. -/
def commentMark : List Char := ['#', '-', '-']

/-- The part of a line that counts: no comment, and no blanks at the end. -/
def codeOf (line : List Char) : List Char := trimEnd (before commentMark line)

/-- A line of source with its number, which counts from 1. -/
structure Line where
  number : Nat
  text : List Char
deriving DecidableEq, Repr

namespace Line

/-- Whether nothing but blanks stands on the line. -/
def isEmpty (l : Line) : Bool := l.text.all isBlank

end Line

/-- Numbers the lines upwards from `n`. -/
def numbered : Nat → List (List Char) → List Line
  | _, [] => []
  | n, text :: rest => ⟨n, text⟩ :: numbered (n + 1) rest

/-- The lines of a source, comments removed and numbered. -/
def sourceLines (source : List Char) : List Line := numbered 1 ((splitLines source).map codeOf)

/-- A line without a carriage return at its end. -/
def dropReturn (line : List Char) : List Char :=
  if line.getLast? = some '\r' then line.dropLast else line

/-- Lines from what stands between line feeds: every piece but the last has its end, and the last
    is a line only if something stands on it. -/
def endedLines : List (List Char) → List (List Char)
  | [] => []
  | [last] => if last.isEmpty then [] else [last]
  | line :: rest => dropReturn line :: endedLines rest

/-- The lines of a text written to a stream, without their ends. -/
def fedLines (cs : List Char) : List (List Char) := endedLines (pieces '\n' cs)

/-! ## What a line is -/

theorem splitLines_ne_nil (cs : List Char) : splitLines cs ≠ [] := by
  fun_cases splitLines cs <;> simp_all

theorem no_break_of_mem_splitLines (cs : List Char) :
    ∀ line ∈ splitLines cs, ∀ c ∈ line, isBreak c = false := by
  fun_induction splitLines cs with
  | case1 => simp
  | case2 cs ih => simpa using ih
  | case3 c cs _ hbreak ih => simpa using ih
  | case4 c cs _ hbreak hnil ih => exact absurd hnil (splitLines_ne_nil cs)
  | case5 c cs _ hbreak line rest hsplit ih =>
    intro l hl d hd
    rcases List.mem_cons.1 hl with rfl | hl
    · rcases List.mem_cons.1 hd with rfl | hd
      · simpa using hbreak
      · exact ih line (by simp [hsplit]) d hd
    · exact ih l (by simp [hsplit, hl]) d hd

end ViewSheet.Text
