/-
  Values: what the text of a property can mean.

  The choices among words are enumerations; `Value` is the sum of all kinds of value that a setter
  can scan, so that setters for different kinds fit into one table.
-/
import ViewSheet.Color
import ViewSheet.Font
import ViewSheet.Geometry

namespace ViewSheet

/-! ## Choices -/

/-- How a text stands between its margins. -/
inductive TextAlignment where
  | natural
  | left
  | center
  | right
  | justified
deriving DecidableEq, Repr

/-- Along which axis a stack lines up its views. -/
inductive StackDirection where
  | horizontal
  | vertical
deriving DecidableEq, Repr

/-- To which edges across its axis a stack pins its views. -/
inductive StackAlignment where
  | first
  | last
  | both
  | neither
deriving DecidableEq, Repr

namespace TextAlignment

/-- The name with a capital. -/
def name : TextAlignment → String
  | natural => "Natural"
  | left => "Left"
  | center => "Center"
  | right => "Right"
  | justified => "Justified"

end TextAlignment

namespace StackDirection

/-- The name with a capital. -/
def name : StackDirection → String
  | horizontal => "Horizontal"
  | vertical => "Vertical"

end StackDirection

namespace StackAlignment

/-- The name with a capital. -/
def name : StackAlignment → String
  | first => "First"
  | last => "Last"
  | both => "Both"
  | neither => "Neither"

end StackAlignment

/-! ## All kinds of value -/

/-- A scanned value. -/
inductive Value where
  | flag (b : Bool)
  | number (n : Single)
  | whole (n : Int)
  | text (s : String)
  | color (c : Color)
  | vec2 (v : Vec2)
  | rect (r : Rect)
  | edges (e : Edges)
  | font (f : Font)
  | textAlignment (a : TextAlignment)
  | stackDirection (d : StackDirection)
  | stackAlignment (a : StackAlignment)
deriving DecidableEq, Repr

end ViewSheet
