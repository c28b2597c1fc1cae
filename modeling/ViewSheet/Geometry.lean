/-
  Points, rectangles and insets, in logical points from the top left.
-/
import ViewSheet.Number.Binary

namespace ViewSheet

/-- A point or a size. -/
structure Vec2 where
  x : Single
  y : Single
deriving DecidableEq, Repr

/-- A rectangle along the axes. -/
structure Rect where
  origin : Vec2
  size : Vec2
deriving DecidableEq, Repr

/-- Insets on the four sides. -/
structure Edges where
  top : Single
  left : Single
  bottom : Single
  right : Single
deriving DecidableEq, Repr

namespace Vec2

/-- The origin. -/
def zero : Vec2 := ⟨.zero, .zero⟩

/-- Takes exactly two numbers. -/
def ofList? : List Single → Option Vec2
  | [x, y] => some ⟨x, y⟩
  | _ => none

end Vec2

namespace Rect

/-- An empty rectangle at the origin. -/
def zero : Rect := ⟨.zero, .zero⟩

/-- Takes exactly four numbers: the origin and the size. -/
def ofList? : List Single → Option Rect
  | [x, y, w, h] => some ⟨⟨x, y⟩, ⟨w, h⟩⟩
  | _ => none

/-- The rectangle at the same place with another size. -/
def withSize (r : Rect) (size : Vec2) : Rect := { r with size }

end Rect

namespace Edges

/-- No insets. -/
def zero : Edges := ⟨.zero, .zero, .zero, .zero⟩

/-- Takes exactly four numbers: top, left, bottom and right. -/
def ofList? : List Single → Option Edges
  | [top, left, bottom, right] => some ⟨top, left, bottom, right⟩
  | _ => none

/-- Equality of the insets as numbers. -/
def eq (a b : Edges) : Bool :=
  a.top.eq b.top && a.left.eq b.left && a.bottom.eq b.bottom && a.right.eq b.right

end Edges

end ViewSheet
