/-
  Fonts: a family and a size in points.  No family is resolved against fonts that exist.
-/
import ViewSheet.Number.Shortest

namespace ViewSheet

/-- A font; without a family, that of the system. -/
structure Font where
  family : Option String
  size : Single
deriving DecidableEq, Repr

namespace Font

/-- The font of the system in 14 points. -/
def standard : Font := ⟨none, .ofNat 14⟩

/-- The size and the family. -/
def text (f : Font) : String := f.size.text ++ " " ++ f.family.getD "system"

end Font

end ViewSheet
