/-
  Several values at a cursor, with commas between them.

  1. **Program**: `list` reads items to the end of the text; `bracketed` reads them between an
     opening and a closing mark.  A comma after an item is optional.  A mark that is empty is not
     asked for; with an empty closing mark the items run to the end of the text.

  2. **Why it ends**: nothing counts the items.  An item that takes nothing could be read for ever,
     so a list is only made of items that take a character when they succeed (`Scan.Advances`).
-/
import ViewSheet.Cursor.Basic

namespace ViewSheet

open Text

namespace Cursor

variable {α : Type}

/-! ## Why a list ends -/

/-- What is left after an item that takes something, and after a comma. -/
theorem length_next_lt {item : Scan α} (hitem : item.Advances) {c after : Cursor} {a : α}
    (hmore : c.atEnd.1 = false) (hread : item c.atEnd.2 = (.ok a, after)) :
    (after.literal [',']).2.rest.length < c.rest.length := by
  have hlt := hitem c.atEnd.2 a after (atEnd_skipBlanks hmore) hread
  have hcomma := (behind_literal [','] after).length_le
  exact Nat.lt_of_le_of_lt hcomma (Nat.lt_of_lt_of_le hlt (behind_skipBlanks c).length_le)

/-- A closing mark that is not found, or not asked for, leaves the cursor before the item. -/
theorem unclosed_eq {close : List Char} {c c' : Cursor}
    (h : (if close.isEmpty then (false, c.atEnd.2) else c.atEnd.2.literal close) = (false, c')) :
    c' = c.atEnd.2 := by
  split at h
  · exact (Prod.mk.inj h).2.symm
  · have hnot : (c.atEnd.2.literal close).1 = false := congrArg Prod.fst h
    rw [← show (c.atEnd.2.literal close).2 = c' from congrArg Prod.snd h, literal_of_not_found hnot]
    exact skipBlanks_skipBlanks c

/-! ## Lists -/

/-- Puts a value in front of what the rest of a reading gives. -/
def followedBy (a : α) (r : Except Error (List α) × Cursor) : Except Error (List α) × Cursor :=
  (r.1.map (a :: ·), r.2)

/-- Items up to the closing mark or the end of the text. -/
def items (close : List Char) (item : Scan α) (hitem : item.Advances) (c : Cursor) :
    Except Error (List α) × Cursor :=
  match _hend : c.atEnd with
  | (true, c') =>
    if close.isEmpty then (.ok [], c')
    else (.error (c.expected s!"'{String.ofList close}' to close list"), c')
  | (false, c') =>
    match _hmark : if close.isEmpty then (false, c') else c'.literal close with
    | (true, c'') => (.ok [], c'')
    | (false, c'') =>
      match _hread : item c'' with
      | (.error e, after) => (.error e, after)
      | (.ok a, after) => followedBy a (items close item hitem (after.literal [',']).2)
termination_by c.rest.length
decreasing_by
  have hmore : c.atEnd.1 = false := congrArg Prod.fst _hend
  obtain rfl : c.atEnd.2 = c' := congrArg Prod.snd _hend
  rw [unclosed_eq _hmark] at _hread
  exact length_next_lt hitem hmore _hread

/-- Items to the end of the text. -/
def list (item : Scan α) (hitem : item.Advances) : Scan (List α) := items [] item hitem

/-- Items between two marks. -/
def bracketed (opening close : List Char) (item : Scan α) (hitem : item.Advances) :
    Scan (List α) := fun c =>
  match if opening.isEmpty then (true, c) else c.literal opening with
  | (true, c') => items close item hitem c'
  | (false, c') => (.error (c'.expected s!"'{String.ofList opening}' to open list"), c')

end Cursor

end ViewSheet
