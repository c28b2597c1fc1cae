/-
  Cursors: reading the text of one property from left to right.

  1. **Program**: a cursor holds the whole text, what is left of it, and the line of the property.
     A `Scan` reads from a cursor and gives a value or an error, and the cursor it leaves behind in
     either case: a failure moves the cursor as far as it has read, unless its description says
     otherwise.  Blanks are skipped before every token.  Errors are blamed on the line of the
     property and show the whole text.

  2. **Specification**: a cursor never moves back.  `Behind c c'` says that what is left at `c'` is
     an end piece of what is left at `c`, of the same text and line; every token of this module
     keeps it.  A scan that `Advances` takes a character whenever it succeeds before the end of the
     text.
-/
import ViewSheet.Error
import ViewSheet.Text.Alphanumeric
import ViewSheet.Text.Blank
import ViewSheet.Text.Search

namespace ViewSheet

open Text

/-- A place in the text of a property. -/
structure Cursor where
  text : String
  rest : List Char
  line : Nat
deriving DecidableEq, Repr

/-- Reads a value, or fails; either way it says where the cursor is left. -/
abbrev Scan (α : Type) := Cursor → Except Error α × Cursor

namespace Cursor

/-! ## Places -/

/-- The start of a text. -/
def start (text : String) (line : Nat) : Cursor := ⟨text, text.toList, line⟩

/-- What is left to read. -/
def remaining (c : Cursor) : String := String.ofList c.rest

/-- Passes over blanks. -/
def skipBlanks (c : Cursor) : Cursor := { c with rest := trimStart c.rest }

/-- Whether nothing but blanks is left; they are passed over. -/
def atEnd (c : Cursor) : Bool × Cursor := (c.skipBlanks.rest.isEmpty, c.skipBlanks)

/-- The complaint that something else was expected. -/
def expected (c : Cursor) (what : String) : Error :=
  .unrecognized s!"Expected {what} but saw '{c.text}'" c.line

/-! ## Tokens -/

/-- Passes over `mark` if it comes next; says whether it did. -/
def literal (mark : List Char) (c : Cursor) : Bool × Cursor :=
  match stripStart? mark c.skipBlanks.rest with
  | some rest => (true, { c with rest })
  | none => (false, c.skipBlanks)

/-- Passes over the characters of a class that come next. -/
def run (p : Char → Bool) (c : Cursor) : List Char × Cursor :=
  (c.skipBlanks.rest.takeWhile p, { c with rest := c.skipBlanks.rest.dropWhile p })

/-- Passes over the characters of a class that come next, at least one. -/
def someRun (p : Char → Bool) (what : String) : Scan (List Char) := fun c =>
  let (cs, c') := c.run p
  if cs.isEmpty then (.error (c'.expected what), c') else (.ok cs, c')

/-- Characters of a class. -/
def chars (p : Char → Bool) : Scan String := fun c =>
  let (r, c') := someRun p "characters from the expected set" c
  (r.map String.ofList, c')

/-- Text up to a character of a class, or to the end; blanks at its end do not count. -/
def upToChars (stop : Char → Bool) : Scan String := fun c =>
  let (r, c') := someRun (!stop ·) "text before the delimiter" c
  (r.map fun cs => String.ofList (trimEnd cs), c')

/-- Text up to a delimiter, or to the end; blanks at its end do not count. -/
def upTo (delimiter : String) : Scan String := fun c =>
  let c := c.skipBlanks
  let head := before delimiter.toList c.rest
  if head.isEmpty then (.error (c.expected s!"text before '{delimiter}'"), c)
  else (.ok (String.ofList (trimEnd head)), { c with rest := c.rest.drop head.length })

/-- Letters from A to Z, digits and underscores. -/
def identifier : Scan String := fun c =>
  let (r, c') := someRun isIdentifierChar "an identifier" c
  (r.map String.ofList, c')

/-- All that is left, without the blanks around it. -/
def remainder (c : Cursor) : String × Cursor :=
  (String.ofList (trim c.rest), { c with rest := [] })

/-- The lines of the whole text, each without the blanks around it. -/
def lines (c : Cursor) : List String :=
  (pieces '\n' c.text.toList).map fun l => String.ofList (trim l)

/-! ## No token moves back -/

/-- The cursor `c'` reads the same text as `c` and has passed over what lies between them. -/
def Behind (c c' : Cursor) : Prop :=
  c'.text = c.text ∧ c'.line = c.line ∧ c'.rest <:+ c.rest

theorem Behind.refl (c : Cursor) : Behind c c := ⟨rfl, rfl, List.suffix_refl _⟩

theorem Behind.trans {a b c : Cursor} (h : Behind a b) (k : Behind b c) : Behind a c :=
  ⟨k.1.trans h.1, k.2.1.trans h.2.1, k.2.2.trans h.2.2⟩

theorem Behind.length_le {a b : Cursor} (h : Behind a b) : b.rest.length ≤ a.rest.length :=
  h.2.2.length_le

theorem behind_skipBlanks (c : Cursor) : Behind c c.skipBlanks :=
  ⟨rfl, rfl, List.dropWhile_suffix _⟩

theorem behind_literal (mark : List Char) (c : Cursor) : Behind c (c.literal mark).2 := by
  unfold literal
  split
  · rename_i rest h
    refine ⟨rfl, rfl, ?_⟩
    have hrest : rest <:+ c.skipBlanks.rest := ⟨mark, (eq_append_of_stripStart? h).symm⟩
    exact hrest.trans (behind_skipBlanks c).2.2
  · exact behind_skipBlanks c

theorem behind_run (p : Char → Bool) (c : Cursor) : Behind c (c.run p).2 :=
  ⟨rfl, rfl, (List.dropWhile_suffix _).trans (behind_skipBlanks c).2.2⟩

/-! ## The end of a text, and what comes before it -/

theorem skipBlanks_skipBlanks (c : Cursor) : c.skipBlanks.skipBlanks = c.skipBlanks := by
  rw [skipBlanks, skipBlanks, trimStart_trimStart]

theorem atEnd_eq_false_iff {c : Cursor} : c.atEnd.1 = false ↔ c.skipBlanks.rest ≠ [] := by
  rw [atEnd, Bool.eq_false_iff, ne_eq, List.isEmpty_iff]

theorem atEnd_skipBlanks {c : Cursor} (h : c.atEnd.1 = false) : c.skipBlanks.atEnd.1 = false := by
  rw [atEnd_eq_false_iff] at h ⊢
  rwa [skipBlanks_skipBlanks]

/-- A mark that is not found is not passed over. -/
theorem literal_of_not_found {mark : List Char} {c : Cursor} (h : (c.literal mark).1 = false) :
    (c.literal mark).2 = c.skipBlanks := by
  unfold literal at h ⊢
  split at h
  · cases h
  · rfl

theorem length_run_lt {p : Char → Bool} {c : Cursor} (h : (c.run p).1 ≠ []) :
    (c.run p).2.rest.length < c.rest.length :=
  Nat.lt_of_lt_of_le (length_dropWhile_lt h) (behind_skipBlanks c).length_le

end Cursor

/-! ## Scans that move on -/

/-- Before the end of the text, the scan takes a character if it succeeds. -/
def Scan.Advances {α : Type} (scan : Scan α) : Prop :=
  ∀ c a c', c.atEnd.1 = false → scan c = (.ok a, c') → c'.rest.length < c.rest.length

/-- What is made of the value makes no difference. -/
theorem Scan.Advances.map {α β : Type} {first : Scan α} (h : first.Advances) (f : α → β) :
    Scan.Advances fun c => ((first c).1.map f, (first c).2) := by
  intro c b c' hmore hscan
  rw [Prod.mk.injEq] at hscan
  rcases hrun : first c with ⟨e | a, after⟩
  · rw [hrun] at hscan
    cases hscan.1
  · rw [hrun] at hscan
    rw [← hscan.2]
    exact h c a after hmore hrun

end ViewSheet
