/-
  Placeholders: `#` and a key between braces, which data bindings may replace.

  1. **Program**: `placeholdersIn` goes through a text from the left.  A key is not empty and holds
     no brace.  An opening brace inside a key means that the placeholder starts later; an empty pair
     of braces is skipped; if no brace follows any more, there is no further placeholder.
     `placeholders` lists each key once.

  2. **Filling in**: `fill` takes the keys that the text mentions, in their order, and exchanges
     every occurrence of a bound key's placeholder for the bound text.  A key without a binding
     stays as written.
-/
import ViewSheet.DataBindings
import ViewSheet.Text.Search

namespace ViewSheet

open Text

/-! ## Finding placeholders -/

/-- A brace of either kind. -/
def isBrace (c : Char) : Bool := c == '\x7b' || c == '\x7d'

theorem length_lt_of_dropWhile {p : Char → Bool} {cs rest : List Char} {c : Char}
    (h : cs.dropWhile p = c :: rest) : rest.length < cs.length := by
  have := (List.dropWhile_suffix (l := cs) p).length_le
  rw [h] at this
  exact this

/-- Keys of the placeholders in a text, from left to right, repeated as often as they occur. -/
def placeholdersIn : List Char → List (List Char)
  | [] => []
  | [_] => []
  | a :: b :: cs =>
    if a = '#' ∧ b = '\x7b' then
      let key := cs.takeWhile (!isBrace ·)
      match h : cs.dropWhile (!isBrace ·) with
      | [] => []
      | c :: rest =>
        have := length_lt_of_dropWhile h
        if c = '\x7d' then
          if key.isEmpty then placeholdersIn rest else key :: placeholdersIn rest
        else placeholdersIn cs
    else placeholdersIn (b :: cs)
termination_by cs => cs.length
decreasing_by all_goals simp only [List.length_cons]; omega

/-- Adds a text to a list that does not hold it yet. -/
def insertNew {α : Type} [DecidableEq α] (xs : List α) (x : α) : List α :=
  if x ∈ xs then xs else xs ++ [x]

/-- The keys of the placeholders in a text, each once, in the order of their first occurrence. -/
def placeholders (text : String) : List String :=
  (placeholdersIn text.toList).foldl (fun keys key => insertNew keys (String.ofList key)) []

/-! ## Filling in -/

/-- A key as a placeholder. -/
def placeholderFor (key : String) : List Char := ['#', '\x7b'] ++ key.toList ++ ['\x7d']

/-- Exchanges the placeholders of the bound keys among `keys`, one key after the other. -/
def fillKeys (data : DataBindings) : List String → List Char → List Char
  | [], text => text
  | key :: rest, text => match data.get? key with
    | some bound => fillKeys data rest (replaceAll (placeholderFor key) bound.toList text)
    | none => fillKeys data rest text

/-- The text with its bound placeholders filled in. -/
def fill (data : DataBindings) (text : String) : String :=
  String.ofList (fillKeys data (placeholders text) text.toList)

end ViewSheet
