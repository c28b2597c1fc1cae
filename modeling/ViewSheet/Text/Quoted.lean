/-
  Quoted texts: how a string is shown on one line.

  1. **Program**: `quoted` puts quotation marks around a string.  A quotation mark, a backslash and
     the four common controls are written with a backslash and a letter; any other character that is
     not printable, and any that would join its neighbour, as its number in hexadecimal; the rest
     stands for itself.  The apostrophe is not escaped.

  2. **Specification**: a quoted text never holds a line feed (`lineFeed_not_mem_quote`), so it
     keeps to its line.
-/
import ViewSheet.Text.Printable

namespace ViewSheet.Text

/-! ## Program -/

/-- A digit of a hexadecimal number, in lower case. -/
def hexDigit (n : Nat) : Char :=
  if n < 10 then Char.ofNat ('0'.toNat + n) else Char.ofNat ('a'.toNat + (n - 10))

/-- The last hexadecimal digits of a number, as many as asked for, the most significant first. -/
def hexDigits : Nat → Nat → List Char
  | _, 0 => []
  | n, places + 1 => hexDigits (n / 16) places ++ [hexDigit (n % 16)]

/-- The number of a character between braces, in hexadecimal without leading zeros. -/
def codeEscape (c : Char) : List Char :=
  ['\\', 'u', '\x7b'] ++ (hexDigits c.toNat 6).dropWhile (· == '0') ++ ['\x7d']

/-- How one character is written inside quotation marks. -/
def escape (c : Char) : List Char :=
  if c = '"' then ['\\', '"']
  else if c = '\\' then ['\\', '\\']
  else if c = '\n' then ['\\', 'n']
  else if c = '\r' then ['\\', 'r']
  else if c = '\t' then ['\\', 't']
  else if c.toNat = 0 then ['\\', '0']
  else if isGraphemeExtender c then codeEscape c
  else if isPrintable c then [c]
  else codeEscape c

/-- A text between quotation marks, over lists of characters. -/
def quote (cs : List Char) : List Char := '"' :: cs.flatMap escape ++ ['"']

/-- A string between quotation marks. -/
def quoted (s : String) : String := String.ofList (quote s.toList)

/-- Strings between brackets, each quoted. -/
def quotedList (ss : List String) : String := "[" ++ ", ".intercalate (ss.map quoted) ++ "]"

/-! ## A quoted text keeps to its line -/

theorem hexDigit_ne_lineFeed (n : Nat) (h : n < 16) : hexDigit n ≠ '\n' := by
  have : ∀ m : Fin 16, hexDigit m.val ≠ '\n' := by decide
  exact this ⟨n, h⟩

theorem lineFeed_not_mem_hexDigits (n places : Nat) : '\n' ∉ hexDigits n places := by
  induction places generalizing n with
  | zero => simp [hexDigits]
  | succ places ih =>
    have := hexDigit_ne_lineFeed (n % 16) (Nat.mod_lt _ (by decide))
    simp [hexDigits, ih, this.symm]

theorem lineFeed_not_mem_codeEscape (c : Char) : '\n' ∉ codeEscape c := by
  have h : '\n' ∉ (hexDigits c.toNat 6).dropWhile (· == '0') := fun hmem =>
    lineFeed_not_mem_hexDigits c.toNat 6 ((List.dropWhile_sublist _).mem hmem)
  simp [codeEscape, h]

theorem lineFeed_not_mem_escape (c : Char) : '\n' ∉ escape c := by
  have h := lineFeed_not_mem_codeEscape c
  by_cases hn : c = '\n'
  · simp [escape, hn]
  · unfold escape
    repeat' split
    all_goals simp [h, Ne.symm hn]

theorem lineFeed_not_mem_quote (cs : List Char) : '\n' ∉ quote cs := by
  simp only [quote, List.cons_append, List.mem_cons, List.mem_append, List.mem_flatMap, not_or]
  refine ⟨by decide, ?_, by simp⟩
  rintro ⟨c, _, hc⟩
  exact lineFeed_not_mem_escape c hc

end ViewSheet.Text
