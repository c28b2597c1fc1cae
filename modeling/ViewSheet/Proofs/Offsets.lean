/-
  Offsets: a cursor by bytes reads what a cursor by characters reads.

  1. **Program**: the operations of a `ByteCursor` count bytes: how long the blanks are, where a
     character or a text is found, how long a literal is.  An offset that is off by one may be
     inside a character, and the next cut stops the program.

  2. **Specification**: `Shows b c` says that the cursor `b` is between two characters, and that `c`
     is what it has left to read.  `Mirrors m f` says that the operation `m` comes to an end from
     there, with the result of `f`, and again between two characters.

  3. **The crux** (`Shows.advance`): if a cursor goes on by as many bytes as the characters have
     that it passes over, then it shows the characters behind them.

  4. **Result** (`mirrors_literal`, `mirrors_run` and so on): each operation by bytes mirrors the
     one by characters, the numbers included, which have arithmetic of their own.
-/
import ViewSheet.Cursor.Bytes
import ViewSheet.Proofs.Integers
import ViewSheet.Proofs.Numerals

namespace ViewSheet

open Text

/-! ## Runs -/

namespace Scanning

variable {β γ : Type}

/-- The run from a cursor ends, with a result and at a cursor. -/
def Ends (m : Scanning β) (b : ByteCursor) (x : β) (b' : ByteCursor) : Prop :=
  (m.run b).run = some (.ok (x, b'))

/-- The run from a cursor stops in the middle. -/
def Panics (m : Scanning β) (b : ByteCursor) : Prop := ∃ p, (m.run b).run = some (.error p)

theorem Ends.pure (x : β) (b : ByteCursor) : (Pure.pure x : Scanning β).Ends b x b := rfl

theorem Ends.bind {m : Scanning β} {k : β → Scanning γ} {b b' b'' : ByteCursor} {x : β} {y : γ}
    (h : m.Ends b x b') (hk : (k x).Ends b' y b'') : (m >>= k).Ends b y b'' := by
  unfold Ends at h hk ⊢
  rw [StateT.run_bind, ExceptT.run_bind, h]
  exact hk

/-- A run has one end. -/
theorem Ends.unique {m : Scanning β} {b b₁ b₂ : ByteCursor} {x y : β} (h : m.Ends b x b₁)
    (k : m.Ends b y b₂) : x = y ∧ b₁ = b₂ := by
  have heq := h.symm.trans k
  rw [Option.some.injEq, Except.ok.injEq, Prod.mk.injEq] at heq
  exact heq

end Scanning

namespace ByteCursor

open Scanning

variable {β γ : Type} {b b' : ByteCursor} {c c' : Cursor}

theorem ends_get (b : ByteCursor) : (get : Scanning ByteCursor).Ends b b b := rfl

theorem ends_advance (n : Nat) (b : ByteCursor) :
    (advance n).Ends b () { b with pos := b.pos + n } := rfl

theorem ends_goTo (pos : Nat) (b : ByteCursor) : (goTo pos).Ends b () { b with pos } := rfl

/-- A text is cut behind some of its characters. -/
theorem ends_cut {cs front back : List Char} (h : cs = front ++ back) (b : ByteCursor) :
    (cut cs (byteLength front)).Ends b (front, back) b := by
  rw [cut, cutBytes?_eq_some_iff.mpr ⟨h, rfl⟩]
  rfl

/-! ## What a cursor shows -/

/-- The cursor is between two characters, and shows the text, the line, and what is left. -/
structure Shows (b : ByteCursor) (c : Cursor) : Prop where
  text : c.text = b.text
  line : c.line = b.line
  rest : ∃ front, b.text.toList = front ++ c.rest ∧ byteLength front = b.pos

namespace Shows

theorem start (text : String) (line : Nat) : Shows (.start text line) (.start text line) :=
  ⟨rfl, rfl, [], rfl, rfl⟩

/-- A cursor shows one thing. -/
theorem unique (h : Shows b c) (k : Shows b c') : c = c' := by
  obtain ⟨front, hsplit, hbytes⟩ := h.rest
  obtain ⟨front', hsplit', hbytes'⟩ := k.rest
  have hcut := cutBytes?_eq_some_iff.mpr ⟨hsplit, hbytes⟩
  rw [cutBytes?_eq_some_iff.mpr ⟨hsplit', hbytes'⟩, Option.some.injEq, Prod.mk.injEq] at hcut
  obtain ⟨text, rest, line⟩ := c
  obtain ⟨text', rest', line'⟩ := c'
  obtain rfl : text = text' := h.text.trans k.text.symm
  obtain rfl : line = line' := h.line.trans k.line.symm
  obtain rfl : rest' = rest := hcut.2
  rfl

/-- What is left says where the cursor is. -/
theorem eq (h : Shows b c) (k : Shows b' c) : b = b' := by
  obtain ⟨front, hsplit, hbytes⟩ := h.rest
  obtain ⟨front', hsplit', hbytes'⟩ := k.rest
  obtain ⟨text, pos, line⟩ := b
  obtain ⟨text', pos', line'⟩ := b'
  obtain rfl : text = text' := h.text.symm.trans k.text
  obtain rfl : line = line' := h.line.symm.trans k.line
  have hsame : front = front' := List.append_cancel_right (hsplit.symm.trans hsplit')
  subst hsame
  obtain rfl : pos = pos' := hbytes.symm.trans hbytes'
  rfl

/-- **A cursor that goes on by the bytes of some characters** has passed over these. -/
theorem advance (h : Shows b c) {passed left : List Char} (hrest : c.rest = passed ++ left) :
    Shows { b with pos := b.pos + byteLength passed } { c with rest := left } := by
  obtain ⟨front, hsplit, hbytes⟩ := h.rest
  refine ⟨h.text, h.line, front ++ passed, ?_, ?_⟩
  · rw [hsplit, hrest, List.append_assoc]
  · rw [byteLength_append, hbytes]

/-- At the end of the text there is nothing left. -/
theorem byteLength_text (h : Shows b c) : b.text.utf8ByteSize = b.pos + byteLength c.rest := by
  obtain ⟨front, hsplit, hbytes⟩ := h.rest
  rw [← hbytes, ← byteLength_append, ← hsplit, byteLength_eq, String.ofList_toList]

theorem ends_remaining (h : Shows b c) : remaining.Ends b c.rest b := by
  obtain ⟨front, hsplit, hbytes⟩ := h.rest
  have hcut : (cut b.text.toList b.pos).Ends b (front, c.rest) b := by
    rw [← hbytes]
    exact ends_cut hsplit b
  exact (ends_get b).bind (hcut.bind (.pure c.rest b))

theorem ends_fail {α : Type} (h : Shows b c) (what : String) :
    (fail what : Scanning (Except Error α)).Ends b (.error (c.expected what)) b := by
  rw [Cursor.expected, h.text, h.line]
  exact rfl

end Shows

/-! ## Operations that mirror each other -/

/-- From a cursor that shows another, both give the same and show the same again. -/
def Mirrors (m : Scanning β) (f : Cursor → β × Cursor) : Prop :=
  ∀ b c, Shows b c → ∃ b', m.Ends b (f c).1 b' ∧ Shows b' (f c).2

namespace Mirrors

theorem pure (x : β) : Mirrors (Pure.pure x) fun c => (x, c) :=
  fun b _ h => ⟨b, .pure x b, h⟩

theorem fail {α : Type} (what : String) :
    Mirrors (ByteCursor.fail what : Scanning (Except Error α)) fun c =>
      (.error (c.expected what), c) :=
  fun b _ h => ⟨b, h.ends_fail what, h⟩

theorem bind {m : Scanning β} {f : Cursor → β × Cursor} {k : β → Scanning γ}
    {g : β → Cursor → γ × Cursor} (hm : Mirrors m f) (hk : ∀ x, Mirrors (k x) (g x)) :
    Mirrors (m >>= k) fun c => g (f c).1 (f c).2 := by
  intro b c h
  obtain ⟨b', hends, h'⟩ := hm b c h
  obtain ⟨b'', hends', h''⟩ := hk _ b' _ h'
  exact ⟨b'', hends.bind hends', h''⟩

/-- What is made of the result makes no difference. -/
theorem map {m : Scanning β} {f : Cursor → β × Cursor} (hm : Mirrors m f) (g : β → γ) :
    Mirrors (m >>= fun x => Pure.pure (g x)) fun c => (g (f c).1, (f c).2) :=
  hm.bind fun x => .pure (g x)

end Mirrors

/-! ## Tokens -/

theorem mirrors_skipBlanks : Mirrors skipBlanks fun c => ((), c.skipBlanks) := by
  intro b c h
  obtain ⟨blanks, hblanks, -⟩ := exists_append_trimStart c.rest
  have hbytes : byteLength c.rest - byteLength (trimStart c.rest) = byteLength blanks := by
    have hsum := congrArg byteLength hblanks
    rw [byteLength_append] at hsum
    omega
  refine ⟨_, h.ends_remaining.bind ?_, h.advance hblanks⟩
  rw [hbytes]
  exact ends_advance _ b

theorem mirrors_atEnd : Mirrors atEnd Cursor.atEnd := by
  intro b c h
  obtain ⟨b', hskip, h'⟩ := mirrors_skipBlanks b c h
  have hend : decide (b'.text.utf8ByteSize ≤ b'.pos) = c.skipBlanks.rest.isEmpty := by
    rw [h'.byteLength_text]
    cases hrest : c.skipBlanks.rest with
    | nil =>
      rw [decide_eq_true (by rw [byteLength]; exact Nat.le_refl _)]
      rfl
    | cons d rest =>
      have hpos := d.utf8Size_pos
      rw [decide_eq_false (by rw [byteLength]; omega)]
      rfl
  refine ⟨b', hskip.bind ((ends_get b').bind ?_), h'⟩
  rw [hend]
  exact .pure _ b'

theorem mirrors_literal (mark : List Char) : Mirrors (literal mark) (Cursor.literal mark) := by
  intro b c h
  obtain ⟨b', hskip, h'⟩ := mirrors_skipBlanks b c h
  unfold Cursor.literal
  cases hstrip : stripStart? mark c.skipBlanks.rest with
  | none =>
    refine ⟨b', hskip.bind (h'.ends_remaining.bind ?_), h'⟩
    rw [hstrip]
    exact .pure false b'
  | some rest =>
    have hrest : c.skipBlanks.rest = mark ++ rest := eq_append_of_stripStart? hstrip
    refine ⟨_, hskip.bind (h'.ends_remaining.bind ?_), h'.advance hrest⟩
    rw [hstrip]
    exact (ends_advance _ b').bind (.pure true _)

theorem mirrors_run (p : Char → Bool) : Mirrors (run p) (Cursor.run p) := by
  intro b c h
  obtain ⟨b', hskip, h'⟩ := mirrors_skipBlanks b c h
  have hsplit : c.skipBlanks.rest =
      c.skipBlanks.rest.takeWhile p ++ c.skipBlanks.rest.dropWhile p :=
    List.takeWhile_append_dropWhile.symm
  refine ⟨_, hskip.bind (h'.ends_remaining.bind ?_), h'.advance hsplit⟩
  rw [findChar?_getD]
  exact (ends_advance _ b').bind ((ends_cut hsplit _).bind (.pure _ _))

theorem mirrors_someRun (p : Char → Bool) (what : String) :
    Mirrors (someRun p what) (Cursor.someRun p what) := by
  intro b c h
  obtain ⟨b', hrun, h'⟩ := mirrors_run p b c h
  unfold Cursor.someRun
  dsimp only
  cases hnone : (c.run p).1.isEmpty with
  | true =>
    refine ⟨b', hrun.bind ?_, h'⟩
    rw [hnone]
    exact h'.ends_fail what
  | false =>
    refine ⟨b', hrun.bind ?_, h'⟩
    rw [hnone]
    exact .pure _ b'

theorem mirrors_chars (p : Char → Bool) : Mirrors (chars p) (Cursor.chars p) :=
  (mirrors_someRun p "characters from the expected set").map (·.map String.ofList)

theorem mirrors_upToChars (stop : Char → Bool) :
    Mirrors (upToChars stop) (Cursor.upToChars stop) :=
  (mirrors_someRun (!stop ·) "text before the delimiter").map
    (·.map fun cs => String.ofList (trimEnd cs))

theorem mirrors_identifier : Mirrors identifier Cursor.identifier :=
  (mirrors_someRun isIdentifierChar "an identifier").map (·.map String.ofList)

theorem mirrors_upTo (delimiter : String) : Mirrors (upTo delimiter) (Cursor.upTo delimiter) := by
  intro b c h
  obtain ⟨b', hskip, h'⟩ := mirrors_skipBlanks b c h
  have hsplit := (before_append_drop delimiter.toList c.skipBlanks.rest).symm
  unfold Cursor.upTo
  dsimp only
  by_cases hnone : before delimiter.toList c.skipBlanks.rest = []
  · rw [if_pos (List.isEmpty_iff.mpr hnone)]
    refine ⟨b', hskip.bind (h'.ends_remaining.bind ?_), h'⟩
    dsimp only
    rw [findText?_getD, if_pos (byteLength_eq_zero_iff.mpr hnone)]
    exact h'.ends_fail _
  · rw [if_neg (mt List.isEmpty_iff.mp hnone)]
    refine ⟨_, hskip.bind (h'.ends_remaining.bind ?_), h'.advance hsplit⟩
    dsimp only
    rw [findText?_getD, if_neg (mt byteLength_eq_zero_iff.mp hnone)]
    exact (ends_advance _ b').bind ((ends_cut hsplit _).bind (.pure _ _))

theorem mirrors_remainder : Mirrors remainder Cursor.remainder := by
  intro b c h
  refine ⟨_, h.ends_remaining.bind ((ends_get b).bind ((ends_goTo _ b).bind (.pure _ _))), ?_⟩
  rw [h.byteLength_text]
  exact h.advance (List.append_nil _).symm

/-! ## Booleans and numbers -/

theorem mirrors_flag : Mirrors flag Cursor.flag := by
  intro b c h
  obtain ⟨b', hword, h'⟩ := mirrors_someRun (!isBlank ·) "Bool" b c h
  unfold Cursor.flag
  rcases hrun : Cursor.someRun (!isBlank ·) "Bool" c with ⟨e | word, c'⟩
  · rw [hrun] at hword h'
    exact ⟨b', hword.bind (.pure _ b'), h'⟩
  · rw [hrun] at hword h'
    dsimp only
    cases htruth : Cursor.truth?
        ((word.dropWhile fun x => x == '+' || x == '-').dropWhile (· == '0')) with
    | some v =>
      refine ⟨b', hword.bind ?_, h'⟩
      dsimp only
      rw [htruth]
      exact .pure _ b'
    | none =>
      refine ⟨b', hword.bind ?_, h'⟩
      dsimp only
      rw [htruth]
      exact h'.ends_fail "Bool"

theorem mirrors_number : Mirrors number Cursor.number := by
  intro b c h
  obtain ⟨b', hrun, h'⟩ := mirrors_run Cursor.isNumberChar b c h
  have htest : Decimal.isNumeral (c.run Cursor.isNumberChar).1 = true ↔
      (Decimal.read? (c.run Cursor.isNumberChar).1).isSome = true :=
    Decimal.isNumeral_iff.trans Decimal.isSome_read?_iff.symm
  unfold Cursor.number
  dsimp only
  cases hread : Decimal.read? (c.run Cursor.isNumberChar).1 with
  | some d =>
    refine ⟨b', (ends_get b).bind (hrun.bind ?_), h'⟩
    rw [hread] at htest
    rw [if_pos (htest.mpr rfl), hread]
    exact .pure _ b'
  | none =>
    rw [hread] at htest
    -- going back to where it began leaves the cursor as it was
    have hback : { b' with pos := b.pos } = b := by
      obtain ⟨text, pos, line⟩ := b
      obtain ⟨text', pos', line'⟩ := b'
      obtain rfl : text = text' := h.text.symm.trans h'.text
      obtain rfl : line = line' := h.line.symm.trans h'.line
      rfl
    refine ⟨b, (ends_get b).bind (hrun.bind ?_), h⟩
    rw [if_neg (mt htest.mp Bool.false_ne_true)]
    refine (ends_goTo b.pos b').bind ?_
    rw [hback]
    exact h.ends_fail "number"

/-- A sign that is taken off the front is one byte long. -/
theorem exists_sign (cs : List Char) : ∃ sign, cs = sign ++ (Cursor.signOf cs).2 ∧
    byteLength sign = (if cs.head? = some '-' ∨ cs.head? = some '+' then 1 else 0) ∧
    ∀ digits, digits ≠ [] → (∀ d ∈ digits, isDigit d = true) →
      Cursor.signOf (sign ++ digits) = ((Cursor.signOf cs).1, digits) := by
  unfold Cursor.signOf
  split
  · exact ⟨['-'], rfl, rfl, fun _ _ _ => rfl⟩
  · exact ⟨['+'], rfl, rfl, fun _ _ _ => rfl⟩
  · rename_i hminus hplus
    refine ⟨[], rfl, ?_, fun digits hsome hdigits => ?_⟩
    · rw [if_neg]
      · rfl
      · rintro (hhead | hhead) <;> obtain ⟨tail, rfl⟩ := List.head?_eq_some_iff.mp hhead
        · exact hminus tail rfl
        · exact hplus tail rfl
    · obtain ⟨d, rest, rfl⟩ := List.exists_cons_of_ne_nil hsome
      have hd := hdigits d List.mem_cons_self
      exact Cursor.signOf_of_ne (by rintro rfl; exact absurd hd (by decide))
        (by rintro rfl; exact absurd hd (by decide)) rest

/-- Digits behind a sign are read, and passed over even if there are too many. -/
theorem mirrors_wholeOf (h : Shows b c) {sign digits left : List Char} {negative : Bool}
    (hrest : c.rest = sign ++ digits ++ left)
    (hread : Cursor.signOf (sign ++ digits) = (negative, digits)) : ∃ b',
      (wholeOf b.pos c.rest (byteLength sign + byteLength digits)).Ends b
        (if Cursor.inRange (Cursor.signed negative (digitsValue digits)) then
          .ok (Cursor.signed negative (digitsValue digits))
        else .error (c.expected "integer")) b' ∧
      Shows b' { c with rest := left } := by
  have hshows := h.advance hrest
  refine ⟨_, ?_, hshows⟩
  rw [← byteLength_append]
  refine (ends_cut hrest b).bind ((ends_goTo _ b).bind ?_)
  have hvalue : wholeOf? (sign ++ digits) =
      if Cursor.inRange (Cursor.signed negative (digitsValue digits)) then
        some (Cursor.signed negative (digitsValue digits)) else none := by
    rw [wholeOf?, hread]
    rfl
  rw [hvalue]
  cases Cursor.inRange (Cursor.signed negative (digitsValue digits)) with
  | true => exact .pure _ _
  | false => exact hshows.ends_fail "integer"

theorem mirrors_whole : Mirrors whole Cursor.whole := by
  intro b c h
  obtain ⟨b', hskip, h'⟩ := mirrors_skipBlanks b c h
  obtain ⟨sign, hsign, hbytes, hread⟩ := exists_sign c.skipBlanks.rest
  unfold Cursor.whole
  dsimp only
  rcases hparts : Cursor.signOf c.skipBlanks.rest with ⟨negative, unsigned⟩
  rw [hparts] at hsign hread
  have hdigits : (findChar? (!isDigit ·) unsigned).getD
      (byteLength c.skipBlanks.rest - byteLength sign) =
        byteLength (unsigned.takeWhile isDigit) := by
    rw [← findChar?_getD, hsign, byteLength_append, Nat.add_sub_cancel_left]
  have hall : ∀ d ∈ unsigned.takeWhile isDigit, isDigit d = true :=
    fun _ => List.mem_takeWhile_imp
  by_cases hnone : unsigned.takeWhile isDigit = []
  · refine ⟨b', hskip.bind ((ends_get b').bind (h'.ends_remaining.bind ?_)), ?_⟩
    · dsimp only
      rw [← hbytes]
      refine (ends_cut hsign b').bind ?_
      dsimp only
      rw [hdigits, if_pos (byteLength_eq_zero_iff.mpr hnone), if_pos (List.isEmpty_iff.mpr hnone)]
      exact h'.ends_fail "integer"
    · rw [if_pos (List.isEmpty_iff.mpr hnone)]
      exact h'
  · have hrest : c.skipBlanks.rest =
        sign ++ unsigned.takeWhile isDigit ++ unsigned.dropWhile isDigit := by
      rw [List.append_assoc, List.takeWhile_append_dropWhile]
      exact hsign
    obtain ⟨b'', hends, h''⟩ := mirrors_wholeOf h' hrest (hread _ hnone hall)
    -- in range or not, the digits are passed over
    have hpair : ∀ (q : Bool) (r r' : Except Error Int) (c' : Cursor),
        (if q then (r, c') else (r', c')) = (if q then r else r', c') := by
      intro q r r' c'
      cases q <;> rfl
    rw [if_neg (mt List.isEmpty_iff.mp hnone), hpair]
    refine ⟨b'', hskip.bind ((ends_get b').bind (h'.ends_remaining.bind ?_)), ?_⟩
    · dsimp only
      rw [← hbytes]
      refine (ends_cut hsign b').bind ?_
      dsimp only
      rw [hdigits, if_neg (mt byteLength_eq_zero_iff.mp hnone)]
      exact hends
    · exact h''

/-! ## All that a cursor shows -/

/-- The text, the line, and what is left. -/
def view : Scanning Cursor := do
  let b ← get
  let rest ← remaining
  return ⟨b.text, rest, b.line⟩

theorem mirrors_view : Mirrors view fun c => (c, c) := by
  intro b c h
  have hview : (⟨b.text, c.rest, b.line⟩ : Cursor) = c := by
    rw [← h.text, ← h.line]
  refine ⟨b, (ends_get b).bind (h.ends_remaining.bind ?_), h⟩
  rw [hview]
  exact .pure c b

end ByteCursor

end ViewSheet
