/-
  Looping: scans that are put together, and lists of whatever is put together.

  1. **Program**: a list reads items round after round (`round`, `itemsFrom`).  An item is any scan,
     and may take nothing; then a list may never end.

  2. **Specification**: `Scanning.Composed` are all scans that can be put together from the
     operations of a cursor: what comes next may depend on what came of the operations before and on
     all that the cursor shows, and each of these scans may be the item of a list.  `Scanning.Sound`
     says that no run stops in the middle, and that one which ends has not moved back.  `Loop` are
     the rounds of a list one after the other.

  3. **The crux** (`Scanning.Sound.items`): a list of sound items is sound, by induction on the
     bytes that are left.  For such items a round that takes nothing leaves the cursor where it was,
     and so a list gives exactly what its loop comes to (`ends_items_iff`).

  4. **Result** (`Scanning.Composed.sound`, `Twins.mirrors`): every scan that is put together is
     sound; and if the items of its lists take something, then it comes to an end, with what is read
     by the scan that is put together in the same way from the operations by characters.
-/
import ViewSheet.Proofs.Advancing
import ViewSheet.Proofs.Offsets

namespace ViewSheet

open Text

namespace Cursor

/-! ## Nothing moves back -/

theorem forward_upTo (delimiter : String) : Scan.Forward (upTo delimiter) := by
  intro c
  have hblanks := behind_skipBlanks c
  unfold upTo
  dsimp only
  split
  · exact hblanks
  · exact ⟨rfl, rfl, (List.drop_suffix _ _).trans hblanks.2.2⟩

theorem forward_flag : Scan.Forward flag := by
  refine (forward_someRun (!isBlank ·) "Bool").andThen (fun c e c' h => ?_) fun c word c' h => ?_
  · rw [flag, h]
  · rw [flag, h]
    dsimp only
    split <;> exact .refl c'

theorem forward_whole : Scan.Forward whole := by
  intro c
  have hblanks := behind_skipBlanks c
  have hdigits : Behind c { c with rest := (signOf c.skipBlanks.rest).2.dropWhile isDigit } :=
    ⟨rfl, rfl, (List.dropWhile_suffix _).trans ((signOf_suffix _).trans hblanks.2.2)⟩
  unfold whole
  dsimp only
  split
  · exact hblanks
  -- with either sign, and in range or not, the digits are passed over
  · split <;> split <;> exact hdigits

end Cursor

/-! ## Sound scans -/

/-- What a run has come to: it goes on for ever, or it has ended between two characters, no farther
    back than it began.  It has not stopped in the middle. -/
def Scanning.Fine {β : Type} (c : Cursor) : Option (Except Panic (β × ByteCursor)) → Prop
  | none => True
  | some (.error _) => False
  | some (.ok (_, b')) => ∃ c', ByteCursor.Shows b' c' ∧ Cursor.Behind c c'

/-- What is fine from a cursor on is fine from any that it is behind. -/
theorem Scanning.Fine.back {β : Type} {c c' : Cursor}
    {run : Option (Except Panic (β × ByteCursor))} (h : Scanning.Fine c' run)
    (hbehind : Cursor.Behind c c') : Scanning.Fine c run := by
  rcases run with _ | _ | ⟨x, b⟩
  · trivial
  · exact h
  · obtain ⟨c'', h'', hfurther⟩ := h
    exact ⟨c'', h'', hbehind.trans hfurther⟩

/-- From between two characters every run is fine. -/
def Scanning.Sound {β : Type} (m : Scanning β) : Prop :=
  ∀ b c, ByteCursor.Shows b c → Scanning.Fine c (m.run b).run

namespace Scanning.Sound

open ByteCursor

variable {β γ : Type}

/-- An operation that mirrors another one which does not move back. -/
theorem of_mirrors {m : Scanning β} {f : Cursor → β × Cursor} (hm : Mirrors m f)
    (hforward : ∀ c, Cursor.Behind c (f c).2) : m.Sound := by
  intro b c h
  obtain ⟨b', hends, h'⟩ := hm b c h
  rw [show (m.run b).run = _ from hends]
  exact ⟨_, h', hforward c⟩

theorem pure (x : β) : (Pure.pure x : Scanning β).Sound := of_mirrors (.pure x) Cursor.Behind.refl

theorem fail {α : Type} (what : String) :
    (ByteCursor.fail what : Scanning (Except Error α)).Sound :=
  of_mirrors (.fail what) Cursor.Behind.refl

theorem literal (mark : List Char) : (ByteCursor.literal mark).Sound :=
  of_mirrors (mirrors_literal mark) (Cursor.behind_literal mark)

theorem bind {m : Scanning β} {k : β → Scanning γ} (hm : m.Sound) (hk : ∀ x, (k x).Sound) :
    (m >>= k).Sound := by
  intro b c h
  have hfirst := hm b c h
  rw [StateT.run_bind, ExceptT.run_bind]
  revert hfirst
  rcases (m.run b).run with _ | _ | ⟨x, b'⟩
  · exact fun _ => trivial
  · exact False.elim
  · rintro ⟨c', h', hbehind⟩
    exact (hk x b' c' h').back hbehind

theorem ite {q : Prop} [Decidable q] {m k : Scanning β} (hm : m.Sound) (hk : k.Sound) :
    (if q then m else k).Sound := by
  split
  · exact hm
  · exact hk

theorem round {α : Type} {item : Scanning (Except Error α)} (hitem : item.Sound)
    (close : List Char) : (ByteCursor.round close item).Sound := by
  refine bind (of_mirrors mirrors_atEnd Cursor.behind_skipBlanks) fun ended => ?_
  refine ite (ite (pure _) (bind (fail _) fun _ => pure _)) ?_
  refine bind (ite (pure false) (literal close)) fun closed => ite (pure _) (bind hitem fun r => ?_)
  cases r with
  | error e => exact pure _
  | ok a => exact bind (literal [',']) fun _ => pure _

/-- **A list of sound items is sound**, whether or not it ends. -/
theorem items {α : Type} {item : Scanning (Except Error α)} (hitem : item.Sound)
    (close : List Char) : (ByteCursor.items close item).Sound := by
  intro b
  induction hleft : b.left using Nat.strong_induction_on generalizing b with
  | _ n ih =>
    intro c h
    have hround := round hitem close b c h
    show Fine c (itemsFrom close item b)
    rw [itemsFrom]
    revert hround
    rcases ((ByteCursor.round close item).run b).run with _ | _ | ⟨r | a, b'⟩
    · exact fun _ => trivial
    · exact False.elim
    · exact id
    · rintro ⟨c', h', hbehind⟩
      show Fine c (if b'.left < b.left then _ else none)
      split
      · rename_i hless
        have hmore : Fine c' (itemsFrom close item b') := ih _ (hleft ▸ hless) b' rfl c' h'
        have hback := hmore.back hbehind
        revert hback
        rcases itemsFrom close item b' with _ | _ | ⟨r, b''⟩ <;> exact id
      · trivial

theorem bracketed {α : Type} {item : Scanning (Except Error α)} (hitem : item.Sound)
    (opening close : List Char) : (ByteCursor.bracketed opening close item).Sound :=
  bind (ite (pure true) (literal opening)) fun _ => ite (items hitem close) (fail _)

end Scanning.Sound

namespace ByteCursor

open Scanning

variable {b b' : ByteCursor} {c c' : Cursor}

/-! ## The loop over a list -/

section
variable {α : Type} {item : Scanning (Except Error α)} {f : Scan α} {close : List Char}

/-- The rounds of a list from a cursor on: what they come to, and where they leave the cursor. -/
inductive Loop (close : List Char) (item : Scanning (Except Error α)) :
    ByteCursor → Except Error (List α) → ByteCursor → Prop
  /-- The last round. -/
  | last {b b' : ByteCursor} {r : Except Error (List α)}
      (hround : (round close item).Ends b (.last r) b') : Loop close item b r b'
  /-- A round that reads an item, and more rounds. -/
  | item {b b' b'' : ByteCursor} {a : α} {r : Except Error (List α)}
      (hround : (round close item).Ends b (.item a) b') (hrest : Loop close item b' r b'') :
      Loop close item b (r.map (a :: ·)) b''

/-- A cursor that has not moved back, and has no fewer bytes left, has not moved at all. -/
theorem eq_of_left_le (h : Shows b c) (h' : Shows b' c') (hbehind : Cursor.Behind c c')
    (hleft : b.left ≤ b'.left) : b' = b := by
  obtain ⟨htext, hline, passed, hpassed⟩ := hbehind
  have hbytes := h.byteLength_text
  have hbytes' := h'.byteLength_text
  rw [left, left] at hleft
  rw [← hpassed, byteLength_append] at hbytes
  obtain rfl : passed = [] := byteLength_eq_zero_iff.mp (by omega)
  obtain rfl : c' = c := by
    obtain ⟨text, rest, line⟩ := c
    obtain ⟨text', rest', line'⟩ := c'
    subst htext hline hpassed
    rfl
  exact h'.eq h

/-- What a list gives its loop comes to. -/
theorem loop_of_ends {r : Except Error (List α)} (hends : (items close item).Ends b r b') :
    Loop close item b r b' := by
  induction hleft : b.left using Nat.strong_induction_on generalizing b r with
  | _ n ih =>
    change itemsFrom close item b = some (.ok (r, b')) at hends
    rw [itemsFrom] at hends
    obtain ⟨x, hround, hends⟩ := Option.bind_eq_some_iff.mp hends
    rcases x with _ | ⟨r' | a, b₁⟩
    · cases hends
    · cases hends
      exact .last hround
    · change (if b₁.left < b.left then _ else none) = _ at hends
      split at hends
      · rename_i hless
        obtain ⟨x, hrest, hends⟩ := Option.bind_eq_some_iff.mp hends
        rcases x with _ | ⟨r', b₂⟩
        · cases hends
        · cases hends
          exact .item hround (ih _ (hleft ▸ hless) hrest rfl)
      · cases hends

/-- **A list of sound items gives exactly what its loop comes to.** -/
theorem ends_items_iff (hitem : item.Sound) {r : Except Error (List α)} (h : Shows b c) :
    (items close item).Ends b r b' ↔ Loop close item b r b' := by
  refine ⟨loop_of_ends, fun hloop => ?_⟩
  induction hloop generalizing c with
  | @last b b' r hround =>
    show itemsFrom close item b = _
    rw [itemsFrom]
    exact Option.bind_eq_some_iff.mpr ⟨_, hround, rfl⟩
  | @item b b₁ b' a r hround hrest ih =>
    have hfine := Sound.round hitem close b c h
    rw [show ((round close item).run b).run = _ from hround] at hfine
    obtain ⟨c₁, h₁, hbehind⟩ := hfine
    have hmore : itemsFrom close item b₁ = some (.ok (r, b')) := ih h₁
    show itemsFrom close item b = _
    rw [itemsFrom]
    refine Option.bind_eq_some_iff.mpr ⟨_, hround, ?_⟩
    show (if b₁.left < b.left then _ else none) = _
    by_cases hless : b₁.left < b.left
    · rw [if_pos hless]
      exact Option.bind_eq_some_iff.mpr ⟨_, hmore, rfl⟩
    · -- the round would come again, and so the rest of the loop would not end either
      obtain rfl := eq_of_left_le h h₁ hbehind (Nat.le_of_not_lt hless)
      rw [itemsFrom] at hmore
      obtain ⟨x, hround', hmore⟩ := Option.bind_eq_some_iff.mp hmore
      obtain rfl := Option.some.inj (hround.symm.trans hround')
      change (if b₁.left < b₁.left then _ else none) = _ at hmore
      rw [if_neg hless] at hmore
      cases hmore

/-! ## Lists that mirror each other -/

theorem closes_of_ne_nil (h : close ≠ []) : closes close = literal close := by
  rw [closes, if_neg (mt List.isEmpty_iff.mp h)]

/-- A closing mark that does not come next, or is not asked for, leaves the cursor where it is. -/
theorem ends_closes_false (h : Shows b c.atEnd.2)
    (hmark : close ≠ [] → (c.atEnd.2.literal close).1 = false) : (closes close).Ends b false b := by
  by_cases hclose : close = []
  · rw [closes, if_pos (List.isEmpty_iff.mpr hclose)]
    exact .pure false b
  · obtain ⟨b', hends, h'⟩ := mirrors_literal close b _ h
    have hstays : (c.atEnd.2.literal close).2 = c.atEnd.2 := by
      rw [Cursor.literal_of_not_found (hmark hclose)]
      exact c.skipBlanks_skipBlanks
    rw [hstays] at h'
    rw [closes_of_ne_nil hclose]
    rw [hmark hclose, h'.eq h] at hends
    exact hends

/-- The rounds by characters are rounds by bytes.  This holds of any item, also of one that may take
    nothing. -/
theorem loop_of_rounds (hitem : Mirrors item f) {c : Cursor} {r : Except Error (List α) × Cursor}
    (h : Rounds close f c r) : ∀ b, Shows b c → ∃ b', Loop close item b r.1 b' ∧ Shows b' r.2 := by
  induction h with
  | @ended c hend hclose =>
    intro b h
    obtain ⟨b', hatEnd, h'⟩ := mirrors_atEnd b c h
    rw [hend] at hatEnd
    refine ⟨b', Loop.last (hatEnd.bind ?_), h'⟩
    rw [if_pos rfl, if_pos (List.isEmpty_iff.mpr hclose)]
    exact .pure _ b'
  | @unclosed c hend hclose =>
    intro b h
    obtain ⟨b', hatEnd, h'⟩ := mirrors_atEnd b c h
    rw [hend] at hatEnd
    refine ⟨b', Loop.last (hatEnd.bind ?_), h'⟩
    rw [if_pos rfl, if_neg (mt List.isEmpty_iff.mp hclose)]
    exact (h'.ends_fail _).bind (.pure _ b')
  | @closed c hmore hclose hmark =>
    intro b h
    obtain ⟨b', hatEnd, h'⟩ := mirrors_atEnd b c h
    obtain ⟨b'', hcloses, h''⟩ := mirrors_literal close b' _ h'
    rw [hmore] at hatEnd
    rw [hmark, ← closes_of_ne_nil hclose] at hcloses
    refine ⟨b'', Loop.last (hatEnd.bind ?_), h''⟩
    rw [if_neg Bool.false_ne_true]
    refine hcloses.bind ?_
    rw [if_pos rfl]
    exact .pure _ b''
  | @failed c after e hmore hmark hread =>
    intro b h
    obtain ⟨b', hatEnd, h'⟩ := mirrors_atEnd b c h
    obtain ⟨b'', hends, h''⟩ := hitem b' _ h'
    rw [hmore] at hatEnd
    rw [hread] at hends h''
    refine ⟨b'', Loop.last (hatEnd.bind ?_), h''⟩
    rw [if_neg Bool.false_ne_true]
    refine (ends_closes_false h' hmark).bind ?_
    rw [if_neg Bool.false_ne_true]
    exact hends.bind (.pure _ b'')
  | @round c after a r hmore hmark hread hrest ih =>
    intro b h
    obtain ⟨b', hatEnd, h'⟩ := mirrors_atEnd b c h
    obtain ⟨b₁, hends, h₁⟩ := hitem b' _ h'
    rw [hmore] at hatEnd
    rw [hread] at hends h₁
    obtain ⟨b₂, hcomma, h₂⟩ := mirrors_literal [','] b₁ after h₁
    obtain ⟨b₃, hmany, h₃⟩ := ih b₂ h₂
    refine ⟨b₃, Loop.item (hatEnd.bind ?_) hmany, h₃⟩
    rw [if_neg Bool.false_ne_true]
    refine (ends_closes_false h' hmark).bind ?_
    rw [if_neg Bool.false_ne_true]
    exact hends.bind (hcomma.bind (.pure _ b₂))

theorem mirrors_items (hitem : Mirrors item f) (hsound : item.Sound) (hadvances : f.Advances)
    (close : List Char) : Mirrors (items close item) (Cursor.items close f hadvances) := by
  intro b c h
  obtain ⟨b', hloop, h'⟩ := loop_of_rounds hitem (Cursor.rounds_items hadvances close c) b h
  exact ⟨b', (ends_items_iff hsound h).mpr hloop, h'⟩

theorem mirrors_bracketed (hitem : Mirrors item f) (hsound : item.Sound) (hadvances : f.Advances)
    (opening close : List Char) :
    Mirrors (bracketed opening close item) (Cursor.bracketed opening close f hadvances) := by
  intro b c h
  rw [Cursor.bracketed_eq]
  by_cases hopening : opening = []
  · rw [if_pos hopening]
    obtain ⟨b', hends, h'⟩ := mirrors_items hitem hsound hadvances close b c h
    refine ⟨b', ?_, h'⟩
    rw [bracketed, if_pos (List.isEmpty_iff.mpr hopening)]
    refine (Ends.pure true b).bind ?_
    rw [if_pos rfl]
    exact hends
  · rw [if_neg hopening]
    obtain ⟨b', hmark, h'⟩ := mirrors_literal opening b c h
    rw [bracketed, if_neg (mt List.isEmpty_iff.mp hopening)]
    cases hfound : (c.literal opening).1 with
    | true =>
      rw [hfound] at hmark
      obtain ⟨b'', hends, h''⟩ := mirrors_items hitem hsound hadvances close b' _ h'
      refine ⟨b'', hmark.bind ?_, h''⟩
      rw [if_pos rfl]
      exact hends
    | false =>
      rw [hfound] at hmark
      -- the complaint shows the text, whether or not blanks were passed over
      obtain ⟨htext, hline, -⟩ := Cursor.behind_literal opening c
      refine ⟨b', hmark.bind ?_, h'⟩
      show (fail _ : Scanning (Except Error (List α))).Ends b' (.error (c.expected _)) b'
      rw [Cursor.expected, ← htext, ← hline]
      exact h'.ends_fail _

end

end ByteCursor

/-! ## Scans put together -/

/-- The scan is put together from the operations of a cursor. -/
inductive Scanning.Composed : {β : Type} → Scanning β → Prop where
  /-- No operation at all. -/
  | give {β : Type} (x : β) : Composed (pure x)
  /-- One scan after the other.  Which one is the second depends on what came of the first. -/
  | andThen {β γ : Type} {m : Scanning β} {k : β → Scanning γ} (hfirst : Composed m)
      (hnext : ∀ x, Composed (k x)) : Composed (m >>= k)
  /-- What the cursor shows: its text, its line, and what is left. -/
  | view : Composed ByteCursor.view
  | atEnd : Composed ByteCursor.atEnd
  | literal (mark : List Char) : Composed (ByteCursor.literal mark)
  | chars (p : Char → Bool) : Composed (ByteCursor.chars p)
  | upToChars (stop : Char → Bool) : Composed (ByteCursor.upToChars stop)
  | upTo (delimiter : String) : Composed (ByteCursor.upTo delimiter)
  | identifier : Composed ByteCursor.identifier
  | remainder : Composed ByteCursor.remainder
  | flag : Composed ByteCursor.flag
  | number : Composed ByteCursor.number
  | whole : Composed ByteCursor.whole
  | list {α : Type} {item : Scanning (Except Error α)} (hitem : Composed item) :
      Composed (ByteCursor.list item)
  | bracketed {α : Type} {item : Scanning (Except Error α)} (hitem : Composed item)
      (opening close : List Char) : Composed (ByteCursor.bracketed opening close item)

open ByteCursor in
/-- **No scan that is put together stops in the middle or moves back.** -/
theorem Scanning.Composed.sound {β : Type} {m : Scanning β} (h : m.Composed) : m.Sound := by
  induction h with
  | give x => exact .pure x
  | andThen _ _ ihfirst ihnext => exact ihfirst.bind ihnext
  | view => exact .of_mirrors mirrors_view Cursor.Behind.refl
  | atEnd => exact .of_mirrors mirrors_atEnd Cursor.behind_skipBlanks
  | literal mark => exact .literal mark
  | chars p =>
    exact .of_mirrors (mirrors_chars p)
      (Cursor.forward_someRun p "characters from the expected set")
  | upToChars stop => exact .of_mirrors (mirrors_upToChars stop) (Cursor.forward_upToChars stop)
  | upTo delimiter => exact .of_mirrors (mirrors_upTo delimiter) (Cursor.forward_upTo delimiter)
  | identifier =>
    exact .of_mirrors mirrors_identifier (Cursor.forward_someRun isIdentifierChar "an identifier")
  | remainder => exact .of_mirrors mirrors_remainder fun _ => ⟨rfl, rfl, List.nil_suffix⟩
  | flag => exact .of_mirrors mirrors_flag Cursor.forward_flag
  | number => exact .of_mirrors mirrors_number Cursor.forward_number
  | whole => exact .of_mirrors mirrors_whole Cursor.forward_whole
  | list _ ih => exact .items ih []
  | bracketed _ opening close ih => exact .bracketed ih opening close

open ByteCursor in
/-- A scan is put together from the operations of a cursor by bytes, and another in the same way
    from those of a cursor by characters.  What comes next may depend on what came of the operations
    before and on all that the cursor shows, and each of these scans may be the item of a list. -/
inductive Twins : {β : Type} → Scanning β → (Cursor → β × Cursor) → Prop where
  /-- No operation at all. -/
  | give {β : Type} (x : β) : Twins (pure x) fun c => (x, c)
  /-- One scan after the other. -/
  | andThen {β γ : Type} {m : Scanning β} {f : Cursor → β × Cursor} {k : β → Scanning γ}
      {g : β → Cursor → γ × Cursor} (hfirst : Twins m f) (hnext : ∀ x, Twins (k x) (g x)) :
      Twins (m >>= k) fun c => g (f c).1 (f c).2
  | view : Twins view fun c => (c, c)
  | atEnd : Twins atEnd Cursor.atEnd
  | literal (mark : List Char) : Twins (literal mark) (Cursor.literal mark)
  | chars (p : Char → Bool) : Twins (chars p) (Cursor.chars p)
  | upToChars (stop : Char → Bool) : Twins (upToChars stop) (Cursor.upToChars stop)
  | upTo (delimiter : String) : Twins (upTo delimiter) (Cursor.upTo delimiter)
  | identifier : Twins identifier Cursor.identifier
  | remainder : Twins remainder Cursor.remainder
  | flag : Twins flag Cursor.flag
  | number : Twins number Cursor.number
  | whole : Twins whole Cursor.whole
  | list {α : Type} {item : Scanning (Except Error α)} {f : Scan α} (hitem : Twins item f)
      (hadvances : f.Advances) : Twins (list item) (Cursor.list f hadvances)
  | bracketed {α : Type} {item : Scanning (Except Error α)} {f : Scan α} (hitem : Twins item f)
      (hadvances : f.Advances) (opening close : List Char) :
      Twins (bracketed opening close item) (Cursor.bracketed opening close f hadvances)

theorem Twins.composed {β : Type} {m : Scanning β} {f : Cursor → β × Cursor} (h : Twins m f) :
    m.Composed := by
  induction h with
  | give x => exact .give x
  | andThen _ _ ihfirst ihnext => exact .andThen ihfirst ihnext
  | view => exact .view
  | atEnd => exact .atEnd
  | literal mark => exact .literal mark
  | chars p => exact .chars p
  | upToChars stop => exact .upToChars stop
  | upTo delimiter => exact .upTo delimiter
  | identifier => exact .identifier
  | remainder => exact .remainder
  | flag => exact .flag
  | number => exact .number
  | whole => exact .whole
  | list _ _ ih => exact .list ih
  | bracketed _ _ opening close ih => exact .bracketed ih opening close

/-- **Scans that are put together in the same way read the same**, whichever way the cursor
    counts. -/
theorem Twins.mirrors {β : Type} {m : Scanning β} {f : Cursor → β × Cursor} (h : Twins m f) :
    ByteCursor.Mirrors m f := by
  induction h with
  | give x => exact .pure x
  | andThen _ _ ihfirst ihnext => exact ihfirst.bind ihnext
  | view => exact ByteCursor.mirrors_view
  | atEnd => exact ByteCursor.mirrors_atEnd
  | literal mark => exact ByteCursor.mirrors_literal mark
  | chars p => exact ByteCursor.mirrors_chars p
  | upToChars stop => exact ByteCursor.mirrors_upToChars stop
  | upTo delimiter => exact ByteCursor.mirrors_upTo delimiter
  | identifier => exact ByteCursor.mirrors_identifier
  | remainder => exact ByteCursor.mirrors_remainder
  | flag => exact ByteCursor.mirrors_flag
  | number => exact ByteCursor.mirrors_number
  | whole => exact ByteCursor.mirrors_whole
  | list hitem hadvances ih =>
    exact ByteCursor.mirrors_items ih hitem.composed.sound hadvances []
  | bracketed hitem hadvances opening close ih =>
    exact ByteCursor.mirrors_bracketed ih hitem.composed.sound hadvances opening close

end ViewSheet
