/-
  Advancing: why the reading of a list ends.

  1. **Program**: a list is read in rounds, each with one item and perhaps a comma.  Nothing counts
     the rounds: they end with the text, with the closing mark, or with an item that fails.

  2. **Specification**: `Rounds` says what the rounds come to, one after the other and however many
     there are.  An item that took nothing could be read for ever, and then the rounds come to
     nothing at all.

  3. **The crux** (`ValueScan.advances`): no scan moves back (`Scan.Forward`), and every scan of a
     value that succeeds before the end of the text takes a character (`Scan.Advances`).

  4. **Result** (`lists_end`): with any of these scans as the item the rounds come to exactly one
     result, which is what `list` and `bracketed` give, and there are no more items than characters.
-/
import Mathlib.Data.List.DropRight
import ViewSheet.Reading
import ViewSheet.Proofs.Literals

namespace ViewSheet

open Text

/-! ## Scans that move on -/

/-- The scan never moves back. -/
def Scan.Forward {α : Type} (scan : Scan α) : Prop := ∀ c, Cursor.Behind c (scan c).2

namespace Scan

variable {α β : Type} {first : Scan α} {scan : Scan β}

/-- A scan that goes on where another has stopped does not move back if neither part does. -/
theorem Forward.andThen (h : first.Forward)
    (hfailed : ∀ c e c', first c = (.error e, c') → scan c = (.error e, c'))
    (hthen : ∀ c a c', first c = (.ok a, c') → Cursor.Behind c' (scan c).2) : scan.Forward := by
  intro c
  have hfirst := h c
  rcases hrun : first c with ⟨e | a, c'⟩
  · rw [hrun] at hfirst
    rw [hfailed c e c' hrun]
    exact hfirst
  · rw [hrun] at hfirst
    exact hfirst.trans (hthen c a c' hrun)

/-- A scan that goes on where another has stopped takes what the other has taken. -/
theorem Advances.andThen (h : first.Advances)
    (hfailed : ∀ c e c', first c = (.error e, c') → scan c = (.error e, c'))
    (hthen : ∀ c a c', first c = (.ok a, c') → Cursor.Behind c' (scan c).2) : scan.Advances := by
  intro c b c' hmore hscan
  rcases hrun : first c with ⟨e | a, after⟩
  · rw [hfailed c e after hrun] at hscan
    cases hscan
  · have hbehind := hthen c a after hrun
    rw [hscan] at hbehind
    exact Nat.lt_of_le_of_lt hbehind.length_le (h c a after hmore hrun)

end Scan

namespace Cursor

variable {α : Type}

/-! ## Tokens and numbers -/

theorem length_pos_of_atEnd {c : Cursor} (h : c.atEnd.1 = false) : 0 < c.rest.length :=
  Nat.lt_of_lt_of_le (List.length_pos_iff.mpr (atEnd_eq_false_iff.mp h))
    (behind_skipBlanks c).length_le

theorem literal_eq_true_iff {mark : List Char} {c c' : Cursor} : c.literal mark = (true, c') ↔
    ∃ rest, c.skipBlanks.rest = mark ++ rest ∧ c' = { c with rest } := by
  unfold literal
  constructor
  · intro h
    split at h
    · rename_i rest hrest
      exact ⟨rest, eq_append_of_stripStart? hrest, (Prod.mk.inj h).2.symm⟩
    · cases h
  · rintro ⟨rest, hrest, rfl⟩
    rw [hrest, stripStart?_append]

/-- A mark that is found is taken. -/
theorem length_literal_lt {mark : List Char} (hmark : mark ≠ []) {c c' : Cursor}
    (h : c.literal mark = (true, c')) : c'.rest.length < c.rest.length := by
  obtain ⟨rest, hrest, rfl⟩ := literal_eq_true_iff.mp h
  have hle := (behind_skipBlanks c).length_le
  rw [hrest, List.length_append] at hle
  have hpos := List.length_pos_iff.mpr hmark
  show rest.length < c.rest.length
  omega

theorem forward_someRun (p : Char → Bool) (what : String) : Scan.Forward (someRun p what) := by
  intro c
  unfold someRun
  dsimp only
  split <;> exact behind_run p c

theorem advances_someRun (p : Char → Bool) (what : String) : Scan.Advances (someRun p what) := by
  intro c cs c' _ h
  unfold someRun at h
  dsimp only at h
  split at h
  · cases h
  · rename_i hfull
    rw [← (Prod.mk.inj h).2]
    exact length_run_lt fun hnil => hfull (List.isEmpty_iff.mpr hnil)

theorem advances_flag : Scan.Advances flag := by
  refine (advances_someRun (!isBlank ·) "Bool").andThen (fun c e c' h => ?_) fun c word c' h => ?_
  · rw [flag, h]
  · rw [flag, h]
    dsimp only
    split <;> exact .refl c'

/-- The run that a number is read from is passed over with the number, and only then. -/
theorem number_cases (c : Cursor) :
    (∃ d, number c = (.ok d, (c.run isNumberChar).2) ∧ (c.run isNumberChar).1 ≠ []) ∨
      ∃ e, number c = (.error e, c) := by
  rw [number]
  dsimp only
  rcases hread : Decimal.read? (c.run isNumberChar).1 with _ | d
  · exact Or.inr ⟨_, rfl⟩
  · refine Or.inl ⟨_, rfl, ne_nil_of_isLiteral (Decimal.isSome_read?_iff.mp ?_)⟩
    rw [hread]
    rfl

theorem forward_number : Scan.Forward number := by
  intro c
  rcases number_cases c with ⟨d, h, -⟩ | ⟨e, h⟩ <;> rw [h]
  · exact behind_run isNumberChar c
  · exact .refl c

theorem forward_float : Scan.Forward float := fun c => forward_number c

theorem signOf_suffix (cs : List Char) : (signOf cs).2 <:+ cs := by
  unfold signOf
  split
  · exact List.suffix_cons _ _
  · exact List.suffix_cons _ _
  · exact List.suffix_refl _

theorem advances_whole : Scan.Advances whole := by
  intro c n c' _ h
  have hsign := (signOf_suffix c.skipBlanks.rest).length_le
  have hle := (behind_skipBlanks c).length_le
  unfold whole at h
  dsimp only at h
  split at h
  · cases h
  · rename_i hdigits
    have hlt := length_dropWhile_lt fun hnil => hdigits (List.isEmpty_iff.mpr hnil)
    split at h
    all_goals
      split at h
      · rw [← (Prod.mk.inj h).2]
        show ((signOf c.skipBlanks.rest).2.dropWhile isDigit).length < c.rest.length
        omega
      · cases h

theorem advances_identifier : Scan.Advances identifier :=
  (advances_someRun isIdentifierChar "an identifier").map String.ofList

/-- All of the text is taken, and before its end that is at least a character. -/
theorem advances_restOfText : Scan.Advances restOfText := by
  intro c s c' hmore h
  rw [restOfText, remainder] at h
  rw [← (Prod.mk.inj h).2]
  exact length_pos_of_atEnd hmore

end Cursor

/-! ## Rounds -/

section
variable {α : Type}

/-- **What the rounds of a list come to** from a cursor.  A closing mark that is empty is not looked
    for. -/
inductive Rounds (close : List Char) (item : Scan α) :
    Cursor → Except Error (List α) × Cursor → Prop
  /-- The text is at its end, which no mark has to stand before. -/
  | ended {c : Cursor} (hend : c.atEnd.1 = true) (hclose : close = []) :
      Rounds close item c (.ok [], c.atEnd.2)
  /-- The text is at its end before the closing mark. -/
  | unclosed {c : Cursor} (hend : c.atEnd.1 = true) (hclose : close ≠ []) :
      Rounds close item c
        (.error (c.expected s!"'{String.ofList close}' to close list"), c.atEnd.2)
  /-- The closing mark comes next. -/
  | closed {c : Cursor} (hmore : c.atEnd.1 = false) (hclose : close ≠ [])
      (hmark : (c.atEnd.2.literal close).1 = true) :
      Rounds close item c (.ok [], (c.atEnd.2.literal close).2)
  /-- An item comes next, and it fails. -/
  | failed {c after : Cursor} {e : Error} (hmore : c.atEnd.1 = false)
      (hmark : close ≠ [] → (c.atEnd.2.literal close).1 = false)
      (hitem : item c.atEnd.2 = (.error e, after)) : Rounds close item c (.error e, after)
  /-- An item comes next, perhaps a comma, and more rounds. -/
  | round {c after : Cursor} {a : α} {r : Except Error (List α) × Cursor}
      (hmore : c.atEnd.1 = false) (hmark : close ≠ [] → (c.atEnd.2.literal close).1 = false)
      (hitem : item c.atEnd.2 = (.ok a, after))
      (hrest : Rounds close item (after.literal [',']).2 r) :
      Rounds close item c (Cursor.followedBy a r)

/-- What a list between marks comes to: the opening mark, if it is not empty, and rounds. -/
inductive Listing (opening close : List Char) (item : Scan α) :
    Cursor → Except Error (List α) × Cursor → Prop
  /-- The opening mark does not come next. -/
  | unopened {c : Cursor} (hopening : opening ≠ []) (hmark : (c.literal opening).1 = false) :
      Listing opening close item c
        (.error (c.expected s!"'{String.ofList opening}' to open list"), (c.literal opening).2)
  /-- The opening mark comes next. -/
  | opened {c : Cursor} {r : Except Error (List α) × Cursor} (hopening : opening ≠ [])
      (hmark : (c.literal opening).1 = true)
      (hrest : Rounds close item (c.literal opening).2 r) : Listing opening close item c r
  /-- No opening mark is asked for. -/
  | unmarked {c : Cursor} {r : Except Error (List α) × Cursor} (hopening : opening = [])
      (hrest : Rounds close item c r) : Listing opening close item c r

end

namespace Cursor

section
variable {α : Type} {item : Scan α} {close : List Char}

theorem items_atEnd (hitem : item.Advances) {c : Cursor} (hend : c.atEnd.1 = true) :
    items close item hitem c =
      (if close.isEmpty then .ok []
        else .error (c.expected s!"'{String.ofList close}' to close list"), c.atEnd.2) := by
  rw [items]
  split
  · rename_i h
    rw [h]
    split <;> rfl
  · rename_i h
    rw [h] at hend
    cases hend

theorem items_closed (hitem : item.Advances) {c : Cursor} (hmore : c.atEnd.1 = false)
    (hclose : close ≠ []) (hmark : (c.atEnd.2.literal close).1 = true) :
    items close item hitem c = (.ok [], (c.atEnd.2.literal close).2) := by
  rw [items]
  split
  · rename_i h
    rw [h] at hmore
    cases hmore
  · rename_i c' h
    obtain rfl : c.atEnd.2 = c' := congrArg Prod.snd h
    rw [if_neg (by simpa using hclose)]
    split
    · rename_i h'
      rw [h']
    · rename_i h'
      rw [h'] at hmark
      cases hmark

/-- A round is one item and the rounds behind it. -/
theorem items_round (hitem : item.Advances) {c : Cursor} (hmore : c.atEnd.1 = false)
    (hmark : close ≠ [] → (c.atEnd.2.literal close).1 = false) :
    items close item hitem c = match item c.atEnd.2 with
      | (.error e, after) => (.error e, after)
      | (.ok a, after) => followedBy a (items close item hitem (after.literal [',']).2) := by
  rw [items]
  split
  · rename_i h
    rw [h] at hmore
    cases hmore
  · rename_i c' h
    obtain rfl : c.atEnd.2 = c' := congrArg Prod.snd h
    split
    · rename_i h'
      split at h'
      · cases h'
      · rename_i hclose
        have hnot := hmark fun hnil => hclose (List.isEmpty_iff.mpr hnil)
        rw [h'] at hnot
        cases hnot
    · rename_i h'
      rw [unclosed_eq h']
      rcases item c.atEnd.2 with ⟨e | a, after⟩ <;> rfl

/-- What the rounds come to is what is read. -/
theorem items_of_rounds (hitem : item.Advances) {c : Cursor}
    {r : Except Error (List α) × Cursor} (h : Rounds close item c r) :
    items close item hitem c = r := by
  induction h with
  | ended hend hclose => rw [items_atEnd hitem hend, if_pos (List.isEmpty_iff.mpr hclose)]
  | unclosed hend hclose => rw [items_atEnd hitem hend, if_neg (by simpa using hclose)]
  | closed hmore hclose hmark => exact items_closed hitem hmore hclose hmark
  | failed hmore hmark hread => rw [items_round hitem hmore hmark, hread]
  | round hmore hmark hread _ ih => rw [items_round hitem hmore hmark, hread, ← ih]

/-- **The rounds come to an end**, by induction on how much is left to read. -/
theorem rounds_items (hitem : item.Advances) (close : List Char) (c : Cursor) :
    Rounds close item c (items close item hitem c) := by
  induction hleft : c.rest.length using Nat.strongRecOn generalizing c with
  | ind left ih =>
    subst hleft
    by_cases hmore : c.atEnd.1 = false
    · by_cases hmark : close ≠ [] ∧ (c.atEnd.2.literal close).1 = true
      · rw [items_closed hitem hmore hmark.1 hmark.2]
        exact .closed hmore hmark.1 hmark.2
      · have hopen : close ≠ [] → (c.atEnd.2.literal close).1 = false :=
          fun hclose => Bool.eq_false_iff.mpr fun hfound => hmark ⟨hclose, hfound⟩
        rw [items_round hitem hmore hopen]
        rcases hrun : item c.atEnd.2 with ⟨e | a, after⟩
        · exact .failed hmore hopen hrun
        · exact .round hmore hopen hrun (ih _ (length_next_lt hitem hmore hrun) _ rfl)
    · have hend := Bool.eq_true_of_not_eq_false hmore
      rw [items_atEnd hitem hend]
      split
      · exact .ended hend (List.isEmpty_iff.mp ‹_›)
      · exact .unclosed hend fun hclose => ‹¬ _› (List.isEmpty_iff.mpr hclose)

/-- An item that takes nothing is read for ever: the rounds do not end. -/
theorem not_rounds_trimmedText {c : Cursor} {r : Except Error (List String) × Cursor}
    (hmore : c.atEnd.1 = false) (hcomma : (c.skipBlanks.literal [',']).1 = false) :
    ¬ Rounds [] trimmedText c r := by
  intro h
  induction h with
  | ended hend | unclosed hend => rw [hmore] at hend; cases hend
  | closed _ hclose => exact hclose rfl
  | failed _ _ hread => cases hread
  | @round c after a r _ _ hread _ ih =>
    have hafter : after = c.skipBlanks := (congrArg Prod.snd hread).symm
    subst hafter
    have hnext := literal_of_not_found hcomma
    rw [skipBlanks_skipBlanks] at hnext
    rw [hnext] at ih
    exact ih (atEnd_skipBlanks hmore) (by rwa [skipBlanks_skipBlanks])

theorem rounds_iff (hitem : item.Advances) {c : Cursor} {r : Except Error (List α) × Cursor} :
    Rounds close item c r ↔ r = items close item hitem c :=
  ⟨fun h => (items_of_rounds hitem h).symm, fun h => h ▸ rounds_items hitem close c⟩

/-- No more items than characters: each has taken one. -/
theorem length_le_of_rounds (hitem : item.Advances) {c : Cursor}
    {r : Except Error (List α) × Cursor} (h : Rounds close item c r) :
    ∀ as, r.1 = .ok as → as.length ≤ c.rest.length := by
  induction h with
  | ended | closed =>
    rintro _ ⟨⟩
    exact Nat.zero_le _
  | unclosed | failed => rintro _ ⟨⟩
  | round hmore hmark hread _ ih =>
    rename_i c after a r _
    rintro as has
    obtain ⟨e | rest, c'⟩ := r
    · cases has
    · rw [← Except.ok.inj has, List.length_cons]
      exact Nat.lt_of_le_of_lt (ih rest rfl) (length_next_lt hitem hmore hread)

/-- **Items in a row do not move back if no item does**, round by round. -/
theorem behind_of_rounds (hforward : item.Forward) {c : Cursor}
    {r : Except Error (List α) × Cursor} (h : Rounds close item c r) : Behind c r.2 := by
  induction h with
  | ended | unclosed => exact behind_skipBlanks _
  | closed => exact (behind_skipBlanks _).trans (behind_literal close _)
  | @failed c after e _ _ hread =>
    have hitem := hforward c.atEnd.2
    rw [hread] at hitem
    exact (behind_skipBlanks c).trans hitem
  | @round c after a r _ _ hread _ ih =>
    have hitem := hforward c.atEnd.2
    rw [hread] at hitem
    exact (((behind_skipBlanks c).trans hitem).trans (behind_literal [','] after)).trans ih

theorem forward_items (hforward : item.Forward) (hitem : item.Advances) (close : List Char) :
    Scan.Forward (items close item hitem) :=
  fun c => behind_of_rounds hforward (rounds_items hitem close c)

/-- A list between marks is its opening mark and rounds. -/
theorem bracketed_eq (hitem : item.Advances) (opening close : List Char) (c : Cursor) :
    bracketed opening close item hitem c =
      if opening = [] then items close item hitem c
      else if (c.literal opening).1 = true then items close item hitem (c.literal opening).2
      else (.error (c.expected s!"'{String.ofList opening}' to open list"),
        (c.literal opening).2) := by
  rw [bracketed]
  by_cases hopening : opening = []
  · rw [if_pos (List.isEmpty_iff.mpr hopening), if_pos hopening]
  · rw [if_neg (by simpa using hopening), if_neg hopening]
    obtain ⟨htext, hline, -⟩ := behind_literal opening c
    rcases hmark : c.literal opening with ⟨_ | _, c'⟩
    · rw [hmark] at htext hline
      dsimp only at htext hline ⊢
      rw [expected, expected, htext, hline]
      rfl
    · rfl

theorem listing_iff (hitem : item.Advances) {opening : List Char} {c : Cursor}
    {r : Except Error (List α) × Cursor} :
    Listing opening close item c r ↔ r = bracketed opening close item hitem c := by
  rw [bracketed_eq]
  constructor
  · intro h
    cases h with
    | unopened hopening hmark => rw [if_neg hopening, hmark]; rfl
    | opened hopening hmark hrest =>
      rw [if_neg hopening, if_pos hmark]
      exact (rounds_iff hitem).mp hrest
    | unmarked hopening hrest =>
      rw [if_pos hopening]
      exact (rounds_iff hitem).mp hrest
  · intro h
    split at h
    · exact .unmarked ‹_› ((rounds_iff hitem).mpr h)
    · split at h
      · exact .opened ‹_› ‹_› ((rounds_iff hitem).mpr h)
      · rw [h]
        exact .unopened ‹_› (Bool.eq_false_iff.mpr ‹_›)

theorem length_le_of_listing (hitem : item.Advances) {opening : List Char} {c : Cursor}
    {r : Except Error (List α) × Cursor} (h : Listing opening close item c r) :
    ∀ as, r.1 = .ok as → as.length ≤ c.rest.length := by
  cases h with
  | unopened => rintro _ ⟨⟩
  | opened hopening hmark hrest =>
    exact fun as has => (length_le_of_rounds hitem hrest as has).trans
      (behind_literal opening c).length_le
  | unmarked hopening hrest => exact length_le_of_rounds hitem hrest

theorem forward_bracketed (hforward : item.Forward) (hitem : item.Advances)
    (opening close : List Char) : Scan.Forward (bracketed opening close item hitem) := by
  intro c
  rw [bracketed_eq]
  have hopening := behind_literal opening c
  split
  · exact forward_items hforward hitem close c
  · split
    · exact hopening.trans (forward_items hforward hitem close _)
    · exact hopening

/-- The opening mark is taken, and nothing of it is given back. -/
theorem advances_bracketed (hforward : item.Forward) (hitem : item.Advances)
    {opening : List Char} (hopening : opening ≠ []) (close : List Char) :
    Scan.Advances (bracketed opening close item hitem) := by
  intro c as c' _ h
  rw [bracketed_eq, if_neg hopening] at h
  split at h
  · rename_i hmark
    have hbehind := forward_items hforward hitem close (c.literal opening).2
    rw [h] at hbehind
    exact Nat.lt_of_le_of_lt hbehind.length_le
      (length_literal_lt hopening (Prod.ext hmark rfl : c.literal opening = (true, _)))
  · cases h

/-- A scan that asks for a mark goes on behind it, or leaves the text to another scan. -/
theorem advances_marked {mark : List Char} (hmark : mark ≠ []) {found missing : Scan α}
    (hfound : found.Forward) (hmissing : missing.Advances) :
    Scan.Advances fun c => match c.literal mark with
      | (true, c') => found c'
      | (false, c') => missing c' := by
  intro c a c' hmore h
  dsimp only at h
  rcases hliteral : c.literal mark with ⟨_ | _, after⟩ <;> rw [hliteral] at h <;>
    dsimp only at h
  · have hafter := literal_of_not_found (congrArg Prod.fst hliteral)
    rw [hliteral] at hafter
    subst hafter
    exact Nat.lt_of_lt_of_le (hmissing _ a c' (atEnd_skipBlanks hmore) h)
      (behind_skipBlanks c).length_le
  · have hbehind := hfound after
    rw [h] at hbehind
    exact Nat.lt_of_le_of_lt hbehind.length_le (length_literal_lt hmark hliteral)

end

/-! ## Colours and geometry -/

theorem forward_colorChannels (arity : Nat) (form : String) :
    Scan.Forward (colorChannels arity form) := by
  refine (forward_bracketed forward_number advances_number ['('] [')']).andThen
    (fun c e c' h => ?_) fun c channels c' h => ?_
  · rw [colorChannels, h]
  · rw [colorChannels, h]
    dsimp only
    split <;> exact .refl c'

theorem forward_colorDigits : Scan.Forward colorDigits := by
  refine (forward_someRun isHexDigit "hex color digits").andThen (fun c e c' h => ?_)
    fun c digits c' h => ?_
  · rw [colorDigits, h]
  · rw [colorDigits, h]
    dsimp only
    split <;> exact .refl c'

theorem advances_colorName : Scan.Advances colorName := by
  refine (advances_someRun isIdentifierChar "a color").andThen (fun c e c' h => ?_)
    fun c name c' h => ?_
  · rw [colorName, h]
  · rw [colorName, h]
    dsimp only
    split <;> exact .refl c'

/-- Each form but a name takes the mark in front of it. -/
theorem advances_color : Scan.Advances color :=
  advances_marked (List.cons_ne_nil _ _) forward_colorDigits <|
    advances_marked (List.cons_ne_nil _ _) (forward_colorChannels 4 _) <|
      advances_marked (List.cons_ne_nil _ _) (forward_colorChannels 3 _) advances_colorName

theorem advances_braced {α : Type} (build : List Single → Option α) (form : String) :
    Scan.Advances (braced build form) := by
  have hopening : ['\x7b'] ≠ [] := List.cons_ne_nil _ _
  refine (advances_bracketed forward_float advances_float hopening ['\x7d']).andThen
    (fun c e c' h => ?_) fun c numbers c' h => ?_
  · rw [braced, h]
  · rw [braced, h]
    dsimp only
    split <;> exact .refl c'

/-! ## Fonts and words -/

theorem forward_upToChars (stop : Char → Bool) : Scan.Forward (upToChars stop) :=
  fun c => forward_someRun (!stop ·) "text before the delimiter" c

theorem forward_fontFamily (size : Single) : Scan.Forward (fontFamily size) := by
  refine (forward_upToChars isBlank).andThen (fun c e c' h => ?_) fun c family c' h => ?_
  · rw [fontFamily, h]
  · rw [fontFamily, h]
    dsimp only [atEnd]
    cases c'.skipBlanks.rest.isEmpty with
    | true => exact behind_skipBlanks c'
    | false => exact (behind_skipBlanks c').trans (forward_float c'.skipBlanks)

/-- A size that cannot be read is left where it is. -/
theorem forward_fontParts : Scan.Forward fontParts := by
  intro c
  have hsize := forward_float c
  unfold fontParts
  rcases hrun : float c with ⟨e | size, c'⟩
  all_goals
    rw [hrun] at hsize
    dsimp only [atEnd] at hsize ⊢
    cases c'.skipBlanks.rest.isEmpty with
    | true => exact hsize.trans (behind_skipBlanks c')
    | false => exact (hsize.trans (behind_skipBlanks c')).trans (forward_fontFamily _ c'.skipBlanks)

theorem forward_font : Scan.Forward font := by
  refine forward_fontParts.andThen (fun c e c' h => ?_) fun c f c' h => ?_
  · rw [font, h]
  · rw [font, h]
    dsimp only [atEnd]
    cases c'.skipBlanks.rest.isEmpty with
    | false => exact behind_skipBlanks c'
    | true =>
      dsimp only
      split <;> exact behind_skipBlanks c'

/-- A font is all of the text. -/
theorem rest_of_font {c c' : Cursor} {f : Font} (h : font c = (.ok f, c')) : c'.rest = [] := by
  unfold font at h
  split at h
  · cases h
  · rename_i g after _
    dsimp only [atEnd] at h
    rcases hend : after.skipBlanks.rest.isEmpty with _ | _ <;> rw [hend] at h <;> dsimp only at h
    · cases h
    · split at h
      · cases h
      · rw [← (Prod.mk.inj h).2]
        exact List.isEmpty_iff.mp hend

theorem advances_font : Scan.Advances font := by
  intro c f c' hmore h
  rw [rest_of_font h]
  exact length_pos_of_atEnd hmore

end Cursor

theorem Keywords.advances_scan {α : Type} (k : Keywords α) : Scan.Advances k.scan := by
  intro c a c' _ h
  unfold scan at h
  dsimp only at h
  split at h
  · rename_i hword
    rw [← (Prod.mk.inj h).2]
    refine Cursor.length_run_lt fun hnil => ?_
    rw [if_pos (List.isEmpty_iff.mpr hnil)] at hword
    cases hword
  · cases h

/-! ## Scans of values -/

/-- The scans that read one value from a text, and may be the item of a list. -/
inductive ValueScan : {α : Type} → Scan α → Prop
  | flag : ValueScan Cursor.flag
  | number : ValueScan Cursor.number
  | float : ValueScan Cursor.float
  | whole : ValueScan Cursor.whole
  | identifier : ValueScan Cursor.identifier
  | remainder : ValueScan Cursor.restOfText
  | color : ValueScan Cursor.color
  | point : ValueScan Cursor.point
  | size : ValueScan Cursor.size
  | rect : ValueScan Cursor.rect
  | edges : ValueScan Cursor.edges
  | font : ValueScan Cursor.font
  | keywords {α : Type} (k : Keywords α) : ValueScan k.scan

/-- **Every scan of a value takes a character if it succeeds before the end of the text.** -/
theorem ValueScan.advances {α : Type} {item : Scan α} (h : ValueScan item) : item.Advances := by
  cases h with
  | flag => exact Cursor.advances_flag
  | number => exact Cursor.advances_number
  | float => exact Cursor.advances_float
  | whole => exact Cursor.advances_whole
  | identifier => exact Cursor.advances_identifier
  | remainder => exact Cursor.advances_restOfText
  | color => exact Cursor.advances_color
  | point => exact Cursor.advances_braced _ _
  | size => exact Cursor.advances_braced _ _
  | rect => exact Cursor.advances_braced _ _
  | edges => exact Cursor.advances_braced _ _
  | font => exact Cursor.advances_font
  | keywords k => exact k.advances_scan

/-! ## Result -/

open Cursor in
/-- **Lists end.**  Every scan of a value that succeeds before the end of the text leaves less of
    it.  With such a scan as the item, and with any marks, the rounds of a list come to one result
    and to no other, which is what is read; it has no more items than there are characters left, nor
    than there are in the text. -/
theorem lists_end {α : Type} {item : Scan α} (h : ValueScan item) :
    (∀ c a c', c.atEnd.1 = false → item c = (.ok a, c') → c'.rest.length < c.rest.length) ∧
    (∀ c r, Rounds [] item c r ↔ r = list item h.advances c) ∧
    (∀ opening close c r,
      Listing opening close item c r ↔ r = bracketed opening close item h.advances c) ∧
    ∀ opening close c as c', list item h.advances c = (.ok as, c') ∨
      bracketed opening close item h.advances c = (.ok as, c') →
      as.length ≤ c.rest.length ∧
        ∀ text line, Behind (start text line) c → as.length ≤ text.length := by
  have hitem := h.advances
  refine ⟨hitem, fun c r => rounds_iff hitem, fun opening close c r => listing_iff hitem,
    fun opening close c as c' hread => ?_⟩
  have hleft : as.length ≤ c.rest.length := by
    rcases hread with hread | hread
    · exact length_le_of_rounds hitem ((rounds_iff hitem).mpr hread.symm) as rfl
    · exact length_le_of_listing hitem ((listing_iff hitem).mpr hread.symm) as rfl
  refine ⟨hleft, fun text line hbehind => hleft.trans ?_⟩
  rw [← String.length_toList]
  exact hbehind.length_le

open Cursor in
/-- Colours of three kinds, with a comma between two of them, and no marks. -/
theorem lists_end_colors :
    let c := start " red, #fff rgb(1, 2, 3)" 4
    (∀ r, Rounds [] color c r ↔ r = list color advances_color c) ∧
    (∀ r, Listing [] [] color c r ↔ r = bracketed [] [] color advances_color c) ∧
    ∃ as c' first after, list color advances_color c = (.ok as, c') ∧ as.length = 3 ∧
      as.length ≤ 23 ∧ color c = (.ok first, after) ∧ after.rest.length < 23 := by
  intro c
  obtain ⟨hadvances, hlist, hlisting, hlength⟩ := lists_end .color
  refine ⟨hlist c, hlisting [] [] c, ?_⟩
  have hcolors : (list color advances_color c).1.map List.length = .ok 3 := by decide +kernel
  have hfirst : (color c).1.map (fun _ => ()) = .ok () := by decide +kernel
  rcases hread : list color advances_color c with ⟨e | as, c'⟩
  · rw [hread] at hcolors
    cases hcolors
  rcases hone : color c with ⟨e | first, after⟩
  · rw [hone] at hfirst
    cases hfirst
  rw [hread] at hcolors
  refine ⟨as, c', first, after, rfl, Except.ok.inj hcolors, ?_, rfl, ?_⟩
  · exact (hlength [] [] c as c' (Or.inl hread)).2 _ 4 (.refl c)
  · exact hadvances c first after (by decide) hone

end ViewSheet
