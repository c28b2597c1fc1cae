/-
  Passing: what reading leaves of a text.

  1. **Program**: a cursor counts how many bytes of its text have been read.  Its operations go on
     from there, also when they fail, and can be put together to scans in any way.

  2. **Specification**: `At` says where in its text a cursor stands, namely between two characters,
     and `Passes` that one place is behind another.  `Takes` says that a token was passed over, and
     blanks beside it.  `Faithful` is all that can be relied on at a cursor.

  3. **The crux** (`At.passes`): an offset that has not moved back is a place of the same text.
     That no scan moves it back, or cuts the text inside a character, is
     `Scanning.Composed.sound`.

  4. **Result** (`faithful_after`): so it is after each operation, whatever was done before; what a
     single operation has taken is the token that it gives, and blanks; and if the items of lists
     take something, then the scan comes to an end, with what the cursor by characters reads.
-/
import ViewSheet.Proofs.Looping

namespace ViewSheet

open Text

namespace ByteCursor

variable {text : String} {b b' : ByteCursor} {c c' : Cursor}

/-! ## Places -/

/-- The cursor reads the text, its offset is a place between two characters, and what is left is the
    text from there on. -/
structure At (b : ByteCursor) (p : text.Pos) : Prop where
  text_eq : b.text = text
  pos_eq : b.pos = p.offset.byteIdx
  remaining : ByteCursor.remaining.Ends b (text.sliceFrom p).copy.toList b

/-- What lies between two places is passed over. -/
def Passes (p q : text.Pos) : Prop :=
  ∃ passed, (text.sliceFrom p).copy = passed ++ (text.sliceFrom q).copy ∧
    q.offset.byteIdx = p.offset.byteIdx + passed.utf8ByteSize

/-- A cursor that shows something is at a place. -/
theorem Shows.exists_at (h : Shows b c) (htext : b.text = text) :
    ∃ p : text.Pos, b.At p ∧ (text.sliceFrom p).copy = c.remaining := by
  subst htext
  obtain ⟨front, hfront, hbytes⟩ := h.rest
  have hsplit : b.text = String.ofList front ++ c.remaining := by
    rw [Cursor.remaining, ← String.ofList_append, ← hfront, String.ofList_toList]
  have hvalid : (String.ofList front).rawEndPos.IsValid b.text :=
    String.Pos.Raw.isValid_iff_exists_append.mpr ⟨_, _, hsplit, rfl⟩
  have hcopy : (b.text.sliceFrom (b.text.pos _ hvalid)).copy = c.remaining :=
    (String.Pos.Splits.mk hsplit rfl).copy_sliceFrom_eq
  refine ⟨b.text.pos _ hvalid, ⟨rfl, ?_, ?_⟩, hcopy⟩
  · rw [← hbytes, byteLength_eq]
    rfl
  · rw [hcopy, Cursor.remaining, String.toList_ofList]
    exact h.ends_remaining

/-- A cursor at a place shows what is left there. -/
theorem At.shows {p : text.Pos} (hb : b.At p) (h : Shows b c) :
    (text.sliceFrom p).copy = c.remaining := by
  have hrest := (hb.remaining.unique h.ends_remaining).1
  rw [Cursor.remaining, ← hrest, String.ofList_toList]

/-- **A cursor that has not moved back** has passed over what lies between the two places. -/
theorem At.passes {p : text.Pos} (hb : b.At p) (h : Shows b c) (h' : Shows b' c')
    (hbehind : Cursor.Behind c c') : ∃ q : text.Pos, b'.At q ∧ Passes p q := by
  obtain ⟨htext, -, passed, hpassed⟩ := hbehind
  have hsame : b'.text = text := by
    rw [← h'.text, htext, h.text, hb.text_eq]
  obtain ⟨q, hq, hcopy⟩ := h'.exists_at hsame
  refine ⟨q, hq, String.ofList passed, ?_, ?_⟩
  · rw [hb.shows h, hcopy, Cursor.remaining, Cursor.remaining, ← String.ofList_append, hpassed]
  · -- both have the bytes of the text before them that they have not left to read
    have hlength := h.byteLength_text
    have hlength' := h'.byteLength_text
    rw [← hpassed, byteLength_append] at hlength
    rw [← byteLength_eq, ← hb.pos_eq, ← hq.pos_eq]
    rw [hb.text_eq] at hlength
    rw [hsame] at hlength'
    omega

end ByteCursor

namespace Cursor

/-! ## Tokens -/

/-- The token was passed over, and blanks before it and behind it, and nothing else. -/
def Takes (c : Cursor) (token : List Char) (c' : Cursor) : Prop :=
  ∃ blanks gap, c.rest = blanks ++ (token ++ (gap ++ c'.rest)) ∧
    (∀ b ∈ blanks, isBlank b = true) ∧ ∀ b ∈ gap, isBlank b = true

/-- What comes behind the blanks was passed over, and blanks do not count at its end. -/
theorem takes_of_skipBlanks {c c' : Cursor} {cs token gap : List Char}
    (hrest : c.skipBlanks.rest = cs ++ c'.rest) (hcs : cs = token ++ gap)
    (hgap : ∀ b ∈ gap, isBlank b = true) : c.Takes token c' := by
  obtain ⟨blanks, hblanks, hall⟩ := exists_append_trimStart c.rest
  refine ⟨blanks, gap, ?_, hall, hgap⟩
  rw [hblanks, show trimStart c.rest = cs ++ c'.rest from hrest, hcs, List.append_assoc]

theorem takes_run {c c' : Cursor} {p : Char → Bool} {cs : List Char} (h : c.run p = (cs, c')) :
    c.Takes cs c' := by
  obtain ⟨rfl, rfl⟩ := Prod.mk.inj h
  exact takes_of_skipBlanks List.takeWhile_append_dropWhile.symm (List.append_nil _).symm
    (List.forall_mem_nil _)

theorem run_of_someRun {c c' : Cursor} {p : Char → Bool} {what : String} {cs : List Char}
    (h : someRun p what c = (.ok cs, c')) : c.run p = (cs, c') ∧ cs ≠ [] := by
  unfold someRun at h
  dsimp only at h
  split at h
  · cases h
  · rename_i hfull
    obtain ⟨hcs, rfl⟩ := Prod.mk.inj h
    obtain rfl := Except.ok.inj hcs
    exact ⟨rfl, fun hnil => hfull (List.isEmpty_iff.mpr hnil)⟩

/-- A scan that makes a string of a run. -/
theorem exists_someRun {c c' : Cursor} {p : Char → Bool} {what : String}
    {f : List Char → List Char} {s : String}
    (h : ((someRun p what c).1.map fun cs => String.ofList (f cs), (someRun p what c).2) =
      (.ok s, c')) : ∃ cs, c.run p = (cs, c') ∧ s.toList = f cs := by
  rcases hrun : someRun p what c with ⟨e | cs, after⟩ <;> rw [hrun] at h
  · cases h
  · obtain ⟨hs, rfl⟩ := Prod.mk.inj h
    refine ⟨cs, (run_of_someRun hrun).1, ?_⟩
    rw [← Except.ok.inj hs, String.toList_ofList]

theorem Takes.trimEnd {c c' : Cursor} {cs : List Char} (h : c.Takes cs c') :
    c.Takes (trimEnd cs) c' := by
  obtain ⟨blanks, gap, hc, hblanks, hgap⟩ := h
  obtain ⟨more, hcs, hmore⟩ := trimEnd_append_blanks cs
  refine ⟨blanks, more ++ gap, ?_, hblanks, List.forall_mem_append.mpr ⟨hmore, hgap⟩⟩
  rw [hc, List.append_assoc more, ← List.append_assoc (Text.trimEnd cs), ← hcs]

theorem takes_literal {c c' : Cursor} {mark : List Char} (h : c.literal mark = (true, c')) :
    c.Takes mark c' := by
  obtain ⟨rest, hrest, rfl⟩ := literal_eq_true_iff.mp h
  exact takes_of_skipBlanks hrest (List.append_nil _).symm (List.forall_mem_nil _)

theorem takes_chars {c c' : Cursor} {p : Char → Bool} {s : String} (h : chars p c = (.ok s, c')) :
    c.Takes s.toList c' := by
  obtain ⟨cs, hrun, hs⟩ := exists_someRun (f := id) h
  rw [hs]
  exact takes_run hrun

theorem takes_identifier {c c' : Cursor} {s : String} (h : identifier c = (.ok s, c')) :
    c.Takes s.toList c' := by
  obtain ⟨cs, hrun, hs⟩ := exists_someRun (f := id) h
  rw [hs]
  exact takes_run hrun

theorem takes_upToChars {c c' : Cursor} {stop : Char → Bool} {s : String}
    (h : upToChars stop c = (.ok s, c')) : c.Takes s.toList c' := by
  obtain ⟨cs, hrun, hs⟩ := exists_someRun (f := Text.trimEnd) h
  rw [hs]
  exact (takes_run hrun).trimEnd

theorem takes_upTo {c c' : Cursor} {delimiter s : String} (h : upTo delimiter c = (.ok s, c')) :
    c.Takes s.toList c' := by
  unfold upTo at h
  dsimp only at h
  split at h
  · cases h
  · obtain ⟨hs, rfl⟩ := Prod.mk.inj h
    rw [← Except.ok.inj hs, String.toList_ofList]
    refine Takes.trimEnd (takes_of_skipBlanks ?_ (List.append_nil _).symm (List.forall_mem_nil _))
    exact (before_append_drop _ _).symm

theorem takes_remainder (c : Cursor) : c.Takes c.remainder.1.toList c.remainder.2 := by
  rw [remainder, String.toList_ofList]
  refine Takes.trimEnd (takes_of_skipBlanks ?_ (List.append_nil _).symm (List.forall_mem_nil _))
  exact (List.append_nil _).symm

/-- A boolean is read from a word. -/
theorem takes_flag {c c' : Cursor} {b : Bool} (h : flag c = (.ok b, c')) :
    ∃ word, c.Takes word c' ∧ word ≠ [] ∧ ∀ x ∈ word, isBlank x = false := by
  unfold flag at h
  split at h
  · cases h
  · rename_i word after hword
    obtain ⟨hrun, hfull⟩ := run_of_someRun hword
    have htaken : (c.run (!isBlank ·)).1 = word := congrArg Prod.fst hrun
    have hsolid : ∀ x ∈ word, isBlank x = false := by
      intro x hx
      rw [← htaken] at hx
      simpa using List.mem_takeWhile_imp hx
    dsimp only at h
    split at h
    · obtain ⟨-, rfl⟩ := Prod.mk.inj h
      exact ⟨word, takes_run hrun, hfull, hsolid⟩
    · cases h

/-- A number is read from a literal. -/
theorem takes_number {c c' : Cursor} {v : Double} (h : number c = (.ok v, c')) :
    ∃ token d, c.Takes token c' ∧ Decimal.read? token = some d ∧ v = d.toBinary := by
  unfold number at h
  dsimp only at h
  split at h
  · rename_i d hread
    obtain ⟨hv, rfl⟩ := Prod.mk.inj h
    exact ⟨_, d, takes_run rfl, hread, (Except.ok.inj hv).symm⟩
  · cases h

theorem unchanged_of_number {c c' : Cursor} {e : Error} (h : number c = (.error e, c')) :
    c' = c := by
  rcases number_cases c with ⟨v, hok, -⟩ | ⟨e', herror⟩
  · rw [hok] at h
    cases h
  · rw [herror] at h
    exact (Prod.mk.inj h).2.symm

/-- An integer is read from a literal. -/
theorem takes_whole {c c' : Cursor} {n : Int} (h : whole c = (.ok n, c')) :
    ∃ token, c.Takes token c' ∧ IntegerLiteral token n := by
  obtain ⟨blanks, literal, tail, hc, hblanks, hliteral, -, -, rfl⟩ := whole_iff.mp h
  exact ⟨literal, ⟨blanks, [], hc, hblanks, List.forall_mem_nil _⟩, hliteral⟩

end Cursor

namespace ByteCursor

variable {text : String} {b b' : ByteCursor} {c c' : Cursor}

/-- The token was passed over, and blanks before it and behind it, and nothing else. -/
def Takes (b : ByteCursor) (token : List Char) (b' : ByteCursor) : Prop :=
  ∃ c c', Shows b c ∧ Shows b' c' ∧ c.Takes token c'

/-- What an operation by characters takes, its mirror takes. -/
theorem Mirrors.exists_run {β : Type} {m : Scanning β} {f : Cursor → β × Cursor} (hm : Mirrors m f)
    (h : Shows b c) {x : β} (hends : m.Ends b x b') : ∃ c', f c = (x, c') ∧ Shows b' c' := by
  obtain ⟨b₁, hends₁, h₁⟩ := hm b c h
  obtain ⟨rfl, rfl⟩ := hends.unique hends₁
  exact ⟨_, rfl, h₁⟩

theorem Mirrors.takes {β : Type} {m : Scanning β} {f : Cursor → β × Cursor} (hm : Mirrors m f)
    (h : Shows b c) {x : β} (hends : m.Ends b x b') {token : List Char}
    (htakes : ∀ c', f c = (x, c') → c.Takes token c') : b.Takes token b' := by
  obtain ⟨c', hrun, h'⟩ := hm.exists_run h hends
  exact ⟨c, c', h, h', htakes c' hrun⟩

/-! ## Result -/

/-- What can be relied on at a cursor: where it stands in the text, what becomes of any scan from
    there, and what a single operation takes. -/
structure Faithful (text : String) (b : ByteCursor) : Prop where
  /-- It stands between two characters. -/
  stands : ∃ p : text.Pos, b.At p
  /-- No scan stops in the middle.  Where one ends, the cursor stands between two characters, no
      farther back. -/
  moves : ∀ {β : Type} {m : Scanning β}, m.Composed → ∀ p : text.Pos, b.At p →
    ¬ m.Panics b ∧ ∀ x b', m.Ends b x b' → ∃ q : text.Pos, b'.At q ∧ Passes p q
  /-- A scan whose lists are of items that take something ends, with what is read by characters. -/
  ends : ∃ c, Shows b c ∧ ∀ {β : Type} {m : Scanning β} {f : Cursor → β × Cursor}, Twins m f →
    ∃ b', m.Ends b (f c).1 b' ∧ Shows b' (f c).2
  literal : ∀ mark b', (ByteCursor.literal mark).Ends b true b' → b.Takes mark b'
  chars : ∀ p s b', (ByteCursor.chars p).Ends b (.ok s) b' → b.Takes s.toList b'
  upToChars : ∀ stop s b', (ByteCursor.upToChars stop).Ends b (.ok s) b' → b.Takes s.toList b'
  upTo : ∀ delimiter s b', (ByteCursor.upTo delimiter).Ends b (.ok s) b' → b.Takes s.toList b'
  identifier : ∀ s b', ByteCursor.identifier.Ends b (.ok s) b' → b.Takes s.toList b'
  remainder : ∀ s b', ByteCursor.remainder.Ends b s b' → b.Takes s.toList b'
  flag : ∀ v b', ByteCursor.flag.Ends b (.ok v) b' →
    ∃ word, b.Takes word b' ∧ word ≠ [] ∧ ∀ x ∈ word, isBlank x = false
  number : ∀ v b', ByteCursor.number.Ends b (.ok v) b' →
    ∃ token d, b.Takes token b' ∧ Decimal.read? token = some d ∧ v = d.toBinary
  whole : ∀ n b', ByteCursor.whole.Ends b (.ok n) b' →
    ∃ token, b.Takes token b' ∧ IntegerLiteral token n
  /-- A number that is none leaves the cursor where it was. -/
  number_failed : ∀ e b', ByteCursor.number.Ends b (.error e) b' → b' = b

/-- A cursor that shows something can be relied on. -/
theorem Shows.faithful (h : Shows b c) (htext : b.text = text) : Faithful text b where
  stands := by
    obtain ⟨p, hp, -⟩ := h.exists_at htext
    exact ⟨p, hp⟩
  moves := by
    intro β m hm p hp
    have hfine := hm.sound b c h
    constructor
    · rintro ⟨panic, hpanic⟩
      rw [hpanic] at hfine
      exact hfine
    · intro x b' hends
      rw [show (m.run b).run = _ from hends] at hfine
      obtain ⟨c', h', hbehind⟩ := hfine
      exact hp.passes h h' hbehind
  ends := ⟨c, h, fun hm => hm.mirrors b c h⟩
  literal mark b' hends := (mirrors_literal mark).takes h hends fun _ => Cursor.takes_literal
  chars p s b' hends := (mirrors_chars p).takes h hends fun _ => Cursor.takes_chars
  upToChars stop s b' hends :=
    (mirrors_upToChars stop).takes h hends fun _ => Cursor.takes_upToChars
  upTo delimiter s b' hends := (mirrors_upTo delimiter).takes h hends fun _ => Cursor.takes_upTo
  identifier s b' hends := mirrors_identifier.takes h hends fun _ => Cursor.takes_identifier
  remainder s b' hends := by
    refine mirrors_remainder.takes h hends fun c' hrun => ?_
    obtain ⟨rfl, rfl⟩ := Prod.mk.inj hrun
    exact Cursor.takes_remainder c
  flag := by
    intro v b' hends
    obtain ⟨c', hrun, h'⟩ := mirrors_flag.exists_run h hends
    obtain ⟨word, htakes, hword⟩ := Cursor.takes_flag hrun
    exact ⟨word, ⟨c, c', h, h', htakes⟩, hword⟩
  number := by
    intro v b' hends
    obtain ⟨c', hrun, h'⟩ := mirrors_number.exists_run h hends
    obtain ⟨token, d, htakes, hread⟩ := Cursor.takes_number hrun
    exact ⟨token, d, ⟨c, c', h, h', htakes⟩, hread⟩
  whole := by
    intro n b' hends
    obtain ⟨c', hrun, h'⟩ := mirrors_whole.exists_run h hends
    obtain ⟨token, htakes, hliteral⟩ := Cursor.takes_whole hrun
    exact ⟨token, ⟨c, c', h, h', htakes⟩, hliteral⟩
  number_failed := by
    intro e b' hends
    obtain ⟨c', hrun, h'⟩ := mirrors_number.exists_run h hends
    obtain rfl := Cursor.unchanged_of_number hrun
    exact h'.eq h

/-- **No text is lost.**  Whatever is read from the start of a text, and whether or not that
    succeeds, the run does not stop in the middle; and when it has come to an end the cursor stands
    between two characters of the text.  From there no operation moves it back, and none moves it
    into a character.  What a single operation takes is its token, with blanks around it; and a
    number that is not there takes nothing. -/
theorem faithful_after {β : Type} {before : Scanning β} (hbefore : before.Composed) (text : String)
    (line : Nat) : ¬ before.Panics (start text line) ∧
      ∀ x b, before.Ends (start text line) x b → Faithful text b := by
  have hstart := Shows.start text line
  have hfine := hbefore.sound _ _ hstart
  constructor
  · rintro ⟨panic, hpanic⟩
    rw [hpanic] at hfine
    exact hfine
  · intro x b hends
    rw [show (before.run (start text line)).run = _ from hends] at hfine
    obtain ⟨c, h, htext, -⟩ := hfine
    exact h.faithful (h.text.symm.trans htext)

/-- Behind a list that has failed at a letter of two bytes, the letters are taken whole. -/
theorem faithful_after_umlauts :
    let text := "a, b　ÄÖ ü"
    (list identifier).Composed ∧ ¬ (list identifier).Panics (start text 1) ∧
      (list identifier).Ends (start text 1)
        (.error (.unrecognized "Expected an identifier but saw 'a, b　ÄÖ ü'" 1)) ⟨text, 7, 1⟩ ∧
      Faithful text ⟨text, 7, 1⟩ ∧
      (chars (· ≠ ' ')).Ends ⟨text, 7, 1⟩ (.ok "ÄÖ") ⟨text, 11, 1⟩ ∧
      Takes ⟨text, 7, 1⟩ ['Ä', 'Ö'] ⟨text, 11, 1⟩ := by
  intro text
  have hlist : (list identifier).Composed := .list .identifier
  obtain ⟨hrun, hafter⟩ := faithful_after hlist text 1
  have hstands : Shows ⟨text, 7, 1⟩ ⟨text, "ÄÖ ü".toList, 1⟩ :=
    ⟨rfl, rfl, "a, b　".toList, by decide +kernel, by decide +kernel⟩
  obtain ⟨b, hends, hshows⟩ :=
    (Twins.list .identifier Cursor.advances_identifier).mirrors _ _ (.start text 1)
  have hread : Cursor.list Cursor.identifier Cursor.advances_identifier (.start text 1) =
      (.error (.unrecognized "Expected an identifier but saw 'a, b　ÄÖ ü'" 1),
        ⟨text, "ÄÖ ü".toList, 1⟩) := by decide +kernel
  rw [hread] at hends hshows
  obtain rfl : b = ⟨text, 7, 1⟩ := hshows.eq hstands
  have hfaithful := hafter _ _ hends
  have hchars : (chars (· ≠ ' ')).Ends ⟨text, 7, 1⟩ (.ok "ÄÖ") ⟨text, 11, 1⟩ := by
    unfold Scanning.Ends
    decide +kernel
  exact ⟨hlist, hrun, hends, hfaithful, hchars, hfaithful.chars _ "ÄÖ" _ hchars⟩

end ByteCursor

end ViewSheet
