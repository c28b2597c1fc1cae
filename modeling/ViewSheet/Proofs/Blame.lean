/-
  Blame: on which line a property's text is found wrong.

  1. **Specification**: a reading is *on line* `n` if its cursor is left on that line and, should it
     have failed, what it complains about is a text of that line (`OnLine`).

  2. **Scans**: every scan that a setter uses stays on the line it starts on.  A scan that goes on
     where another has stopped is on its line too (`Scan.Blames.andThen`), so lists, colours and
     fonts follow from their parts.

  3. **Setters**: scanning is all that can be blamed on a line.  A hook that looks around may fail
     too, but it knows of no lines (`Catalogue.blames_stock`).
-/
import ViewSheet.Proofs.Advancing
import ViewSheet.Proofs.StockSetters

namespace ViewSheet

open Text

/-! ## Readings on a line -/

/-- A reading that has not left a line, and that blames this line if it has failed. -/
def OnLine {α : Type} (line : Nat) (r : Except Error α × Cursor) : Prop :=
  r.2.line = line ∧ ∀ e, r.1 = .error e → ∃ detail, e = .unrecognized detail line

/-- The scan stays on the line on which it starts. -/
def Scan.Blames {α : Type} (scan : Scan α) : Prop := ∀ c, OnLine c.line (scan c)

namespace OnLine

variable {α β : Type} {line : Nat} {c : Cursor}

theorem ok (h : c.line = line) (a : α) : OnLine line (Except.ok a, c) :=
  ⟨h, by rintro e ⟨⟩⟩

/-- A complaint at a cursor is about the cursor's line. -/
theorem unrecognized (h : c.line = line) (detail : String) :
    OnLine line ((Except.error (.unrecognized detail c.line) : Except Error α), c) :=
  ⟨h, by
    rintro e ⟨⟩
    exact ⟨detail, by rw [h]⟩⟩

/-- What is made of the value makes no difference. -/
theorem map {r : Except Error α × Cursor} (h : OnLine line r) (f : α → β) :
    OnLine line (r.1.map f, r.2) := by
  obtain ⟨e | a, c'⟩ := r
  · refine ⟨h.1, ?_⟩
    rintro _ ⟨⟩
    exact h.2 e rfl
  · exact .ok h.1 (f a)

/-- A failure that is passed on stays what it is. -/
theorem passed {e : Error} (h : OnLine line ((Except.error e : Except Error α), c)) :
    OnLine line ((Except.error e : Except Error β), c) :=
  ⟨h.1, by
    rintro _ ⟨⟩
    exact h.2 e rfl⟩

end OnLine

/-- **A scan that goes on where another has stopped** is on its line if what it does there is. -/
theorem Scan.Blames.andThen {α β : Type} {first : Scan α} {scan : Scan β} (h : first.Blames)
    (hfailed : ∀ c e c', first c = (.error e, c') → scan c = (.error e, c'))
    (hthen : ∀ c a c', first c = (.ok a, c') → OnLine c'.line (scan c)) : scan.Blames := by
  intro c
  have hfirst := h c
  rcases hrun : first c with ⟨e | a, c'⟩
  · rw [hrun] at hfirst
    rw [hfailed c e c' hrun]
    exact hfirst.passed
  · rw [hrun] at hfirst
    rw [← show c'.line = c.line from hfirst.1]
    exact hthen c a c' hrun

namespace Cursor

/-! ## Tokens and numbers -/

theorem line_of_literal {mark : List Char} {c c' : Cursor} {found : Bool}
    (h : c.literal mark = (found, c')) : c'.line = c.line := by
  have hbehind := (behind_literal mark c).2.1
  rw [h] at hbehind
  exact hbehind

theorem blames_someRun (p : Char → Bool) (what : String) : Scan.Blames (someRun p what) := by
  intro c
  unfold someRun
  dsimp only
  split
  · exact .unrecognized rfl _
  · exact .ok rfl _

theorem blames_identifier : Scan.Blames identifier :=
  fun c => (blames_someRun isIdentifierChar "an identifier" c).map String.ofList

theorem blames_flag : Scan.Blames flag := by
  refine (blames_someRun (!isBlank ·) "Bool").andThen (fun c e c' h => ?_) fun c word c' h => ?_
  · rw [flag, h]
  · rw [flag, h]
    dsimp only
    split
    · exact .ok rfl _
    · exact .unrecognized rfl _

theorem blames_number : Scan.Blames number := by
  intro c
  unfold number
  dsimp only
  split
  · exact .ok rfl _
  · exact .unrecognized rfl _

theorem blames_float : Scan.Blames float := fun c => (blames_number c).map Binary.convert

theorem blames_whole : Scan.Blames whole := by
  intro c
  unfold whole
  dsimp only
  split
  · exact .unrecognized rfl _
  -- with either sign, the integer is in range or not
  · split
    all_goals
      split
      · exact .ok rfl _
      · exact .unrecognized rfl _

/-! ## Sequences -/

/-- A mark is looked for or, if it is empty, left out. -/
theorem line_of_mark {skip mark : List Char} {c c' : Cursor} {found unasked : Bool}
    (h : (if skip.isEmpty then (unasked, c) else c.literal mark) = (found, c')) :
    c'.line = c.line := by
  split at h
  · rw [Prod.mk.injEq] at h
    rw [h.2]
  · exact line_of_literal h

section
variable {α : Type} {item : Scan α} (hitem : Scan.Blames item)
include hitem

/-- Rounds of items stay on the line of the first one. -/
theorem onLine_of_rounds {close : List Char} {c : Cursor} {r : Except Error (List α) × Cursor}
    (h : Rounds close item c r) : OnLine c.line r := by
  induction h with
  | ended => exact .ok rfl _
  | unclosed => exact .unrecognized rfl _
  | closed => exact .ok (line_of_literal rfl) _
  | @failed c after e _ _ hread =>
    have hfailed := hitem c.atEnd.2
    rw [hread] at hfailed
    exact hfailed.passed
  | @round c after a r _ _ hread _ ih =>
    have hone := hitem c.atEnd.2
    rw [hread] at hone
    rw [show (after.literal [',']).2.line = c.line from (line_of_literal rfl).trans hone.1] at ih
    exact ih.map (a :: ·)

theorem blames_bracketed (hadvances : item.Advances) (opening close : List Char) :
    Scan.Blames (bracketed opening close item hadvances) := by
  intro c
  unfold bracketed
  rcases hmark : (if opening.isEmpty then (true, c) else c.literal opening) with ⟨_ | _, c'⟩
  · exact .unrecognized (line_of_mark hmark) _
  · rw [← line_of_mark hmark]
    exact onLine_of_rounds hitem (rounds_items hadvances close c')

end

/-! ## Colours and geometry -/

theorem blames_colorChannels (arity : Nat) (form : String) :
    Scan.Blames (colorChannels arity form) := by
  refine (blames_bracketed blames_number advances_number ['('] [')']).andThen (fun c e c' h => ?_)
    fun c channels c' h => ?_
  · rw [colorChannels, h]
  · rw [colorChannels, h]
    dsimp only
    split
    · exact .ok rfl _
    · exact .unrecognized rfl _

theorem blames_colorDigits : Scan.Blames colorDigits := by
  refine (blames_someRun isHexDigit "hex color digits").andThen (fun c e c' h => ?_)
    fun c digits c' h => ?_
  · rw [colorDigits, h]
  · rw [colorDigits, h]
    dsimp only
    split
    · exact .ok rfl _
    · exact .unrecognized rfl _

theorem blames_colorName : Scan.Blames colorName := by
  refine (blames_someRun isIdentifierChar "a color").andThen (fun c e c' h => ?_)
    fun c name c' h => ?_
  · rw [colorName, h]
  · rw [colorName, h]
    dsimp only
    split
    · exact .ok rfl _
    · exact .unrecognized rfl _

/-- Each form is tried where the mark of the one before it was looked for. -/
theorem blames_color : Scan.Blames color := by
  intro c
  unfold color
  rcases hsharp : c.literal ['#'] with ⟨_ | _, c₁⟩
  · rw [← line_of_literal hsharp]
    dsimp only
    rcases hrgba : c₁.literal ['r', 'g', 'b', 'a'] with ⟨_ | _, c₂⟩
    · rw [← line_of_literal hrgba]
      dsimp only
      rcases hrgb : c₂.literal ['r', 'g', 'b'] with ⟨_ | _, c₃⟩
      · rw [← line_of_literal hrgb]
        exact blames_colorName c₃
      · rw [← line_of_literal hrgb]
        exact blames_colorChannels 3 _ c₃
    · rw [← line_of_literal hrgba]
      exact blames_colorChannels 4 _ c₂
  · rw [← line_of_literal hsharp]
    exact blames_colorDigits c₁

theorem blames_braced {α : Type} (build : List Single → Option α) (form : String) :
    Scan.Blames (braced build form) := by
  refine (blames_bracketed blames_float advances_float ['\x7b'] ['\x7d']).andThen
    (fun c e c' h => ?_) fun c numbers c' h => ?_
  · rw [braced, h]
  · rw [braced, h]
    dsimp only
    split
    · exact .ok rfl _
    · exact .unrecognized rfl _

/-! ## Fonts -/

theorem blames_upToChars (stop : Char → Bool) : Scan.Blames (upToChars stop) :=
  fun c => (blames_someRun (!stop ·) "text before the delimiter" c).map
    fun cs => String.ofList (trimEnd cs)

theorem blames_fontFamily (size : Single) : Scan.Blames (fontFamily size) := by
  refine (blames_upToChars isBlank).andThen (fun c e c' h => ?_) fun c family c' h => ?_
  · rw [fontFamily, h]
  · rw [fontFamily, h]
    dsimp only [atEnd]
    cases c'.skipBlanks.rest.isEmpty with
    | true => exact .ok rfl _
    | false => exact (blames_float c'.skipBlanks).map fun size => (⟨some family, size⟩ : Font)

/-- A size that cannot be read is left out, and nothing is blamed for it. -/
theorem blames_fontParts : Scan.Blames fontParts := by
  intro c
  have hsize := (blames_float c).1
  unfold fontParts
  rcases hrun : float c with ⟨e | size, c'⟩
  all_goals
    rw [hrun] at hsize
    have hline : c'.skipBlanks.line = c.line := hsize
    dsimp only [atEnd]
    cases c'.skipBlanks.rest.isEmpty with
    | true => exact .ok hline _
    | false =>
      rw [← hline]
      exact blames_fontFamily _ c'.skipBlanks

theorem blames_font : Scan.Blames font := by
  refine blames_fontParts.andThen (fun c e c' h => ?_) fun c f c' h => ?_
  · rw [font, h]
  · rw [font, h]
    dsimp only [atEnd]
    cases c'.skipBlanks.rest.isEmpty with
    | false => exact .unrecognized rfl _
    | true =>
      dsimp only
      split
      · exact .unrecognized rfl _
      · exact .ok rfl _

end Cursor

/-! ## Kinds -/

theorem Keywords.blames_scan {α : Type} (k : Keywords α) : Scan.Blames k.scan := by
  intro c
  unfold Keywords.scan
  dsimp only
  split
  · exact .ok rfl _
  · exact .unrecognized rfl _

theorem Kind.blames_scanValue {α : Type} {k : Kind α} (h : Scan.Blames k.scan) :
    Scan.Blames k.scanValue :=
  fun c => (h c).map k.inject

/-! ## Setters -/

/-- A setter that is blamed on a line only for what it has scanned there. -/
structure Setter.Blames (s : Setter) : Prop where
  scan : Scan.Blames s.scan
  /-- The hooks know of no lines. -/
  handOver : ∀ turn v value e, (s.handOver turn v value).2.1 = .error e → e.line? = none

/-- **A setter's failure is on the line of the text, or on none.** -/
theorem Setter.Blames.execute {s : Setter} (h : s.Blames) {turn : Turn} {c : Cursor} {v : View}
    {e : Error} (he : (s.execute turn c v).result = .error e) :
    (∃ detail, e = .unrecognized detail c.line) ∨ e.line? = none := by
  unfold Setter.execute at he
  have hscan := h.scan c
  rcases hrun : s.scan c with ⟨e' | value, after⟩
  · rw [hrun] at he hscan
    rw [Except.error.injEq] at he
    exact Or.inl (hscan.2 e (congrArg Except.error he))
  · rw [hrun] at he
    exact Or.inr (h.handOver turn v value e he)

namespace ViewClass

variable {V α : Type} (cls : ViewClass V) (name : String) {kind : Kind α}

theorem blames_property (hscan : Scan.Blames kind.scan) (change : V → α → V) :
    (cls.property name kind change).setter.Blames where
  scan := Kind.blames_scanValue hscan
  handOver := fun turn v value e he => by
    cases turn with
    | construction =>
      rw [Setter.handOver_construction] at he
      cases he
    | attached around => cases he

theorem blames_attachedProperty (hscan : Scan.Blames kind.scan)
    {change : Surroundings → V → α → List Event × Except Error Unit × V}
    (hchange : ∀ around p a e, (change around p a).2.1 = .error e → e.line? = none) :
    (cls.attachedProperty name kind change).setter.Blames where
  scan := Kind.blames_scanValue hscan
  handOver := fun turn v value e he => by
    cases turn with
    | construction => cases he
    | attached around =>
      rcases handOver_attachedProperty cls name kind change around v value with
        ⟨hidle, -⟩ | ⟨p, a, -, -, hrun⟩
      · rw [hidle] at he
        cases he
      · rw [hrun] at he
        exact hchange around p a e he

end ViewClass

/-- A name that stands for no view is no fault of a line. -/
theorem line?_of_matchSize {around : Surroundings} {c : Container} {name : String} {e : Error}
    (h : (matchSize around c name).2.1 = .error e) : e.line? = none := by
  unfold matchSize at h
  split at h
  · rename_i e' hlookup
    rw [Except.error.injEq] at h
    subst h
    unfold Surroundings.lookup ViewBindings.lookup at hlookup
    split at hlookup
    · cases hlookup
    · cases hlookup
      rfl
  · split at h <;> cases h

open Cursor ViewClass in
/-- **Every stock setter** is blamed only for what it has scanned. -/
theorem Catalogue.blames_stock : stock.Keeps fun _ s => s.Blames := by
  refine keeps_stock (forall_stockProperties ?_ ?_ ?_ ?_ ?_ ?_)
  · simp only [containerProperties, List.forall_mem_cons]
    and_intros <;> first
      | exact blames_property _ _ blames_float _
      | exact blames_property _ _ blames_color _
      | exact blames_property _ _ blames_flag _
      | exact blames_property _ _ (blames_braced _ _) _
      | exact blames_attachedProperty _ _ blames_identifier fun _ _ _ _ h => line?_of_matchSize h
      | exact List.forall_mem_nil _
  · simp only [controlProperties, List.forall_mem_cons]
    and_intros <;> first
      | exact blames_property _ _ blames_flag _
      | exact List.forall_mem_nil _
  · simp only [labelProperties, List.forall_mem_cons]
    and_intros <;> first
      | exact blames_property _ _ (fun _ => .ok rfl _) _
      | exact blames_property _ _ blames_font _
      | exact blames_property _ _ blames_color _
      | exact blames_property _ _ (Keywords.blames_scan _) _
      | exact blames_property _ _ blames_whole _
      | exact List.forall_mem_nil _
  · simp only [buttonProperties, List.forall_mem_cons]
    and_intros <;> first
      | exact blames_property _ _ (fun _ => .ok rfl _) _
      | exact blames_property _ _ blames_color _
      | exact blames_property _ _ (blames_braced _ _) _
      | exact blames_property _ _ blames_flag _
      | exact List.forall_mem_nil _
  · simp only [stackProperties, List.forall_mem_cons]
    and_intros <;> first
      | exact blames_property _ _ (blames_braced _ _) _
      | exact blames_property _ _ blames_float _
      | exact blames_property _ _ (Keywords.blames_scan _) _
      | exact List.forall_mem_nil _
  · simp only [textFieldProperties, List.forall_mem_cons]
    and_intros <;> first
      | exact blames_property _ _ (fun _ => .ok rfl _) _
      | exact blames_property _ _ blames_font _
      | exact blames_property _ _ blames_color _
      | exact blames_property _ _ (Keywords.blames_scan _) _
      | exact blames_property _ _ blames_flag _
      | exact blames_attachedProperty _ _ blames_identifier fun around t name e h => by
          rw [attachAccessory_ok] at h
          cases h
      | exact List.forall_mem_nil _

end ViewSheet
