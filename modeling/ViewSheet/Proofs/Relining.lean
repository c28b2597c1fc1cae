/-
  Relining: what a text is read as does not depend on the line it stands on.

  1. **Program**: a cursor carries the line of its property through a whole reading, for the error
     should there be one.

  2. **Specification**: a scan is *lineless* if on another line it gives the same value, or fails as
     well, and leaves the same text to read (`Scan.Lineless`).

  3. **The crux** (`Scan.Lineless.andThen`): a scan that goes on where another has stopped is
     lineless if both are.  Lists, colours and fonts follow from their parts.

  4. **Result** (`effect?_eq`, `puts_texts`): at construction the effect of a text on a view of a
     stock class is the same on any line, so what comes of a declaration depends on its texts.
-/
import ViewSheet.Proofs.Advancing
import ViewSheet.Proofs.Effects

namespace ViewSheet

open Text

/-! ## Readings on another line -/

/-- The same place in the same text, on another line. -/
def Cursor.onLine (c : Cursor) (line : Nat) : Cursor := { c with line }

/-- The value, if there is one. -/
def valueOf? {α : Type} : Except Error α → Option α
  | .ok a => some a
  | .error _ => none

/-- Two readings that differ in the line alone: of the cursor, and of what is complained about. -/
def Relined {α : Type} (line : Nat) (r r' : Except Error α × Cursor) : Prop :=
  valueOf? r'.1 = valueOf? r.1 ∧ r'.2 = r.2.onLine line

/-- On another line the scan gives the same. -/
def Scan.Lineless {α : Type} (scan : Scan α) : Prop :=
  ∀ c line, Relined line (scan c) (scan (c.onLine line))

namespace Relined

variable {α β : Type} {line : Nat} {c : Cursor}

theorem ok (a : α) : Relined line (Except.ok a, c) (Except.ok a, c.onLine line) := ⟨rfl, rfl⟩

theorem error (e e' : Error) : Relined line ((Except.error e : Except Error α), c)
    (Except.error e', c.onLine line) := ⟨rfl, rfl⟩

/-- What is made of the value makes no difference. -/
theorem map {r r' : Except Error α × Cursor} (h : Relined line r r') (f : α → β) :
    Relined line (r.1.map f, r.2) (r'.1.map f, r'.2) := by
  obtain ⟨e | a, c₁⟩ := r <;> obtain ⟨e' | a', c₂⟩ := r'
  · exact ⟨rfl, h.2⟩
  · cases h.1
  · cases h.1
  · exact ⟨congrArg (Option.map f) h.1, h.2⟩

/-- **All that can come of a reading on another line.** -/
theorem cases {r r' : Except Error α × Cursor} (h : Relined line r r') :
    (∃ e e' c, r = (.error e, c) ∧ r' = (.error e', c.onLine line)) ∨
      ∃ a c, r = (.ok a, c) ∧ r' = (.ok a, c.onLine line) := by
  obtain ⟨e | a, c₁⟩ := r <;> obtain ⟨e' | a', c₂⟩ := r' <;> obtain ⟨hvalue, hcursor⟩ := h
  · exact Or.inl ⟨e, e', c₁, rfl, Prod.ext rfl hcursor⟩
  · cases hvalue
  · cases hvalue
  · exact Or.inr ⟨a, c₁, rfl, Prod.ext (congrArg Except.ok (Option.some.inj hvalue)) hcursor⟩

end Relined

/-- **A scan that goes on where another has stopped** is lineless if what it does there is. -/
theorem Scan.Lineless.andThen {α β : Type} {first : Scan α} {scan : Scan β} (h : first.Lineless)
    (hfailed : ∀ c e c', first c = (.error e, c') → scan c = (.error e, c'))
    (hthen : ∀ c a c' line, first c = (.ok a, c') →
      first (c.onLine line) = (.ok a, c'.onLine line) →
      Relined line (scan c) (scan (c.onLine line))) : scan.Lineless := by
  intro c line
  rcases (h c line).cases with ⟨e, e', c', hrun, hrun'⟩ | ⟨a, c', hrun, hrun'⟩
  · rw [hfailed c e c' hrun, hfailed _ e' _ hrun']
    exact .error e e'
  · exact hthen c a c' line hrun hrun'

namespace Cursor

/-! ## Tokens and numbers -/

theorem literal_onLine (mark : List Char) (c : Cursor) (line : Nat) :
    (c.onLine line).literal mark = ((c.literal mark).1, (c.literal mark).2.onLine line) := by
  unfold literal
  rw [show (c.onLine line).skipBlanks.rest = c.skipBlanks.rest from rfl]
  cases stripStart? mark c.skipBlanks.rest <;> rfl

theorem atEnd_onLine (c : Cursor) (line : Nat) :
    (c.onLine line).atEnd = (c.atEnd.1, c.atEnd.2.onLine line) := rfl

theorem lineless_someRun (p : Char → Bool) (what : String) : Scan.Lineless (someRun p what) := by
  intro c line
  unfold someRun
  rw [show (c.onLine line).run p = ((c.run p).1, (c.run p).2.onLine line) from rfl]
  dsimp only
  split
  · exact .error _ _
  · exact .ok _

theorem lineless_identifier : Scan.Lineless identifier :=
  fun c line => (lineless_someRun isIdentifierChar "an identifier" c line).map String.ofList

theorem lineless_flag : Scan.Lineless flag := by
  refine (lineless_someRun (!isBlank ·) "Bool").andThen (fun c e c' h => ?_)
    fun c word c' line h h' => ?_
  · rw [flag, h]
  · rw [flag, flag, h, h']
    dsimp only
    split
    · exact .ok _
    · exact .error _ _

theorem lineless_number : Scan.Lineless number := by
  intro c line
  unfold number
  rw [show (c.onLine line).run isNumberChar =
    ((c.run isNumberChar).1, (c.run isNumberChar).2.onLine line) from rfl]
  dsimp only
  split
  · exact .ok _
  · exact .error _ _

theorem lineless_float : Scan.Lineless float :=
  fun c line => (lineless_number c line).map Binary.convert

theorem lineless_whole : Scan.Lineless whole := by
  intro c line
  unfold whole
  rw [show (c.onLine line).skipBlanks = c.skipBlanks.onLine line from rfl]
  dsimp only
  rw [show (c.skipBlanks.onLine line).rest = c.skipBlanks.rest from rfl]
  split
  · exact .error _ _
  -- with either sign, the integer is in range or not
  · split
    all_goals
      split
      · exact .ok _
      · exact .error _ _

/-! ## Sequences -/

section
variable {α : Type} {item : Scan α} (hitem : Scan.Lineless item)
include hitem

/-- On any line the rounds of a list come to the same. -/
theorem rounds_onLine {close : List Char} {c : Cursor} {r : Except Error (List α) × Cursor}
    (h : Rounds close item c r) (line : Nat) :
    ∃ r', Rounds close item (c.onLine line) r' ∧ Relined line r r' := by
  have hclosed : ∀ c : Cursor, ((c.onLine line).atEnd.2.literal close) =
      ((c.atEnd.2.literal close).1, (c.atEnd.2.literal close).2.onLine line) :=
    fun c => literal_onLine close c.atEnd.2 line
  induction h with
  | ended hend hclose => exact ⟨_, .ended hend hclose, .ok _⟩
  | unclosed hend hclose => exact ⟨_, .unclosed hend hclose, .error _ _⟩
  | @closed c hmore hclose hmark =>
    refine ⟨_, .closed hmore hclose (by rw [hclosed c]; exact hmark), ?_⟩
    rw [hclosed c]
    exact .ok _
  | @failed c after e hmore hmark hread =>
    rcases (hitem c.atEnd.2 line).cases with ⟨_, e', _, hrun, hrun'⟩ | ⟨_, _, hrun, -⟩
    · obtain rfl := (Prod.mk.inj (hread.symm.trans hrun)).2
      exact ⟨_, .failed hmore (by rw [hclosed c]; exact hmark) hrun', .error e e'⟩
    · cases hread.symm.trans hrun
  | @round c after a r hmore hmark hread _ ih =>
    obtain ⟨r', hrest, hsame⟩ := ih
    rcases (hitem c.atEnd.2 line).cases with ⟨_, _, _, hrun, -⟩ | ⟨_, _, hrun, hrun'⟩
    · cases hread.symm.trans hrun
    · obtain ⟨ha, rfl⟩ := Prod.mk.inj (hread.symm.trans hrun)
      obtain rfl := Except.ok.inj ha
      refine ⟨_, .round hmore (by rw [hclosed c]; exact hmark) hrun' ?_, hsame.map (a :: ·)⟩
      rw [literal_onLine]
      exact hrest

theorem lineless_items (hadvances : item.Advances) (close : List Char) :
    Scan.Lineless (items close item hadvances) := by
  intro c line
  obtain ⟨r', hrounds, hsame⟩ := rounds_onLine hitem (rounds_items hadvances close c) line
  rw [items_of_rounds hadvances hrounds]
  exact hsame

theorem lineless_bracketed (hadvances : item.Advances) (opening close : List Char) :
    Scan.Lineless (bracketed opening close item hadvances) := by
  intro c line
  rw [bracketed_eq, bracketed_eq, literal_onLine]
  split
  · exact lineless_items hitem hadvances close c line
  · split
    · exact lineless_items hitem hadvances close _ line
    · exact .error _ _

end

/-! ## Colours and geometry -/

theorem lineless_colorChannels (arity : Nat) (form : String) :
    Scan.Lineless (colorChannels arity form) := by
  refine (lineless_bracketed lineless_number advances_number ['('] [')']).andThen
    (fun c e c' h => ?_) fun c channels c' line h h' => ?_
  · rw [colorChannels, h]
  · rw [colorChannels, colorChannels, h, h']
    dsimp only
    split
    · exact .ok _
    · exact .error _ _

theorem lineless_colorDigits : Scan.Lineless colorDigits := by
  refine (lineless_someRun isHexDigit "hex color digits").andThen (fun c e c' h => ?_)
    fun c digits c' line h h' => ?_
  · rw [colorDigits, h]
  · rw [colorDigits, colorDigits, h, h']
    dsimp only
    split
    · exact .ok _
    · exact .error _ _

theorem lineless_colorName : Scan.Lineless colorName := by
  refine (lineless_someRun isIdentifierChar "a color").andThen (fun c e c' h => ?_)
    fun c name c' line h h' => ?_
  · rw [colorName, h]
  · rw [colorName, colorName, h, h']
    dsimp only
    split
    · exact .ok _
    · exact .error _ _

/-- Each form is tried where the mark of the one before it was looked for. -/
theorem lineless_color : Scan.Lineless color := by
  intro c line
  unfold color
  rw [literal_onLine]
  rcases c.literal ['#'] with ⟨_ | _, c₁⟩
  · dsimp only
    rw [literal_onLine]
    rcases c₁.literal ['r', 'g', 'b', 'a'] with ⟨_ | _, c₂⟩
    · dsimp only
      rw [literal_onLine]
      rcases c₂.literal ['r', 'g', 'b'] with ⟨_ | _, c₃⟩
      · exact lineless_colorName c₃ line
      · exact lineless_colorChannels 3 _ c₃ line
    · exact lineless_colorChannels 4 _ c₂ line
  · exact lineless_colorDigits c₁ line

theorem lineless_braced {α : Type} (build : List Single → Option α) (form : String) :
    Scan.Lineless (braced build form) := by
  refine (lineless_bracketed lineless_float advances_float ['\x7b'] ['\x7d']).andThen
    (fun c e c' h => ?_) fun c numbers c' line h h' => ?_
  · rw [braced, h]
  · rw [braced, braced, h, h']
    dsimp only
    split
    · exact .ok _
    · exact .error _ _

/-! ## Fonts -/

theorem lineless_upToChars (stop : Char → Bool) : Scan.Lineless (upToChars stop) :=
  fun c line => (lineless_someRun (!stop ·) "text before the delimiter" c line).map
    fun cs => String.ofList (trimEnd cs)

theorem lineless_fontFamily (size : Single) : Scan.Lineless (fontFamily size) := by
  refine (lineless_upToChars isBlank).andThen (fun c e c' h => ?_) fun c family c' line h h' => ?_
  · rw [fontFamily, h]
  · rw [fontFamily, fontFamily, h, h']
    dsimp only
    rw [atEnd_onLine]
    rcases c'.atEnd with ⟨_ | _, c''⟩
    · exact (lineless_float c'' line).map fun size => (⟨some family, size⟩ : Font)
    · exact .ok _

/-- A size that cannot be read is left out on any line. -/
theorem lineless_fontParts : Scan.Lineless fontParts := by
  intro c line
  unfold fontParts
  rcases (lineless_float c line).cases with ⟨e, e', c', hrun, hrun'⟩ | ⟨size, c', hrun, hrun'⟩ <;>
    rw [hrun, hrun'] <;> dsimp only <;> rw [atEnd_onLine]
  all_goals
    rcases c'.atEnd with ⟨_ | _, c''⟩
    · exact lineless_fontFamily _ c'' line
    · exact .ok _

theorem lineless_font : Scan.Lineless font := by
  refine lineless_fontParts.andThen (fun c e c' h => ?_) fun c f c' line h h' => ?_
  · rw [font, h]
  · rw [font, font, h, h']
    dsimp only
    rw [atEnd_onLine]
    rcases c'.atEnd with ⟨_ | _, c''⟩
    · exact .error _ _
    · dsimp only
      split
      · exact .error _ _
      · exact .ok _

end Cursor

theorem Keywords.lineless_scan {α : Type} (k : Keywords α) : Scan.Lineless k.scan := by
  intro c line
  unfold Keywords.scan
  rw [show (c.onLine line).run isIdentifierChar =
    ((c.run isIdentifierChar).1, (c.run isIdentifierChar).2.onLine line) from rfl]
  dsimp only
  split
  · exact .ok _
  · exact .error _ _

/-! ## Setters -/

namespace ViewClass

variable {V α : Type} (cls : ViewClass V) (name : String) {kind : Kind α}

theorem lineless_property (h : Scan.Lineless kind.scan) (change : V → α → V) :
    Scan.Lineless (cls.property name kind change).setter.scan :=
  fun c line => (h c line).map kind.inject

theorem lineless_attachedProperty (h : Scan.Lineless kind.scan)
    (change : Surroundings → V → α → List Event × Except Error Unit × V) :
    Scan.Lineless (cls.attachedProperty name kind change).setter.scan :=
  fun c line => (h c line).map kind.inject

end ViewClass

namespace Catalogue

open Cursor ViewClass in
/-- **Every stock setter** reads its text in the same way on any line. -/
theorem lineless_stock : stock.Keeps fun _ s => Scan.Lineless s.scan := by
  refine keeps_stock (forall_stockProperties ?_ ?_ ?_ ?_ ?_ ?_)
  · simp only [containerProperties, List.forall_mem_cons]
    and_intros <;> first
      | exact lineless_property _ _ lineless_float _
      | exact lineless_property _ _ lineless_color _
      | exact lineless_property _ _ lineless_flag _
      | exact lineless_property _ _ (lineless_braced _ _) _
      | exact lineless_attachedProperty _ _ lineless_identifier _
      | exact List.forall_mem_nil _
  · simp only [controlProperties, List.forall_mem_cons]
    and_intros <;> first
      | exact lineless_property _ _ lineless_flag _
      | exact List.forall_mem_nil _
  · simp only [labelProperties, List.forall_mem_cons]
    and_intros <;> first
      | exact lineless_property _ _ (fun _ _ => .ok _) _
      | exact lineless_property _ _ lineless_font _
      | exact lineless_property _ _ lineless_color _
      | exact lineless_property _ _ (Keywords.lineless_scan _) _
      | exact lineless_property _ _ lineless_whole _
      | exact List.forall_mem_nil _
  · simp only [buttonProperties, List.forall_mem_cons]
    and_intros <;> first
      | exact lineless_property _ _ (fun _ _ => .ok _) _
      | exact lineless_property _ _ lineless_color _
      | exact lineless_property _ _ (lineless_braced _ _) _
      | exact lineless_property _ _ lineless_flag _
      | exact List.forall_mem_nil _
  · simp only [stackProperties, List.forall_mem_cons]
    and_intros <;> first
      | exact lineless_property _ _ (lineless_braced _ _) _
      | exact lineless_property _ _ lineless_float _
      | exact lineless_property _ _ (Keywords.lineless_scan _) _
      | exact List.forall_mem_nil _
  · simp only [textFieldProperties, List.forall_mem_cons]
    and_intros <;> first
      | exact lineless_property _ _ (fun _ _ => .ok _) _
      | exact lineless_property _ _ lineless_font _
      | exact lineless_property _ _ lineless_color _
      | exact lineless_property _ _ (Keywords.lineless_scan _) _
      | exact lineless_property _ _ lineless_flag _
      | exact lineless_attachedProperty _ _ lineless_identifier _
      | exact List.forall_mem_nil _

theorem effect?_eq {c : Catalogue} (h : c.Keeps fun _ s => Scan.Lineless s.scan)
    (className property value : String) (line other : Nat) :
    c.effect? className property ⟨value, line⟩ = c.effect? className property ⟨value, other⟩ := by
  unfold effect?
  cases hs : c.setter? className property with
  | none => rfl
  | some s =>
    have hstart : Cursor.start value other = (Cursor.start value line).onLine other := rfl
    dsimp only
    rw [hstart]
    rcases (h.setter? hs (.start value line) other).cases with
      ⟨e, e', c', hrun, hrun'⟩ | ⟨a, c', hrun, hrun'⟩ <;> rw [hrun, hrun']

end Catalogue

/-! ## Texts by name -/

/-- The keys of a declaration with their texts, in their order. -/
def Declaration.texts (d : Declaration) : List (String × String) :=
  d.properties.entries.map fun p => (p.1, p.2.value)

/-- The keys that are stated under a name, with their texts.  An undeclared name has none. -/
def Document.texts (doc : Document) (name : String) : List (String × String) :=
  ((doc.get? name).map Declaration.texts).getD []

namespace Declaration

variable (d : Declaration) (data : DataBindings)

theorem find_texts (key : String) :
    NameMap.find key d.texts = (d.property? key).map (·.value) :=
  NameMap.find_map (fun p : PropertyText => p.value) key d.properties.entries

theorem filled?_texts (key : String) : (d.filled? key data).map (·.value) =
    (NameMap.find key d.texts).map (fill data) := by
  rw [find_texts, filled?, Option.map_map, Option.map_map]
  rfl

theorem setterKeys_texts : d.setterKeys = (d.texts.map (·.1)).filter (· ≠ classKey) := by
  rw [setterKeys, texts, List.map_map]
  rfl

/-- What texts do to a view, one after the other. -/
def putTexts (c : Catalogue) (className : String) (data : DataBindings)
    (texts : List (String × String)) (v : View) : View :=
  ((texts.map (·.1)).filter (· ≠ classKey)).foldl (fun v key =>
    ((NameMap.find key texts).bind fun value =>
      c.effect? className key ⟨fill data value, 0⟩).elim v (· v)) v

theorem puts_eq {c : Catalogue} (h : c.Keeps fun _ s => Scan.Lineless s.scan) (className : String)
    (v : View) : d.puts c className data d.setterKeys v = putTexts c className data d.texts v := by
  rw [puts, putTexts, ← setterKeys_texts]
  congr 1
  funext v key
  have heffect : d.effect? c className data key = (NameMap.find key d.texts).bind fun value =>
      c.effect? className key ⟨fill data value, 0⟩ := by
    rw [effect?, filled?, find_texts]
    cases d.property? key with
    | none => rfl
    | some p => exact c.effect?_eq h className key (fill data p.value) p.line 0
  rw [put, heffect]
  cases (NameMap.find key d.texts).bind fun value =>
    c.effect? className key ⟨fill data value, 0⟩ <;> rfl

end Declaration

namespace Document

/-- The texts of all names tell the texts of each. -/
theorem texts_eq (doc : Document) (name : String) : doc.texts name =
    (NameMap.find name (doc.declarations.entries.map fun p => (p.1, p.2.texts))).getD [] := by
  rw [NameMap.find_map Declaration.texts]
  rfl

theorem className?_texts (doc : Document) (name : String) :
    (doc.get? name).bind (·.className?) = NameMap.find Declaration.classKey (doc.texts name) := by
  rw [texts]
  cases doc.get? name with
  | none => rfl
  | some d => exact (d.find_texts _).symm

end Document

namespace Definition

/-- **What the properties of a name make of a view** depends on their texts alone. -/
theorem puts_texts {d : Definition} (h : d.catalogue.Keeps fun _ s => Scan.Lineless s.scan)
    (data : DataBindings) (name : String) (v : View) : d.puts (·.setterKeys) data name v =
      Declaration.putTexts d.catalogue v.className data (d.document.texts name) v := by
  rw [puts, Document.texts]
  cases d.document.get? name with
  | none => rfl
  | some decl => exact decl.puts_eq data h v.className v

end Definition

end ViewSheet
