/-
  One line: no summary of a view goes on to a second line.

  1. **Program**: a summary is put together from numbers, colours, fixed words and texts.  Most
     texts are quoted, and a quoted text keeps to its line.  A few are shown as they are: the
     family of a label's font, the name of a text field's accessory, and the name of a class.

  2. **The crux** (`View.terse_iff`): it is these bare texts alone that can break a line.  Setters
     read them from a text up to the first blank or as an identifier, so that whatever stands in a
     sheet or in the data, no line feed comes in (`upholds_stock`).

  3. **Result** (`History.terse`): whatever a host does with scenes of the stock classes, no view
     has a summary of several lines, unless the host brings one along.
-/
import ViewSheet.Proofs.Pieces
import ViewSheet.Proofs.Upkeep
import ViewSheet.Studio.Tree

namespace ViewSheet

open Text

/-! ## Texts on one line -/

/-- No line feed stands in a text. -/
def OneLine (s : String) : Prop := '\n' ∉ s.toList

instance (s : String) : Decidable (OneLine s) := inferInstanceAs (Decidable ('\n' ∉ s.toList))

theorem oneLine_append {a b : String} : OneLine (a ++ b) ↔ OneLine a ∧ OneLine b := by
  rw [OneLine, String.toList_append, List.mem_append, not_or]
  rfl

theorem OneLine.append {a b : String} (ha : OneLine a) (hb : OneLine b) : OneLine (a ++ b) :=
  oneLine_append.mpr ⟨ha, hb⟩

theorem OneLine.ofList {cs : List Char} (h : '\n' ∉ cs) : OneLine (String.ofList cs) := by
  rw [OneLine, String.toList_ofList]
  exact h

theorem OneLine.intercalate {sep : String} (hsep : OneLine sep) {parts : List String}
    (h : ∀ part ∈ parts, OneLine part) : OneLine (sep.intercalate parts) := by
  induction parts with
  | nil =>
    rw [String.intercalate_nil]
    decide
  | cons part rest ih =>
    have hpart := h part List.mem_cons_self
    cases rest with
    | nil =>
      rw [String.intercalate_singleton]
      exact hpart
    | cons next rest =>
      rw [String.intercalate_cons_cons]
      exact .append (.append hpart hsep) (ih fun p hp => h p (List.mem_cons_of_mem part hp))

theorem oneLine_quoted (s : String) : OneLine (quoted s) :=
  .ofList (lineFeed_not_mem_quote s.toList)

theorem oneLine_toString (n : Nat) : OneLine (toString n) := by
  intro h
  rw [Nat.toString_eq_ofList_toDigits, String.toList_ofList] at h
  exact absurd (Nat.isDigit_of_mem_toDigits (by decide) (Nat.le_refl 10) h) (by decide)

/-! ## Numbers and colours -/

namespace Binary

variable {f : BinaryFormat}

theorem oneLine_padded (width n : Nat) : OneLine (padded width n) := by
  refine .append (.ofList fun h => ?_) (oneLine_toString n)
  exact absurd (List.eq_of_mem_replicate h) (by decide)

theorem oneLine_positional (point : Nat) (k : Int) : OneLine (positional point k) := by
  unfold positional
  dsimp only
  split
  · exact oneLine_toString _
  · exact .append (.append (oneLine_toString _) (by decide)) (oneLine_padded _ _)

theorem oneLine_text (a : Binary f) : OneLine a.text := by
  unfold text
  dsimp only
  split
  · decide
  · have hdigits : OneLine (if a.isInfinite = true then "inf" else if a.magnitude = 0 then "0"
        else positional a.shortest.1 a.shortest.2) := by
      split
      · decide
      · split
        · decide
        · exact oneLine_positional _ _
    split
    · exact .append (by decide) hdigits
    · exact hdigits

end Binary

theorem Color.oneLine_hex (c : Color) : OneLine c.hex := by
  refine .ofList fun h => ?_
  rcases List.mem_cons.mp h with h | h
  · exact absurd h (by decide)
  · obtain ⟨x, -, hx⟩ := List.mem_flatMap.mp h
    exact lineFeed_not_mem_hexDigits _ 2 hx

theorem oneLine_fourNumbers (a b c d : Single) : OneLine (fourNumbers a b c d) := by
  simp only [fourNumbers, oneLine_append]
  and_intros <;> first
    | decide
    | exact Binary.oneLine_text _

/-! ## Parts of a summary -/

theorem forall_partIf {present : Bool} {part : String} (h : OneLine part) :
    ∀ p ∈ partIf present part, OneLine p := by
  cases present with
  | false => exact List.forall_mem_nil _
  | true => exact List.forall_mem_singleton.mpr h

theorem forall_colorPart {label : String} (h : OneLine label) (color : Option Color) :
    ∀ p ∈ colorPart label color, OneLine p := by
  cases color with
  | none => exact List.forall_mem_nil _
  | some c => exact List.forall_mem_singleton.mpr (h.append c.oneLine_hex)

theorem Container.forall_parts (c : Container) : ∀ p ∈ c.parts, OneLine p := by
  have hborder : OneLine s!"border={c.borderWidth.text} " :=
    .append (.append (by decide) (Binary.oneLine_text _)) (by decide)
  simp only [parts, List.forall_mem_append]
  and_intros
  · exact List.forall_mem_singleton.mpr (.append (by decide) (oneLine_fourNumbers _ _ _ _))
  · exact forall_colorPart (by decide) _
  · exact forall_colorPart (by decide) _
  · exact forall_colorPart hborder _
  · exact forall_partIf (.append (by decide) (Binary.oneLine_text _))
  · exact forall_partIf (.append (by decide) (oneLine_fourNumbers _ _ _ _))
  · exact forall_partIf (.append (by decide) (Binary.oneLine_text _))
  · exact forall_partIf (by decide)
  · exact forall_partIf (by decide)
  · exact forall_partIf (by decide)

theorem Container.oneLine_summary (c : Container) : OneLine c.summary :=
  .intercalate (by decide) c.forall_parts

theorem Control.oneLine_summary (c : Control) : OneLine c.summary := by
  refine .intercalate (by decide) ?_
  simp only [List.forall_mem_append]
  exact ⟨⟨c.base.forall_parts, forall_partIf (by decide)⟩, forall_partIf (by decide)⟩

theorem Button.oneLine_summary (b : Button) : OneLine b.summary := by
  have htitle : OneLine ("title=" ++ quoted b.title) := .append (by decide) (oneLine_quoted _)
  refine .intercalate (by decide) ?_
  simp only [List.forall_mem_append]
  refine ⟨⟨⟨b.label.base.forall_parts, List.forall_mem_singleton.mpr htitle⟩, ?_⟩,
    forall_partIf (by decide)⟩
  cases b.highlightTitle with
  | none => exact List.forall_mem_nil _
  | some t => exact List.forall_mem_singleton.mpr (.append (by decide) (oneLine_quoted t))

theorem Stack.oneLine_summary (s : Stack) : OneLine s.summary := by
  have hdirection : OneLine s.direction.name := by cases s.direction <;> decide
  have halignment : OneLine s.alignment.name := by cases s.alignment <;> decide
  simp only [summary, oneLine_append]
  exact ⟨⟨⟨⟨⟨⟨s.base.oneLine_summary, by decide⟩, hdirection⟩, by decide⟩, Binary.oneLine_text _⟩,
    by decide⟩, halignment⟩

/-! ## What can break a line -/

/-- The texts that a summary shows as they are. -/
def StockView.bare : StockView → List String
  | .label l => l.font.family.toList
  | .textField t => t.accessory.toList
  | _ => []

/-- The texts that a class name and a summary show as they are. -/
def View.bare : View → List String
  | .stock v => v.bare
  | .host h => [h.className]

/-- A view whose class and state fit on one line. -/
def View.Terse (v : View) : Prop := OneLine v.className ∧ OneLine v.summary

theorem Label.oneLine_summary_iff {l : Label} :
    OneLine l.summary ↔ ∀ family ∈ l.font.family.toList, OneLine family := by
  have hfont : OneLine l.font.text ↔ ∀ family ∈ l.font.family.toList, OneLine family := by
    rw [Font.text, oneLine_append, oneLine_append]
    cases l.font.family with
    | none =>
      exact iff_of_true ⟨⟨Binary.oneLine_text _, by decide⟩, by decide⟩ (List.forall_mem_nil _)
    | some family =>
      exact (and_iff_right ⟨Binary.oneLine_text _, by decide⟩).trans List.forall_mem_singleton.symm
  rw [← hfont]
  simp only [summary, oneLine_append]
  constructor
  · exact fun h => h.1.1.2
  · exact fun h => ⟨⟨⟨⟨⟨⟨l.base.oneLine_summary, by decide⟩, oneLine_quoted _⟩, by decide⟩, h⟩,
      by decide⟩, Color.oneLine_hex _⟩

theorem TextField.oneLine_summary_iff {t : TextField} :
    OneLine t.summary ↔ ∀ name ∈ t.accessory.toList, OneLine name := by
  have hfront : OneLine
      s!"{t.control.summary} text={quoted t.shown} placeholder={quoted t.placeholder}" := by
    simp only [oneLine_append]
    exact ⟨⟨⟨⟨t.control.oneLine_summary, by decide⟩, oneLine_quoted _⟩, by decide⟩,
      oneLine_quoted _⟩
  rw [summary]
  cases t.accessory with
  | none =>
    refine iff_of_true ?_ (List.forall_mem_nil _)
    exact hfront.append (by decide)
  | some name =>
    rw [oneLine_append, and_iff_right hfront]
    exact oneLine_append.trans ((and_iff_right (by decide)).trans List.forall_mem_singleton.symm)

/-- **Bare texts alone can break a line.** -/
theorem View.terse_iff {v : View} : v.Terse ↔ ∀ s ∈ v.bare, OneLine s := by
  cases v with
  | host h =>
    exact (and_iff_left h.core.base.oneLine_summary).trans List.forall_mem_singleton.symm
  | stock v =>
    have hname : OneLine v.className := by
      cases v <;> simp only [StockView.className] <;> decide
    refine (and_iff_right hname).trans ?_
    cases v with
    | container c => exact iff_of_true c.oneLine_summary (List.forall_mem_nil _)
    | control c => exact iff_of_true c.oneLine_summary (List.forall_mem_nil _)
    | button b => exact iff_of_true b.oneLine_summary (List.forall_mem_nil _)
    | stack s => exact iff_of_true s.oneLine_summary (List.forall_mem_nil _)
    | label l => exact Label.oneLine_summary_iff
    | textField t => exact TextField.oneLine_summary_iff

theorem View.Terse.of_bare {v v' : View} (hv : v.Terse) (h : v'.bare = v.bare) : v'.Terse := by
  rw [terse_iff] at hv ⊢
  rw [h]
  exact hv

/-! ## What setters read -/

namespace Cursor

/-- A run holds characters of its class alone. -/
theorem not_mem_of_someRun {p : Char → Bool} {what : String} {c c' : Cursor} {cs : List Char}
    (h : someRun p what c = (.ok cs, c')) {x : Char} (hx : p x = false) : x ∉ cs := by
  simp only [someRun] at h
  split at h
  · cases h
  · rw [Prod.mk.injEq, Except.ok.injEq] at h
    intro hmem
    rw [← h.1] at hmem
    rw [List.mem_takeWhile_imp hmem] at hx
    cases hx

theorem oneLine_identifier {c : Cursor} {s : String} (h : (identifier c).1 = .ok s) :
    OneLine s := by
  unfold identifier at h
  rcases hrun : someRun isIdentifierChar "an identifier" c with ⟨e | cs, c'⟩
  · rw [hrun] at h
    cases h
  · rw [hrun] at h
    rw [← Except.ok.inj h]
    exact .ofList (not_mem_of_someRun hrun (by decide))

/-- A text up to a blank goes on to no second line, since a line feed is a blank. -/
theorem oneLine_upToChars {c c' : Cursor} {s : String} (h : upToChars isBlank c = (.ok s, c')) :
    OneLine s := by
  unfold upToChars at h
  rcases hrun : someRun (!isBlank ·) "text before the delimiter" c with ⟨e | cs, c''⟩
  · rw [hrun] at h
    cases h
  · rw [hrun] at h
    rw [← Except.ok.inj (congrArg Prod.fst h)]
    obtain ⟨blanks, hread, -⟩ := trimEnd_append_blanks cs
    refine .ofList fun hfeed => not_mem_of_someRun hrun (x := '\n') (by decide) ?_
    rw [hread]
    exact List.mem_append_left blanks hfeed

theorem oneLine_fontFamily {size : Single} {c : Cursor} {f : Font}
    (h : (fontFamily size c).1 = .ok f) : ∀ family ∈ f.family.toList, OneLine family := by
  unfold fontFamily at h
  split at h
  · cases h
  · rename_i family c₁ hfamily
    have hone := oneLine_upToChars hfamily
    split at h
    · rw [Except.ok.injEq] at h
      rw [← h]
      exact List.forall_mem_singleton.mpr hone
    · rename_i c₂ _
      dsimp only at h
      cases hsize : (float c₂).1 with
      | error e =>
        rw [hsize] at h
        cases h
      | ok size =>
        rw [hsize, Except.map, Except.ok.injEq] at h
        rw [← h]
        exact List.forall_mem_singleton.mpr hone

theorem oneLine_fontParts {c : Cursor} {f : Font} (h : (fontParts c).1 = .ok f) :
    ∀ family ∈ f.family.toList, OneLine family := by
  unfold fontParts at h
  dsimp only at h
  split at h
  · rw [Except.ok.injEq] at h
    rw [← h]
    exact List.forall_mem_nil _
  · exact oneLine_fontFamily h

end Cursor

theorem Kind.Reads.oneLine_family {f : Font} (h : Kind.font.Reads f) :
    ∀ family ∈ f.family.toList, OneLine family := by
  obtain ⟨cursor, hscan⟩ := h
  change (Cursor.font cursor).1 = .ok f at hscan
  unfold Cursor.font at hscan
  split at hscan
  · cases hscan
  · rename_i g c hparts
    split at hscan
    · cases hscan
    · split at hscan
      · cases hscan
      · rw [Except.ok.injEq] at hscan
        rw [← hscan]
        exact Cursor.oneLine_fontParts (congrArg Prod.fst hparts)

/-! ## What setters change -/

namespace ViewClass

variable {V α : Type} {cls : ViewClass V} {name : String} {kind : Kind α} {change : V → α → V}

/-- A property that leaves bare texts alone. -/
theorem upholds_terse_property
    (h : ∀ v p a, cls.get? v = some p → (cls.set v (change p a)).bare = v.bare) :
    (cls.property name kind change).setter.Upholds View.Terse :=
  upholds_property fun v p a _ hp hv => hv.of_bare (h v p a hp)

theorem bare_set_container (v : View) (c : Container) : (container.set v c).bare = v.bare := by
  rcases v with ⟨⟨⟩⟩ | _ <;> rfl

theorem bare_set_control (v : View) (c : Control) : (control.set v c).bare = v.bare := by
  rcases v with ⟨⟨⟩⟩ | _ <;> rfl

/-- Of a label, the family of the font counts; a button does not show its font. -/
theorem bare_set_label {v : View} {l l' : Label} (hv : label.get? v = some l)
    (hfont : l'.font = l.font) : (label.set v l').bare = v.bare := by
  rcases v with ⟨⟨⟩⟩ | _
  case stock.label =>
    cases hv
    show l'.font.family.toList = l.font.family.toList
    rw [hfont]
  all_goals rfl

theorem bare_set_button (v : View) (b : Button) : (button.set v b).bare = v.bare := by
  rcases v with ⟨⟨⟩⟩ | _ <;> rfl

theorem bare_set_stack (v : View) (s : Stack) : (stack.set v s).bare = v.bare := by
  rcases v with ⟨⟨⟩⟩ | _ <;> rfl

theorem bare_set_textField {v : View} {t t' : TextField} (hv : textField.get? v = some t)
    (haccessory : t'.accessory = t.accessory) : (textField.set v t').bare = v.bare := by
  rcases v with ⟨⟨⟩⟩ | _
  case stock.textField =>
    cases hv
    show t'.accessory.toList = t.accessory.toList
    rw [haccessory]
  all_goals rfl

end ViewClass

open ViewClass

theorem View.Terse.set_label {v : View} {l' : Label} (hv : v.Terse)
    (hfamily : ∀ family ∈ l'.font.family.toList, OneLine family) :
    (ViewClass.label.set v l').Terse := by
  rcases v with ⟨⟨⟩⟩ | _
  case stock.label => exact View.terse_iff.mpr hfamily
  case stock.button => exact View.terse_iff.mpr (List.forall_mem_nil _)
  -- no other view shows the font of a label
  all_goals exact hv.of_bare rfl

theorem View.Terse.set_textField {v : View} {t' : TextField} (hv : v.Terse)
    (haccessory : ∀ name ∈ t'.accessory.toList, OneLine name) :
    (ViewClass.textField.set v t').Terse := by
  rcases v with ⟨⟨⟩⟩ | _
  case stock.textField => exact View.terse_iff.mpr haccessory
  all_goals exact hv.of_bare rfl

/-- An accessory is noted under the name that was read, or not at all. -/
theorem accessory_of_attachAccessory (around : Surroundings) (t : TextField) (name : String) :
    (attachAccessory around t name).2.2 = { t with accessory := some name } ∨
      (attachAccessory around t name).2.2 = t := by
  unfold attachAccessory
  split
  · exact Or.inl rfl
  · exact Or.inr rfl

namespace Catalogue

/-- The family of a font is read up to a blank. -/
theorem upholds_terse_font :
    (label.property "font" .font fun l f => { l with font := f }).setter.Upholds View.Terse :=
  upholds_property fun _ _ _ hread _ hv => hv.set_label hread.oneLine_family

theorem upholds_terse_matchSize :
    (container.attachedProperty "matchSize" .identifier matchSize).setter.Upholds View.Terse :=
  upholds_attachedProperty fun _ v _ _ _ _ hv => hv.of_bare (bare_set_container v _)

/-- The name of an accessory is read as an identifier. -/
theorem upholds_terse_accessory :
    (textField.attachedProperty "inputAccessoryView" .identifier attachAccessory).setter.Upholds
      View.Terse := by
  refine upholds_attachedProperty fun around v t name hread ht hv => ?_
  obtain ⟨cursor, hscan⟩ := hread
  have hname : OneLine name := Cursor.oneLine_identifier hscan
  rcases accessory_of_attachAccessory around t name with h | h <;> rw [h]
  · exact hv.set_textField (List.forall_mem_singleton.mpr hname)
  · exact hv.of_bare (bare_set_textField ht rfl)

theorem keeps_terse_stock : stock.Keeps fun _ s => s.Upholds View.Terse := by
  refine keeps_stock (forall_stockProperties ?_ ?_ ?_ ?_ ?_ ?_)
  · simp only [containerProperties, List.forall_mem_cons]
    and_intros <;> first
      | exact upholds_terse_matchSize
      | exact upholds_terse_property fun v _ _ _ => bare_set_container v _
      | exact List.forall_mem_nil _
  · simp only [controlProperties, List.forall_mem_cons]
    and_intros <;> first
      | exact upholds_terse_property fun v _ _ _ => bare_set_control v _
      | exact List.forall_mem_nil _
  · simp only [labelProperties, List.forall_mem_cons]
    and_intros <;> first
      | exact upholds_terse_property fun _ _ _ h => bare_set_label h rfl
      | exact upholds_terse_font
      | exact List.forall_mem_nil _
  · simp only [buttonProperties, List.forall_mem_cons]
    and_intros <;> first
      | exact upholds_terse_property fun v _ _ _ => bare_set_button v _
      | exact List.forall_mem_nil _
  · simp only [stackProperties, List.forall_mem_cons]
    and_intros <;> first
      | exact upholds_terse_property fun v _ _ _ => bare_set_stack v _
      | exact List.forall_mem_nil _
  · simp only [textFieldProperties, List.forall_mem_cons]
    and_intros <;> first
      | exact upholds_terse_accessory
      | exact upholds_terse_property fun _ _ _ h => bare_set_textField h rfl
      | exact List.forall_mem_nil _

theorem makes_terse_stock : stock.Makes View.Terse :=
  have hblank : ∀ {v : View}, v.bare = [] → v.Terse := fun h =>
    View.terse_iff.mpr (h ▸ List.forall_mem_nil _)
  makes_stock (hblank rfl) (hblank rfl) (hblank rfl) (hblank rfl) (hblank rfl)

/-- **The stock classes keep every view on its line.** -/
theorem upholds_stock : stock.Upholds View.Terse where
  makes := makes_terse_stock
  sets := keeps_terse_stock
  attaches v _ hv := hv.of_bare (bare_set_container v _)

end Catalogue

/-! ## Hosts -/

/-- A deed with the stock classes alone.  What views the host makes or changes by its own means keep
    to their lines. -/
def Deed.Modest : Deed → Prop
  | create v => v.Terse
  | edit _ v => v.Terse
  | load d _ _ _ => d.catalogue = .stock
  | _ => True

theorem Deed.Modest.brings {deed : Deed} (h : deed.Modest) : deed.Brings View.Terse := by
  cases deed with
  | create v => exact h
  | edit id v => exact h
  | load d root data views =>
    rw [Deed.Brings, show d.catalogue = .stock from h]
    exact Catalogue.upholds_stock
  | attach i container => trivial
  | update i change => trivial

/-- **No view goes on to a second line**, whatever stands in the sheets and in the data. -/
theorem History.terse {start h : Host} {past : List Entry} (hpast : History start past h)
    (hstart : start.All View.Terse) (hmodest : ∀ e ∈ past, e.deed.Modest) :
    h.world.All View.Terse :=
  (hpast.all hstart fun e he => (hmodest e he).brings).views

end ViewSheet
