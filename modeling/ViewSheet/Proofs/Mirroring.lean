/-
  Mirroring: what labels and buttons can be relied on for, whatever is set on them.

  1. **Program**: the normal title of a button is also the text of the label in it
     (`Button.withTitle`).  A button has the properties of labels too, and `text` is one of them,
     with a setter that knows nothing of titles.

  2. **Specification**: a view `Mirrors` if its title and its label agree, when it is a button, and
     is `Lined` if it has no negative number of lines, when it is a label or a button.

  3. **The crux** (`setter?_button_text`): a button is nearer to itself than a label, so its `text`
     always goes to the setter that changes both.  This is said of views and their properties
     (`preserves_mirrors`); of setters alone it would not hold.

  4. **Result** (`coherent_of_builds`): the views that scenes build keep to both, through every
     history of loads, attach calls and updates.
-/
import ViewSheet.Proofs.Veiling

namespace ViewSheet

open ViewClass

namespace View

/-! ## Titles and lines -/

/-- A button's label shows the button's title. -/
def Mirrors (v : View) : Prop := ∀ b, ViewClass.button.get? v = some b → b.title = b.label.text

/-- A label has a number of lines, or 0 if there is no limit. -/
def Lined (v : View) : Prop := ∀ l, ViewClass.label.get? v = some l → 0 ≤ l.numberOfLines

/-- The title of a button, and the text of its label. -/
def faces (v : View) : Option (String × String) :=
  (ViewClass.button.get? v).map fun b => (b.title, b.label.text)

/-- The number of lines of a label. -/
def lines (v : View) : Option Int := (ViewClass.label.get? v).map (·.numberOfLines)

theorem mirrors_iff {v : View} : v.Mirrors ↔ ∀ p, v.faces = some p → p.1 = p.2 := by
  simp [Mirrors, faces]

theorem lined_iff {v : View} : v.Lined ↔ ∀ n, v.lines = some n → 0 ≤ n := by
  simp [Lined, lines]

theorem Mirrors.of_faces {v v' : View} (h : v'.faces = v.faces) (hv : v.Mirrors) : v'.Mirrors := by
  rw [mirrors_iff] at hv ⊢
  rwa [h]

theorem Lined.of_lines {v v' : View} (h : v'.lines = v.lines) (hv : v.Lined) : v'.Lined := by
  rw [lined_iff] at hv ⊢
  rwa [h]

/-- Only properties of labels and buttons have to do with what `f` shows of a view. -/
structure LabelAspect {β : Type} (f : View → β) : Prop where
  container : ∀ v c, f (ViewClass.container.set v c) = f v
  control : ∀ v c, f (ViewClass.control.set v c) = f v
  stack : ∀ v s, f (ViewClass.stack.set v s) = f v
  textField : ∀ v t, f (ViewClass.textField.set v t) = f v

theorem labelAspect_faces : LabelAspect faces := by
  constructor <;> intro v p <;> rcases v with ⟨⟨⟩⟩ | ⟨_, ⟨⟩, _⟩ <;> rfl

theorem labelAspect_lines : LabelAspect lines := by
  constructor <;> intro v p <;> rcases v with ⟨⟨⟩⟩ | ⟨_, ⟨⟩, _⟩ <;> rfl

theorem exists_button_of_form {v : View} (h : v.form = stock (.button {})) :
    ∃ b, v = stock (.button b) := by
  rcases v with ⟨⟨⟩⟩ | _
  case stock.button b => exact ⟨b, rfl⟩
  all_goals cases h

/-- A view of a stock class, and not of one that the host has made of it. -/
def IsStock (v : View) : Prop := ∃ u, v = stock u

theorem isStock_form {v : View} : v.form.IsStock ↔ v.IsStock := by
  cases v with
  | stock u => exact iff_of_true ⟨_, rfl⟩ ⟨u, rfl⟩
  | host h => exact iff_of_false (by rintro ⟨_, ⟨⟩⟩) (by rintro ⟨_, ⟨⟩⟩)

end View

namespace ViewClass

theorem faces_set_label {v : View} {l l' : Label} (hv : label.get? v = some l)
    (htext : l'.text = l.text) : (label.set v l').faces = v.faces := by
  rcases v with ⟨⟨⟩⟩ | ⟨_, ⟨⟩, _⟩ <;> cases hv
  case stock.button b =>
    show some (b.title, l'.text) = some (b.title, b.label.text)
    rw [htext]
  case host.button b =>
    show some (b.title, l'.text) = some (b.title, b.label.text)
    rw [htext]
  all_goals rfl

theorem faces_set_button {v : View} {b b' : Button} (hv : button.get? v = some b)
    (htitle : b'.title = b.title) (htext : b'.label.text = b.label.text) :
    (button.set v b').faces = v.faces := by
  have hset : (button.set v b').faces = some (b'.title, b'.label.text) := by
    rcases v with ⟨⟨⟩⟩ | ⟨_, ⟨⟩, _⟩ <;> cases hv <;> rfl
  rw [hset, View.faces, hv, htitle, htext]
  rfl

theorem lines_of_label {v : View} {l : Label} (hv : label.get? v = some l) :
    v.lines = some l.numberOfLines := by
  rw [View.lines, hv]
  rfl

theorem lines_set_label {v : View} {l : Label} (hv : label.get? v = some l) (l' : Label) :
    (label.set v l').lines = some l'.numberOfLines := by
  rcases v with ⟨⟨⟩⟩ | ⟨_, ⟨⟩, _⟩ <;> cases hv <;> rfl

theorem lines_set_button {v : View} {b b' : Button} (hv : button.get? v = some b)
    (hlines : b'.label.numberOfLines = b.label.numberOfLines) :
    (button.set v b').lines = v.lines := by
  rcases v with ⟨⟨⟩⟩ | ⟨_, ⟨⟩, _⟩ <;> cases hv <;> exact congrArg some hlines

end ViewClass

namespace Catalogue

/-! ## What setters change -/

/-- A condition on something that only properties of labels and buttons have to do with is upheld
    by all setters, if it is by theirs. -/
theorem keeps_labelAspect {β : Type} {f : View → β} (hf : View.LabelAspect f) {P : View → Prop}
    (hP : ∀ {v v'}, f v' = f v → P v → P v') (admitted : String → Prop)
    (hlabel : ∀ r ∈ labelProperties, admitted r.property → r.setter.Upholds P)
    (hbutton : ∀ r ∈ buttonProperties, admitted r.property → r.setter.Upholds P) :
    stock.Keeps fun property s => admitted property → s.Upholds P := by
  refine keeps_stock (forall_stockProperties ?_ ?_ hlabel hbutton ?_ ?_)
  · simp only [containerProperties, List.forall_mem_cons]
    and_intros <;> first
      | exact fun _ => upholds_property fun v _ _ _ _ hv => hP (hf.container v _) hv
      | exact fun _ => upholds_attachedProperty fun _ v _ _ _ _ hv => hP (hf.container v _) hv
      | exact List.forall_mem_nil _
  · simp only [controlProperties, List.forall_mem_cons]
    and_intros <;> first
      | exact fun _ => upholds_property fun v _ _ _ _ hv => hP (hf.control v _) hv
      | exact List.forall_mem_nil _
  · simp only [stackProperties, List.forall_mem_cons]
    and_intros <;> first
      | exact fun _ => upholds_property fun v _ _ _ _ hv => hP (hf.stack v _) hv
      | exact List.forall_mem_nil _
  · simp only [textFieldProperties, List.forall_mem_cons]
    and_intros <;> first
      | exact fun _ => upholds_property fun v _ _ _ _ hv => hP (hf.textField v _) hv
      | exact fun _ => upholds_attachedProperty fun _ v _ _ _ _ hv => hP (hf.textField v _) hv
      | exact List.forall_mem_nil _

theorem upholds_lined_numberOfLines :
    (label.property "numberOfLines" .whole fun l n =>
      { l with numberOfLines := max n 0 }).setter.Upholds View.Lined := by
  refine upholds_property fun v l n _ hl _ => View.lined_iff.mpr fun m hm => ?_
  rw [lines_set_label hl, Option.some.injEq] at hm
  exact hm ▸ Int.le_max_right n 0

/-- No setter takes the number of lines below 0. -/
theorem keeps_lined : stock.Keeps fun _ s => s.Upholds View.Lined := by
  suffices hkeeps : stock.Keeps fun _ s => True → s.Upholds View.Lined from
    hkeeps.imp fun _ _ h => h trivial
  refine keeps_labelAspect View.labelAspect_lines View.Lined.of_lines (fun _ => True) ?_ ?_
  · simp only [labelProperties, List.forall_mem_cons]
    and_intros <;> first
      | exact fun _ => upholds_property fun _ _ _ _ hl hv =>
          hv.of_lines ((lines_set_label hl _).trans (lines_of_label hl).symm)
      | exact fun _ => upholds_lined_numberOfLines
      | exact List.forall_mem_nil _
  · simp only [buttonProperties, List.forall_mem_cons]
    and_intros <;> first
      | exact fun _ => upholds_property fun _ _ _ _ hb hv =>
          hv.of_lines (lines_set_button hb rfl)
      | exact List.forall_mem_nil _

/-- No setter parts a title from its label, except that of a text. -/
theorem keeps_mirrors :
    stock.Keeps fun property s => property ≠ "text" → s.Upholds View.Mirrors := by
  refine keeps_labelAspect View.labelAspect_faces View.Mirrors.of_faces (· ≠ "text") ?_ ?_
  · simp only [labelProperties, List.forall_mem_cons]
    and_intros <;> first
      | exact fun h => absurd rfl h
      | exact fun _ => upholds_property fun _ _ _ _ hl hv => hv.of_faces (faces_set_label hl rfl)
      | exact List.forall_mem_nil _
  · simp only [buttonProperties, List.forall_mem_cons]
    and_intros <;> first
      | exact fun h => absurd rfl h
      | exact fun _ => upholds_property fun _ _ _ _ hb hv =>
          hv.of_faces (faces_set_button hb rfl rfl)
      | exact List.forall_mem_nil _

/-! ## The text of a button -/

/-- **The text of a button goes to the button's own setter.** -/
theorem setter?_button_text : stock.setter? "Button" "text" =
    some (button.property "text" .text Button.withTitle).setter := by
  rw [setter?_stock (List.mem_of_getElem? (i := 3) rfl)]
  rfl

/-- That setter changes the title and the label, or neither if its turn is over. -/
theorem mirrors_receive_text (turn : Turn) (cursor : Cursor) {b : Button}
    (hb : (View.stock (.button b)).Mirrors) :
    (stock.receive "text" turn cursor (.stock (.button b))).view.Mirrors := by
  rcases stock.view_receive_cases "text" turn cursor (.stock (.button b)) with
    h | ⟨s, value, hs, hscan, h⟩ <;> rw [h]
  · exact hb
  · rw [show (View.stock (.button b)).className = "Button" from rfl, setter?_button_text,
      Option.some.injEq] at hs
    subst hs
    obtain ⟨title, -, hvalue⟩ := Kind.exists_reads_of_scanValue hscan
    cases turn with
    | attached around => exact hb
    | construction =>
      rw [Setter.handOver_construction, effect_property_of_some hvalue]
      intro b' hb'
      cases hb'
      rfl

/-! ## What stock classes preserve -/

theorem preserves_lined : stock.Preserves View.Lined := by
  have hupholds : stock.Upholds View.Lined := by
    refine ⟨makes_stock ?_ ?_ ?_ ?_ ?_, keeps_lined, fun v child hv => ?_⟩
    · exact fun l hl => by cases hl
    · exact fun l hl => by cases hl; decide
    · exact fun l hl => by cases hl; decide
    · exact fun l hl => by cases hl
    · exact fun l hl => by cases hl
    · exact hv.of_lines (View.labelAspect_lines.container v _)
  exact hupholds.preserves

/-- **A button keeps showing its title**, whatever property it takes.  A class of the host could
    embed a button and hand its text to the setter of labels. -/
theorem preserves_mirrors : stock.Preserves fun v => v.IsStock ∧ v.Mirrors where
  makes := makes_stock ⟨⟨_, rfl⟩, fun _ hb => by cases hb⟩ ⟨⟨_, rfl⟩, fun _ hb => by cases hb⟩
    ⟨⟨_, rfl⟩, fun _ hb => by cases hb; rfl⟩ ⟨⟨_, rfl⟩, fun _ hb => by cases hb⟩
    ⟨⟨_, rfl⟩, fun _ hb => by cases hb⟩
  attaches v child hv := by
    refine ⟨?_, hv.2.of_faces (View.labelAspect_faces.container v _)⟩
    obtain ⟨u, rfl⟩ := hv.1
    exact ⟨_, rfl⟩
  receives property turn cursor v hv := by
    have hform := form_receive property turn cursor v
    have hstock : (stock.receive property turn cursor v).view.IsStock := by
      rw [← View.isStock_form, hform]
      exact View.isStock_form.mpr hv.1
    refine ⟨hstock, ?_⟩
    by_cases htext : property = "text"
    · subst htext
      by_cases hbutton : v.form = .stock (.button {})
      · obtain ⟨b, rfl⟩ := View.exists_button_of_form hbutton
        exact mirrors_receive_text turn cursor hv.2
      · -- what was no button has not become one
        intro b hb
        rw [← hform] at hbutton
        obtain ⟨u, hu⟩ := hstock
        rw [hu] at hb hbutton
        cases u with
        | button _ => exact absurd rfl hbutton
        | _ => cases hb
    · rcases stock.view_receive_cases property turn cursor v with h | ⟨s, value, hs, hscan, h⟩ <;>
        rw [h]
      · exact hv.2
      · exact keeps_mirrors.setter? hs htext cursor value hscan turn v hv.2

end Catalogue

/-! ## Views that scenes build -/

/-- **Titles and lines can be relied on.**  Whatever loads, attach calls and updates a host goes
    through, with whatever documents and data, and whether or not they succeed: a view that a scene
    of the stock classes has built shows its title in its label if it is a button, and has no
    negative number of lines if it is a label or a button.  The host may do as it likes with all
    other views. -/
theorem coherent_of_builds {start h : Host} {past : List Entry} (hpast : History start past h)
    (hstart : ∀ s ∈ start.scenes, s.definition.catalogue = .stock)
    (hloads : ∀ e ∈ past, ∀ d root data views, e.deed = .load d root data views →
      d.catalogue = .stock)
    {id : ViewId} (hbuilt : ∃ e ∈ past, e.Builds id)
    (hleft : ∀ e ∈ past, ∀ v, e.deed ≠ .edit id v) :
    ∃ v, h.world.store.get? id = some v ∧
      (∀ b, button.get? v = some b → b.title = b.label.text) ∧
      ∀ l, label.get? v = some l → 0 ≤ l.numberOfLines := by
  have hpreserves : ∀ {c : Catalogue}, c = .stock →
      c.Preserves fun v => (v.IsStock ∧ v.Mirrors) ∧ v.Lined := by
    rintro c rfl
    exact Catalogue.preserves_mirrors.and Catalogue.preserves_lined
  obtain ⟨hhas, hmeets⟩ := hpast.meets_of_builds (fun s hs => hpreserves (hstart s hs))
    (fun e he d root data views heq => hpreserves (hloads e he d root data views heq)) hbuilt hleft
  obtain ⟨v, hv⟩ := ViewStore.has_iff.mp hhas
  obtain ⟨⟨-, hmirrors⟩, hlined⟩ := hmeets v hv
  exact ⟨v, hv, hmirrors, hlined⟩

/-! ## A button that has seen failures -/

/-- A button with three texts to be filled in, the last of which can be no number. -/
def pressed : Definition where
  document := (parseInto (.empty "sheet")
    ("Main:\n  Go\nGo:\n  .class = Button\n  .numberOfLines = #\x7bn\x7d\n  .text = #\x7bt\x7d\n"
      ++ "  .alpha = #\x7ba\x7d\n")).document
  catalogue := .stock
  listener := none

/-- What is filled in. -/
def pressedData (text alpha : String) : DataBindings :=
  .ofList [("n", "-3"), ("t", text), ("a", alpha)]

/-- A load that fails, since there is no such number. -/
def firstPress : Deed := .load pressed "Main" (pressedData " Hi " "x") []

/-- A host that loads again with the button that was left behind.  It hangs the button into one of
    its own, which does not show its title, and fails to update. -/
def pressing : List Deed :=
  [firstPress,
    .load pressed "Main" (pressedData "Hi" "1") [("Go", ⟨0⟩)],
    .create (.stock (.button { title := "odd" })), .attach 0 ⟨1⟩,
    .update 0 fun _ => pressedData "Bye" "x"]

theorem pressing_computed : Deed.allAllowed pressing ⟨[], .empty⟩ = true ∧
    (firstPress.run ⟨[], .empty⟩).scenes.length = 0 ∧
    (firstPress.run ⟨[], .empty⟩).world.store.size = 1 ∧
    ((Deed.play pressing ⟨[], .empty⟩).2.world.store.get? ⟨0⟩).map (fun v => (v.faces, v.lines)) =
      some (some ("Bye", "Bye"), some 0) := by
  decide +kernel

/-- The button is left behind without a scene.  In the end its title has changed, although the
    update has failed, and its label with it. -/
theorem coherent_of_builds_pressed : (firstPress.run ⟨[], .empty⟩).scenes.length = 0 ∧
    ∃ v, (Deed.play pressing ⟨[], .empty⟩).2.world.store.get? ⟨0⟩ = some v ∧
      (∀ b, button.get? v = some b → b.title = b.label.text) ∧
      (∀ l, label.get? v = some l → 0 ≤ l.numberOfLines) ∧
      v.faces = some ("Bye", "Bye") ∧ v.lines = some 0 := by
  obtain ⟨hallowed, hfailed, hsize, hshown⟩ := pressing_computed
  have hloads : ∀ e ∈ (Deed.play pressing ⟨[], .empty⟩).1, ∀ d root data views,
      e.deed = .load d root data views → d.catalogue = .stock := by
    intro e he d root data views heq
    have hdeed := Deed.mem_of_mem_play he
    simp only [heq, pressing, firstPress, List.mem_cons, Deed.load.injEq, reduceCtorEq,
      List.not_mem_nil, or_false] at hdeed
    rcases hdeed with ⟨rfl, -⟩ | ⟨rfl, -⟩ <;> rfl
  have hleft : ∀ e ∈ (Deed.play pressing ⟨[], .empty⟩).1, ∀ v, e.deed ≠ .edit ⟨0⟩ v := by
    intro e he v heq
    have hdeed := Deed.mem_of_mem_play he
    simp [heq, pressing, firstPress] at hdeed
  have hbuilt : ∃ e ∈ (Deed.play pressing ⟨[], .empty⟩).1, e.Builds ⟨0⟩ := by
    refine ⟨_, List.mem_cons_self, ⟨_, _, _, _, rfl⟩, Nat.not_lt_zero _, ?_⟩
    show 0 < (firstPress.run ⟨[], .empty⟩).world.store.size
    omega
  obtain ⟨v, hv, htitle, hlines⟩ := coherent_of_builds (History.play hallowed)
    (List.forall_mem_nil _) hloads hbuilt hleft
  rw [hv, Option.map_some, Option.some.injEq, Prod.mk.injEq] at hshown
  exact ⟨hfailed, v, hv, htitle, hlines, hshown⟩

end ViewSheet
