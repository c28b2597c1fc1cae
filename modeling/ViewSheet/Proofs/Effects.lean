/-
  Effects: the views that a construction pass leaves behind, computed without the pass.

  1. **One text** (`effect?`): the setter that is found either refuses the text, or changes the view
     by a function that depends on the text and on the class of the view alone.

  2. **One declaration**: its properties are taken if none of them is refused, and then the view is
     changed by their effects one after the other (`isOk_applyKeys_iff`, `get?_applyKeys`).

  3. **A pass** (`constructEach`): declarations with names of their own do not get into each other's
     way, so a pass comes to the same for each of its views.  Loading is such a pass, and so is
     handing over again in a scene that has not been attached.
-/
import ViewSheet.Proofs.Mentions
import ViewSheet.Proofs.Passes
import ViewSheet.Proofs.StockSetters

namespace ViewSheet

/-! ## One text -/

namespace Catalogue

/-- What a text does to a view of some class at construction, unless it is refused. -/
def effect? (c : Catalogue) (className property : String) (p : PropertyText) :
    Option (View → View) :=
  match c.setter? className property with
  | none => none
  | some s => match (s.scan (.start p.value p.line)).1 with
    | .error _ => none
    | .ok value => some (s.effect value)

/-- A view that is handed a text at construction comes to the text's effect. -/
theorem receive_construction (c : Catalogue) (property : String) (p : PropertyText) (v : View) :
    (∃ f, c.effect? v.className property p = some f ∧
      (c.receive property .construction (.start p.value p.line) v).result = .ok () ∧
      (c.receive property .construction (.start p.value p.line) v).view = f v) ∨
    (c.effect? v.className property p = none ∧
      ∃ e, (c.receive property .construction (.start p.value p.line) v).result = .error e) := by
  rw [result_receive, view_receive]
  unfold effect?
  cases c.setter? v.className property with
  | none => exact Or.inr ⟨rfl, _, rfl⟩
  | some s =>
    dsimp only [Setter.execute]
    rcases s.scan (.start p.value p.line) with ⟨e | value, after⟩
    · exact Or.inr ⟨rfl, e, rfl⟩
    · have h := s.handOver_construction v value
      exact Or.inl ⟨_, rfl, congrArg Prod.fst h, congrArg Prod.snd h⟩

/-- Effects keep the class of a view if the setters do. -/
theorem className_of_effect? {c : Catalogue} (hkeeps : c.Keeps fun _ s => s.KeepsClass)
    {className property : String} {p : PropertyText} {f : View → View}
    (h : c.effect? className property p = some f) (v : View) : (f v).className = v.className := by
  unfold effect? at h
  split at h
  · cases h
  · rename_i s hs
    split at h
    · cases h
    · rw [Option.some.injEq] at h
      rw [← h]
      exact hkeeps.setter? hs _ v

end Catalogue

/-! ## One declaration -/

namespace Declaration

/-- What a property does to a view of some class at construction, unless its text is refused. -/
def effect? (d : Declaration) (c : Catalogue) (className : String) (data : DataBindings)
    (key : String) : Option (View → View) :=
  (d.filled? key data).bind (c.effect? className key)

/-- Sets a property on a view.  A text that is refused does nothing. -/
def put (d : Declaration) (c : Catalogue) (className : String) (data : DataBindings) (v : View)
    (key : String) : View :=
  match d.effect? c className data key with
  | some f => f v
  | none => v

/-- Sets properties on a view, one after the other. -/
def puts (d : Declaration) (c : Catalogue) (className : String) (data : DataBindings)
    (keys : List String) (v : View) : View :=
  keys.foldl (d.put c className data) v

/-- None of some properties is refused by a view of some class. -/
def Taken (d : Declaration) (c : Catalogue) (className : String) (data : DataBindings)
    (keys : List String) : Prop :=
  ∀ key ∈ keys, (d.effect? c className data key).isSome = true

theorem className_put {d : Declaration} {c : Catalogue}
    (hkeeps : c.Keeps fun _ s => s.KeepsClass) (className : String) (data : DataBindings) (v : View)
    (key : String) : (d.put c className data v key).className = v.className := by
  unfold put
  split
  · rename_i f hf
    obtain ⟨p, -, hp⟩ := Option.bind_eq_some_iff.mp hf
    exact Catalogue.className_of_effect? hkeeps hp v
  · rfl

theorem className_puts {d : Declaration} {c : Catalogue}
    (hkeeps : c.Keeps fun _ s => s.KeepsClass) (className : String) (data : DataBindings)
    (keys : List String) (v : View) : (d.puts c className data keys v).className = v.className := by
  induction keys generalizing v with
  | nil => rfl
  | cons key rest ih => exact (ih _).trans (className_put hkeeps className data v key)

end Declaration

namespace Scene

variable {s : Scene} {d : Declaration} {id : ViewId} {v : View} {w w' : World}

/-- Handing a property over comes to its effect. -/
theorem applyKey_construction {key : String} (hkey : key ∈ d.setterKeys)
    (hv : w.store.get? id = some v) :
    (s.applyKey .construction d id key w).1.isOk =
        (d.effect? s.definition.catalogue v.className s.data key).isSome ∧
      ((s.applyKey .construction d id key w).1 = .ok () →
        (s.applyKey .construction d id key w).2.store.get? id =
          some (d.put s.definition.catalogue v.className s.data v key)) := by
  -- a stated property has a text, whatever the data
  obtain ⟨text, htext⟩ := Declaration.property?_of_mem_setterKeys hkey
  have hfilled : d.filled? key s.data = some { text with value := fill s.data text.value } := by
    rw [Declaration.filled?, htext]
    rfl
  unfold Declaration.put Declaration.effect?
  rw [hfilled, Option.bind_some]
  generalize ({ text with value := fill s.data text.value } : PropertyText) = p at hfilled ⊢
  rcases s.applyKey_cases .construction d id key w with
    ⟨hnone | hnone, -⟩ | ⟨q, u, hq, hu, hcases⟩
  · rw [handing, hfilled] at hnone
    cases hnone
  · rw [hv] at hnone
    cases hnone
  · rw [hfilled, Option.some.injEq] at hq
    rw [hv, Option.some.injEq] at hu
    subst hq hu
    rcases s.definition.catalogue.receive_construction key p v with
      ⟨f, hf, hr, hview⟩ | ⟨hf, e, hr⟩ <;>
      rcases hcases with ⟨hr', h⟩ | ⟨e', hr', h⟩ <;> rw [receipt, turn, hr] at hr'
    · rw [h, hf, store_received, ViewStore.get?_set_self hv, receipt, turn, hview]
      exact ⟨rfl, fun _ => rfl⟩
    · cases hr'
    · cases hr'
    · rw [h, hf]
      exact ⟨rfl, by rintro ⟨⟩⟩

/-- Handing properties over comes to their effects, one after the other. -/
theorem applyKeys_construction {className : String}
    (hkeeps : s.definition.catalogue.Keeps fun _ t => t.KeepsClass) {keys : List String}
    (hkeys : ∀ key ∈ keys, key ∈ d.setterKeys) (hclass : v.className = className)
    (hv : w.store.get? id = some v) :
    ((s.applyKeys .construction d id keys w).1 = .ok () ↔
        d.Taken s.definition.catalogue className s.data keys) ∧
      ((s.applyKeys .construction d id keys w).1 = .ok () →
        (s.applyKeys .construction d id keys w).2.store.get? id =
          some (d.puts s.definition.catalogue className s.data keys v)) := by
  induction keys generalizing v w with
  | nil => exact ⟨⟨fun _ => List.forall_mem_nil _, fun _ => rfl⟩, fun _ => hv⟩
  | cons key rest ih =>
    obtain ⟨hok, hview⟩ := applyKey_construction (s := s) (hkeys key List.mem_cons_self) hv
    rw [hclass] at hok hview
    rw [applyKeys]
    rcases happly : s.applyKey .construction d id key w with ⟨⟨e⟩ | ⟨⟩, w₁⟩
    · -- the first text was refused
      rw [happly] at hok
      refine ⟨⟨by rintro ⟨⟩, fun htaken => ?_⟩, by rintro ⟨⟩⟩
      rw [htaken key List.mem_cons_self] at hok
      cases hok
    · -- the changed view is of the same class, so the rest goes to the same setters
      rw [happly] at hok hview
      have hclass₁ := Declaration.className_put (d := d) hkeeps className s.data v key
      obtain ⟨hrest, hviews⟩ := ih (fun k hk => hkeys k (List.mem_cons_of_mem key hk))
        (hclass₁.trans hclass) (hview rfl)
      refine ⟨hrest.trans ?_, hviews⟩
      rw [Declaration.Taken, Declaration.Taken, List.forall_mem_cons]
      exact ⟨fun h => ⟨hok.symm, h⟩, fun h => h.2⟩

/-- The view of a declaration, if there is one, takes some of its properties. -/
def Takes (s : Scene) (d : Declaration) (keys : List String) (w : World) : Prop :=
  ∀ id v, s.bound? d.name = some id → w.store.get? id = some v →
    d.Taken s.definition.catalogue v.className s.data keys

theorem applyDeclaration_construction
    (hkeeps : s.definition.catalogue.Keeps fun _ t => t.KeepsClass) (hs : s.Grounded w)
    {keys : List String} (hkeys : ∀ key ∈ keys, key ∈ d.setterKeys) :
    ((s.applyDeclaration .construction d keys w).1 = .ok () ↔ s.Takes d keys w) ∧
      ((s.applyDeclaration .construction d keys w).1 = .ok () →
        ∀ id v, s.bound? d.name = some id → w.store.get? id = some v →
          (s.applyDeclaration .construction d keys w).2.store.get? id =
            some (d.puts s.definition.catalogue v.className s.data keys v)) := by
  unfold applyDeclaration Takes
  cases hbound : s.bound? d.name with
  | none =>
    refine ⟨⟨fun _ id v hid => ?_, fun _ => rfl⟩, fun _ id v hid => ?_⟩
    · cases hid
    · cases hid
  | some id =>
    obtain ⟨v, hv⟩ := ViewStore.has_iff.mp (hs d.name id hbound)
    obtain ⟨htaken, hview⟩ := applyKeys_construction (s := s) hkeeps hkeys rfl hv
    have honly : ∀ other u, some id = some other → w.store.get? other = some u →
        other = id ∧ u = v := by
      intro other u hother hu
      rw [Option.some.injEq] at hother
      rw [← hother, hv, Option.some.injEq] at hu
      exact ⟨hother.symm, hu.symm⟩
    refine ⟨htaken.trans ⟨fun h other u hother hu => ?_, fun h => h id v rfl hv⟩,
      fun hok other u hother hu => ?_⟩
    · obtain ⟨-, rfl⟩ := honly other u hother hu
      exact h
    · obtain ⟨rfl, rfl⟩ := honly other u hother hu
      exact hview hok

/-! ## A pass -/

/-- Hands some properties of each declaration over at construction. -/
def constructEach (s : Scene) (keysOf : Declaration → List String) :
    List Declaration → World → Except Error Unit × World
  | [], w => (.ok (), w)
  | d :: rest, w => match s.applyDeclaration .construction d (keysOf d) w with
    | (.error e, w') => (.error e, w')
    | (.ok (), w') => constructEach s keysOf rest w'

/-- Loading hands over what is stated. -/
theorem applyEach_construction (s : Scene) (ds : List Declaration) (w : World) :
    s.applyEach .construction ds w = s.constructEach (·.setterKeys) ds w := by
  induction ds generalizing w with
  | nil => rfl
  | cons d rest ih =>
    rw [applyEach, constructEach]
    rcases s.applyDeclaration .construction d d.setterKeys w with ⟨_ | ⟨⟩, w₁⟩
    · rfl
    · exact ih w₁

/-- Before a scene is attached, handing over again hands over what is affected. -/
theorem reapply_of_viewsConstructed (hstate : s.state = .viewsConstructed) (changed : List String)
    (ds : List Declaration) (w : World) :
    s.reapply changed ds w = s.constructEach (affectedKeys · changed) ds w := by
  induction ds generalizing w with
  | nil => rfl
  | cons d rest ih =>
    have hkeys : s.reapplyKeys d (affectedKeys d changed) w =
        s.applyDeclaration .construction d (affectedKeys d changed) w := by
      rw [reapplyKeys, hstate]
      rcases s.applyDeclaration .construction d (affectedKeys d changed) w with ⟨_ | ⟨⟩, w₁⟩ <;> rfl
    rw [reapply, constructEach, hkeys]
    rcases s.applyDeclaration .construction d (affectedKeys d changed) w with ⟨_ | ⟨⟩, w₁⟩
    · rfl
    · exact ih w₁

theorem get?_applyDeclaration_of_ne {other : ViewId} (hother : s.bound? d.name ≠ some other)
    (keys : List String) (w : World) :
    (s.applyDeclaration .construction d keys w).2.store.get? other = w.store.get? other :=
  applyDeclaration_rel (runs_eq fun w => w.store.get? other)
    (fun _ hid => get?_applyKey_of_ne s .construction d fun ho => hother (ho ▸ hid)) keys w

/-- A pass changes no view that none of its declarations goes by. -/
theorem get?_constructEach_of_ne {keysOf : Declaration → List String} {ds : List Declaration}
    {other : ViewId} (hother : ∀ d ∈ ds, s.bound? d.name ≠ some other) :
    (s.constructEach keysOf ds w).2.store.get? other = w.store.get? other := by
  induction ds generalizing w with
  | nil => rfl
  | cons d rest ih =>
    have h := get?_applyDeclaration_of_ne (hother d List.mem_cons_self) (keysOf d) w
    rw [constructEach]
    rcases hd : s.applyDeclaration .construction d (keysOf d) w with ⟨_ | ⟨⟩, w₁⟩
    · rw [hd] at h
      exact h
    · rw [hd] at h
      exact (ih fun e he => hother e (List.mem_cons_of_mem d he)).trans h

/-- **What a construction pass comes to.**  It succeeds exactly if each view takes its properties,
    and then their effects are what each view has seen. -/
theorem constructEach_spec (hkeeps : s.definition.catalogue.Keeps fun _ t => t.KeepsClass)
    (hs : s.Grounded w) (hapart : ∀ a b id, s.bound? a = some id → s.bound? b = some id → a = b)
    {keysOf : Declaration → List String} {ds : List Declaration}
    (hnames : (ds.map (·.name)).Nodup) (hkeys : ∀ d ∈ ds, ∀ key ∈ keysOf d, key ∈ d.setterKeys) :
    ((s.constructEach keysOf ds w).1 = .ok () ↔ ∀ d ∈ ds, s.Takes d (keysOf d) w) ∧
      ((s.constructEach keysOf ds w).1 = .ok () →
        ∀ d ∈ ds, ∀ id v, s.bound? d.name = some id → w.store.get? id = some v →
          (s.constructEach keysOf ds w).2.store.get? id =
            some (d.puts s.definition.catalogue v.className s.data (keysOf d) v)) := by
  induction ds generalizing w with
  | nil =>
    exact ⟨⟨fun _ => List.forall_mem_nil _, fun _ => rfl⟩, fun _ => List.forall_mem_nil _⟩
  | cons d rest ih =>
    rw [List.map_cons, List.nodup_cons] at hnames
    obtain ⟨htakes, hview⟩ :=
      applyDeclaration_construction hkeeps hs (hkeys d List.mem_cons_self)
    have hsize := s.size_applyDeclaration .construction d (keysOf d) w
    -- the other declarations find their views as they were
    have hothers : ∀ e ∈ rest, ∀ id, s.bound? e.name = some id →
        (s.applyDeclaration .construction d (keysOf d) w).2.store.get? id = w.store.get? id := by
      intro e he id hid
      refine get?_applyDeclaration_of_ne (fun hd => hnames.1 ?_) (keysOf d) w
      rw [hapart _ _ id hd hid]
      exact List.mem_map_of_mem he
    -- and leave the view of this one as it is
    have hlater : ∀ w₁ id, s.bound? d.name = some id →
        (s.constructEach keysOf rest w₁).2.store.get? id = w₁.store.get? id := by
      intro w₁ id hid
      refine get?_constructEach_of_ne fun e he hother => hnames.1 ?_
      rw [hapart _ _ id hid hother]
      exact List.mem_map_of_mem he
    rw [constructEach, List.forall_mem_cons]
    rcases hd : s.applyDeclaration .construction d (keysOf d) w with ⟨_ | ⟨⟩, w₁⟩
    · rw [hd] at htakes
      refine ⟨⟨by rintro ⟨⟩, fun h => ?_⟩, by rintro ⟨⟩⟩
      cases htakes.mpr h.1
    · rw [hd] at htakes hview hsize hothers
      obtain ⟨hrest, hviews⟩ :=
        ih (hs.of_size hsize) hnames.2 fun e he => hkeys e (List.mem_cons_of_mem d he)
      have hsame : ∀ e ∈ rest, (s.Takes e (keysOf e) w₁ ↔ s.Takes e (keysOf e) w) := by
        intro e he
        constructor
        · intro h id v hid hv
          exact h id v hid ((hothers e he id hid).trans hv)
        · intro h id v hid hv
          exact h id v hid ((hothers e he id hid).symm.trans hv)
      refine ⟨hrest.trans ⟨fun h => ⟨htakes.mp rfl, fun e he => (hsame e he).mp (h e he)⟩,
        fun h e he => (hsame e he).mpr (h.2 e he)⟩, fun hok => ?_⟩
      rw [List.forall_mem_cons]
      refine ⟨fun id v hid hv => (hlater w₁ id hid).trans (hview rfl id v hid hv), ?_⟩
      intro e he id v hid hv
      exact hviews hok e he id v hid ((hothers e he id hid).trans hv)

end Scene

/-! ## The declarations of a scene -/

namespace Definition

/-- What some properties of the declaration of a name make of a view. -/
def puts (d : Definition) (keysOf : Declaration → List String) (data : DataBindings) (name : String)
    (v : View) : View :=
  match d.document.get? name with
  | some decl => decl.puts d.catalogue v.className data (keysOf decl) v
  | none => v

/-- None of some properties of the declaration of a name is refused by a view. -/
def Takes (d : Definition) (keysOf : Declaration → List String) (data : DataBindings)
    (name : String) (v : View) : Prop :=
  ∀ decl, d.document.get? name = some decl →
    decl.Taken d.catalogue v.className data (keysOf decl)

theorem className_puts {d : Definition} (hkeeps : d.catalogue.Keeps fun _ s => s.KeepsClass)
    (keysOf : Declaration → List String) (data : DataBindings) (name : String) (v : View) :
    (d.puts keysOf data name v).className = v.className := by
  unfold puts
  split
  · exact Declaration.className_puts hkeeps v.className data _ v
  · rfl

end Definition

namespace Scene

/-- **A pass over the declarations of a scene**, as the views under its names see it. -/
theorem constructEach_configured {s : Scene} {w : World}
    (hdoc : s.definition.document.Indexed)
    (hkeeps : s.definition.catalogue.Keeps fun _ t => t.KeepsClass) (hs : s.Grounded w)
    (hapart : ∀ a b id, s.bound? a = some id → s.bound? b = some id → a = b)
    (hnodes : ∀ name id, s.bound? name = some id → name ∈ s.nodeNames)
    {keysOf : Declaration → List String} (hkeys : ∀ d, ∀ key ∈ keysOf d, key ∈ d.setterKeys) :
    ((s.constructEach keysOf s.configured w).1 = .ok () ↔ ∀ name id v, s.bound? name = some id →
        w.store.get? id = some v → s.definition.Takes keysOf s.data name v) ∧
      ((s.constructEach keysOf s.configured w).1 = .ok () → ∀ name id v, s.bound? name = some id →
        w.store.get? id = some v → (s.constructEach keysOf s.configured w).2.store.get? id =
          some (s.definition.puts keysOf s.data name v)) := by
  obtain ⟨htakes, hviews⟩ := constructEach_spec hkeeps hs hapart (nodup_configured hdoc)
    fun d _ => hkeys d
  have hnamed : ∀ decl ∈ s.configured, s.definition.document.get? decl.name = some decl :=
    fun _ hdecl => get?_of_mem_configured hdoc hdecl
  -- a declaration that is not applied has nothing to hand over
  have hempty : ∀ name id decl, s.bound? name = some id →
      s.definition.document.get? name = some decl → decl ∉ s.configured → keysOf decl = [] := by
    intro name id decl hid hdecl hout
    rw [List.eq_nil_iff_forall_not_mem]
    intro key hkey
    exact hout (mem_configured.mpr
      ⟨⟨name, Or.inl (hnodes name id hid), hdecl⟩, List.ne_nil_of_mem (hkeys decl key hkey)⟩)
  refine ⟨htakes.trans ⟨fun h name id v hid hv decl hdecl => ?_,
    fun h decl hdecl id v hid hv => ?_⟩, fun hok name id v hid hv => ?_⟩
  · by_cases hin : decl ∈ s.configured
    · rw [← (hdoc name decl hdecl).named] at hid
      exact h decl hin id v hid hv
    · rw [hempty name id decl hid hdecl hin]
      exact List.forall_mem_nil _
  · exact h decl.name id v hid hv decl (hnamed decl hdecl)
  · by_cases hin : ∃ decl ∈ s.configured, decl.name = name
    · obtain ⟨decl, hdecl, rfl⟩ := hin
      rw [hviews hok decl hdecl id v hid hv, Definition.puts, hnamed decl hdecl]
    · have hother : ∀ decl ∈ s.configured, s.bound? decl.name ≠ some id :=
        fun decl hdecl ho => hin ⟨decl, hdecl, hapart _ _ id ho hid⟩
      rw [get?_constructEach_of_ne hother, hv, Definition.puts]
      cases hdecl : s.definition.document.get? name with
      | none => rfl
      | some decl =>
        have hout : decl ∉ s.configured :=
          fun hmem => hin ⟨decl, hmem, (hdoc name decl hdecl).named⟩
        dsimp only
        rw [hempty name id decl hid hdecl hout]
        rfl

end Scene

end ViewSheet
