/-
  Upkeep: what every setter keeps, every view keeps.

  1. **Promise**: `Catalogue.Preserves c P` is all that has to be known of a condition on single
     views.  The new views of the catalogue meet it, a view that meets it still does when it has
     taken a property, and attaching a view keeps it.  `Catalogue.Upholds` asks this of each setter
     on its own, whatever views it is meant for.

  2. **One setter** (`upholds_property`, `upholds_attachedProperty`): for a property of a class only
     the change of one part has to be looked at, and only for values that can be read from a text.

  3. **One view** (`Meets`): what is done to other views does not count for a view, so what holds of
     it needs no more than what is done to it.

  4. **Result**: whatever a host does with its scenes, and whether or not that succeeds, all views
     there are meet the condition (`History.all`), or at least those that scenes have built and the
     host leaves alone (`History.meets_of_builds`).
-/
import ViewSheet.Proofs.Hosting
import ViewSheet.Proofs.StockSetters
import ViewSheet.Proofs.Telling

namespace ViewSheet

/-! ## Setters -/

/-- A value of the kind that some text is read as. -/
def Kind.Reads {α : Type} (kind : Kind α) (a : α) : Prop := ∃ cursor, (kind.scan cursor).1 = .ok a

/-- A setter that leaves a view which meets a condition, if it is given one that does, whether or
    not it takes the value. -/
def Setter.Upholds (P : View → Prop) (s : Setter) : Prop :=
  ∀ cursor value, (s.scan cursor).1 = .ok value → ∀ turn v, P v → P (s.handOver turn v value).2.2

theorem Kind.exists_reads_of_scanValue {α : Type} {kind : Kind α} {cursor : Cursor} {value : Value}
    (h : (kind.scanValue cursor).1 = .ok value) :
    ∃ a, kind.Reads a ∧ kind.project value = some a := by
  unfold scanValue at h
  dsimp only at h
  cases hscan : (kind.scan cursor).1 with
  | error e =>
    rw [hscan] at h
    cases h
  | ok a =>
    rw [hscan, Except.map, Except.ok.injEq] at h
    exact ⟨a, ⟨cursor, hscan⟩, h ▸ kind.project_inject a⟩

namespace ViewClass

variable {V α : Type} {cls : ViewClass V} {name : String} {kind : Kind α} {P : View → Prop}

/-- A property that is set at construction keeps what its change keeps. -/
theorem upholds_property {change : V → α → V}
    (h : ∀ v p a, kind.Reads a → cls.get? v = some p → P v → P (cls.set v (change p a))) :
    (cls.property name kind change).setter.Upholds P := by
  intro cursor value hscan turn v hv
  obtain ⟨a, ha, hvalue⟩ := Kind.exists_reads_of_scanValue hscan
  cases turn with
  | attached around => exact hv
  | construction =>
    rw [Setter.handOver_construction, effect_property_of_some hvalue, modify]
    split
    · rename_i p hp
      exact h v p a ha hp hv
    · exact hv

/-- A property that is set once the tree stands keeps what its change keeps. -/
theorem upholds_attachedProperty
    {change : Surroundings → V → α → List Event × Except Error Unit × V}
    (h : ∀ around v p a, kind.Reads a → cls.get? v = some p → P v →
      P (cls.set v (change around p a).2.2)) :
    (cls.attachedProperty name kind change).setter.Upholds P := by
  intro cursor value hscan turn v hv
  obtain ⟨a, ha, hvalue⟩ := Kind.exists_reads_of_scanValue hscan
  cases turn with
  | construction => exact hv
  | attached around =>
    rcases handOver_attachedProperty cls name kind change around v value with
      ⟨hidle, -⟩ | ⟨p, b, hp, hb, hrun⟩
    · rw [hidle]
      exact hv
    · rw [hvalue, Option.some.injEq] at hb
      rw [hrun, ← hb]
      exact h around v p a ha hp hv

end ViewClass

/-- **What has to be known of a condition on views.** -/
structure Catalogue.Upholds (c : Catalogue) (P : View → Prop) : Prop where
  makes : c.Makes P
  sets : c.Keeps fun _ s => s.Upholds P
  attaches : ∀ v child, P v → P (v.addSubview child)

/-- What has to be known of it at least: a setter only counts for views whose property goes to
    it. -/
structure Catalogue.Preserves (c : Catalogue) (P : View → Prop) : Prop where
  makes : c.Makes P
  receives : ∀ property turn cursor v, P v → P (c.receive property turn cursor v).view
  attaches : ∀ v child, P v → P (v.addSubview child)

theorem Catalogue.Upholds.preserves {c : Catalogue} {P : View → Prop} (h : c.Upholds P) :
    c.Preserves P := by
  refine ⟨h.makes, fun property turn cursor v hv => ?_, h.attaches⟩
  rcases c.view_receive_cases property turn cursor v with heq | ⟨s, value, hs, hscan, heq⟩
  · rw [heq]
    exact hv
  · rw [heq]
    exact Keeps.setter? h.sets hs cursor value hscan turn v hv

theorem Catalogue.Preserves.and {c : Catalogue} {P Q : View → Prop} (hP : c.Preserves P)
    (hQ : c.Preserves Q) : c.Preserves fun v => P v ∧ Q v where
  makes name v hv := ⟨hP.makes name v hv, hQ.makes name v hv⟩
  receives property turn cursor v hv :=
    ⟨hP.receives property turn cursor v hv.1, hQ.receives property turn cursor v hv.2⟩
  attaches v child hv := ⟨hP.attaches v child hv.1, hQ.attaches v child hv.2⟩

/-! ## Worlds -/

/-- All views there are meet a condition. -/
def World.All (P : View → Prop) (w : World) : Prop := ∀ id v, w.store.get? id = some v → P v

/-- A view meets a condition, if it is there. -/
def World.Meets (P : View → Prop) (id : ViewId) (w : World) : Prop :=
  ∀ v, w.store.get? id = some v → P v

section
variable {P : View → Prop} {id : ViewId}

theorem World.all_empty : World.empty.All P := by
  intro id v hv
  cases hv

namespace World

theorem meets_of_not_has {w : World} (h : ¬ w.store.Has id) : w.Meets P id :=
  fun v hv => absurd (ViewStore.has_iff.mpr ⟨v, hv⟩) h

namespace Meets

variable {w : World}

theorem addView (h : w.Meets P id) {v : View} (hv : id = w.store.fresh → P v) :
    (w.addView v).Meets P id := by
  intro u hu
  rw [store_addView] at hu
  by_cases hid : id = w.store.fresh
  · rw [hid, ViewStore.get?_add_fresh, Option.some.injEq] at hu
    exact hu ▸ hv hid
  · rw [ViewStore.get?_add_of_ne _ _ hid] at hu
    exact h u hu

theorem setView (h : w.Meets P id) (other : ViewId) {v : View} (hv : id = other → P v) :
    (w.setView other v).Meets P id := by
  intro u hu
  rw [store_setView] at hu
  by_cases hid : id = other
  · subst hid
    have hthere : (w.store.set id v).Has id := ViewStore.has_iff.mpr ⟨u, hu⟩
    rw [ViewStore.Has, ViewStore.size_set] at hthere
    obtain ⟨old, hold⟩ := ViewStore.has_iff.mp hthere
    rw [ViewStore.get?_set_self hold, Option.some.injEq] at hu
    exact hu ▸ hv rfl
  · rw [ViewStore.get?_set_of_ne _ _ hid] at hu
    exact h u hu

theorem attach (h : w.Meets P id) (hP : ∀ v child, P v → P (v.addSubview child))
    (parent child : ViewId) : Meets P id { w with store := w.store.attach parent child } := by
  unfold ViewStore.attach
  cases hv : w.store.get? parent with
  | none => exact h
  | some v => exact h.setView parent fun heq => hP v child (h v (heq ▸ hv))

end Meets

end World

/-! ## Passes -/

namespace Scene

/-- What a view meets before, it meets after. -/
theorem runs_meets (P : View → Prop) (id : ViewId) :
    Runs fun a b => a.Meets P id → b.Meets P id :=
  ⟨fun _ h => h, fun h k ha => k (h ha)⟩

variable {s : Scene}

theorem meets_applyKey (hc : s.definition.catalogue.Preserves P) (phase : Phase) (d : Declaration)
    (other : ViewId) (key : String) (w : World) (h : w.Meets P id) :
    (s.applyKey phase d other key w).2.Meets P id := by
  have hreceived : ∀ p v, w.store.get? other = some v →
      (s.received phase d other key p w v).Meets P id := fun p v hv =>
    World.Meets.setView h other fun hid => hc.receives _ _ _ v (h v (hid ▸ hv))
  rcases s.applyKey_cases phase d other key w with
    ⟨-, heq⟩ | ⟨p, v, -, hv, ⟨-, heq⟩ | ⟨e, -, heq⟩⟩ <;> rw [heq]
  · exact h
  · exact hreceived p v hv
  · exact hreceived p v hv

theorem meets_applyAll (hc : s.definition.catalogue.Preserves P) (phase : Phase) {w : World}
    (h : w.Meets P id) : (s.applyAll phase w).2.Meets P id :=
  applyEach_rel (runs_meets P id) (fun d _ other _ => meets_applyKey hc phase d other) w h

theorem meets_reapply (hc : s.definition.catalogue.Preserves P) (changed : List String)
    (ds : List Declaration) {w : World} (h : w.Meets P id) :
    (s.reapply changed ds w).2.Meets P id :=
  reapply_rel (runs_meets P id) (fun phase d _ other _ => meets_applyKey hc phase d other) w h

theorem meets_wireNode (hP : ∀ v child, P v → P (v.addSubview child)) (node : Nat) (w : World)
    (h : w.Meets P id) : (s.wireNode node w).Meets P id := by
  unfold wireNode
  dsimp only
  split
  · exact h
  · split
    · exact h
    · split
      · split
        · exact h
        · exact h.attach hP _ _
      · exact h

theorem meets_settle (hc : s.definition.catalogue.Preserves P) (first : Bool) {w : World}
    (h : w.Meets P id) : (s.settle first w).2.Meets P id :=
  settle_rel (runs_meets P id) (fun phase d other _ => meets_applyKey hc phase d other)
    (fun node w => meets_wireNode hc.attaches node w) first w h

/-! ## Loading -/

theorem definition_of_load {d : Definition} {root : String} {data : DataBindings}
    {views : List (String × ViewId)} {w w' : World} {s : Scene}
    (h : load d root data views w = (.ok s, w')) : s.definition = d := by
  obtain ⟨hierarchy, w₁, -, hbuilt, -⟩ := exists_buildNames_of_load h
  have hsame := ((bare d root hierarchy data views).tellsOn_buildNames
    (bare d root hierarchy data views).nodeNames w).1
  rw [hbuilt] at hsame
  exact hsame

theorem meets_buildName {s : Scene} (hc : s.definition.catalogue.Preserves P) (name : String)
    {w : World} (h : w.Meets P id) : (s.buildName name w).2.Meets P id := by
  obtain ⟨w₁, hretold, hcases⟩ := s.buildName_cases name w
  have hbefore : w₁.Meets P id := fun u hu => h u (hretold.1 ▸ hu)
  rcases hcases with ⟨-, heq⟩ | ⟨-, -, v, hblank, heq⟩
  · rw [heq]
    exact hbefore
  · rw [heq]
    refine hbefore.addView fun _ => ?_
    unfold blankFor at hblank
    split at hblank
    · exact hc.makes _ v hblank
    · cases hblank

theorem meets_buildNames (names : List String) {s : Scene}
    (hc : s.definition.catalogue.Preserves P) {w : World} (h : w.Meets P id) :
    (buildNames names s w).2.Meets P id := by
  induction names generalizing s w with
  | nil => exact h
  | cons name rest ih =>
    have hrest : (s.buildName name w).1.definition.catalogue.Preserves P := by
      rw [definition_buildName]
      exact hc
    exact ih hrest (meets_buildName hc name h)

/-- A load, whether or not it succeeds, keeps what the catalogue promises. -/
theorem meets_load {d : Definition} (hc : d.catalogue.Preserves P) (root : String)
    (data : DataBindings) (views : List (String × ViewId)) {w : World} (h : w.Meets P id) :
    (load d root data views w).2.Meets P id := by
  cases hfound : (d.document.get? root).bind (·.hierarchy) with
  | none =>
    rw [load, hfound]
    exact h
  | some hierarchy =>
    have hdefinition := ((bare d root hierarchy data views).tellsOn_buildNames
      (bare d root hierarchy data views).nodeNames w).1
    have hbuild := meets_buildNames (bare d root hierarchy data views).nodeNames
      (s := bare d root hierarchy data views) hc h
    rcases hbuilt : buildNames (bare d root hierarchy data views).nodeNames
      (bare d root hierarchy data views) w with ⟨t, w₁⟩
    rw [hbuilt] at hdefinition hbuild
    have hpreserves : t.definition.catalogue.Preserves P := by
      rw [hdefinition]
      exact hc
    have hdone := meets_applyAll hpreserves .construction hbuild
    rw [load_eq hfound data views w hbuilt]
    split
    · rename_i happly
      rw [happly] at hdone
      exact hdone
    · rename_i happly
      rw [happly] at hdone
      exact hdone

theorem all_load {d : Definition} (hc : d.catalogue.Upholds P) (root : String)
    (data : DataBindings) (views : List (String × ViewId)) {w : World} (h : w.All P) :
    (load d root data views w).2.All P :=
  fun id => meets_load hc.preserves root data views (h id)

end Scene

/-! ## Calls and deeds -/

/-- The view that a host makes meets the condition. -/
def Call.Brings (P : View → Prop) : Call → Prop
  | create v => P v
  | _ => True

theorem Call.meets_run {c : Call} {m : Moment} (hc : m.scene.definition.catalogue.Preserves P)
    (hbrings : c.Brings P) (h : m.world.Meets P id) : (c.run m).2.world.Meets P id := by
  cases c with
  | create v => exact h.addView fun _ => hbrings
  | attach container =>
    have hdone := Scene.meets_settle (s := m.scene.withContainer container) hc
      (m.scene.bound? rootName).isNone h
    rcases m.scene.attach_cases container m.world with ⟨w₁, hsettle, heq⟩ | ⟨e, w₁, _, hsettle, heq⟩
    · rw [hsettle] at hdone
      rw [run, heq]
      exact hdone
    · rw [hsettle] at hdone
      rw [run, heq]
      exact hdone
  | update change =>
    have hdone := Scene.meets_reapply (s := m.scene.withData (change m.scene.data)) hc
      (m.scene.data.changedKeys (change m.scene.data)) m.scene.configured h
    rcases m.scene.update_cases change m.world with
      ⟨-, heq⟩ | ⟨w₁, hreapply, heq⟩ | ⟨e, w₁, _, hreapply, heq⟩
    · rw [run, heq]
      exact h
    · rw [hreapply] at hdone
      rw [run, heq]
      exact hdone
    · rw [hreapply] at hdone
      rw [run, heq]
      exact hdone

theorem Call.all_run {c : Call} {m : Moment} (hc : m.scene.definition.catalogue.Upholds P)
    (hbrings : c.Brings P) (h : m.world.All P) : (c.run m).2.world.All P :=
  fun id => Call.meets_run hc.preserves hbrings (h id)

/-- The views that a host makes and changes meet the condition, and the catalogues that it loads
    with uphold it. -/
def Deed.Brings (P : View → Prop) : Deed → Prop
  | create v => P v
  | edit _ v => P v
  | load d _ _ _ => d.catalogue.Upholds P
  | _ => True

/-- The view meets the condition if the host makes or changes it now, and the catalogue that it
    loads with preserves the condition. -/
def Deed.BringsTo (P : View → Prop) (id : ViewId) (w : World) : Deed → Prop
  | create v => id = w.store.fresh → P v
  | edit other v => id = other → P v
  | load d _ _ _ => d.catalogue.Preserves P
  | _ => True

theorem Deed.Brings.to {deed : Deed} (h : deed.Brings P) (id : ViewId) (w : World) :
    deed.BringsTo P id w := by
  cases deed with
  | create v => exact fun _ => h
  | edit other v => exact fun _ => h
  | load d root data views => exact Catalogue.Upholds.preserves h
  | attach i container => trivial
  | update i change => trivial

/-- All views there are meet a condition, and the catalogues of all scenes uphold it. -/
structure Host.All (P : View → Prop) (h : Host) : Prop where
  views : h.world.All P
  catalogues : ∀ s ∈ h.scenes, s.definition.catalogue.Upholds P

theorem Host.meets_call {h : Host} (hc : ∀ s ∈ h.scenes, s.definition.catalogue.Preserves P)
    (hmeets : h.world.Meets P id) (i : Nat) {c : Call} (hbrings : c.Brings P) :
    (h.call i c).world.Meets P id := by
  rcases h.call_cases i c with ⟨-, heq⟩ | ⟨s, hs, heq⟩
  · rw [heq]
    exact hmeets
  · rw [heq]
    exact Call.meets_run (m := ⟨s, h.world⟩) (hc s (List.mem_of_getElem? hs)) hbrings hmeets

/-- **A deed keeps what it brings to a view and what the catalogues preserve.** -/
theorem Deed.meets_run {deed : Deed} {h : Host}
    (hc : ∀ s ∈ h.scenes, s.definition.catalogue.Preserves P) (hmeets : h.world.Meets P id)
    (hbrings : deed.BringsTo P id h.world) : (deed.run h).world.Meets P id := by
  cases deed with
  | create v => exact hmeets.addView hbrings
  | edit other v => exact hmeets.setView other hbrings
  | load d root data views =>
    rw [Deed.world_run_load]
    exact Scene.meets_load hbrings root data views hmeets
  | attach i container => exact Host.meets_call hc hmeets i trivial
  | update i change => exact Host.meets_call hc hmeets i trivial

/-- What holds of the catalogues of the scenes, and of the one that is loaded with, holds of the
    catalogues of the scenes after a deed. -/
theorem Deed.catalogues_run {Q : Catalogue → Prop} {deed : Deed} {h : Host}
    (hc : ∀ s ∈ h.scenes, Q s.definition.catalogue)
    (hload : ∀ d root data views, deed = .load d root data views → Q d.catalogue) :
    ∀ s ∈ (deed.run h).scenes, Q s.definition.catalogue := by
  intro s' hs'
  obtain ⟨j, hj⟩ := List.mem_iff_getElem?.mp hs'
  rcases Deed.scene_run_cases hj with
    ⟨s, hs, hsteady, -⟩ | ⟨d, root, data, views, heq, -, hloaded⟩
  · rw [hsteady.definition]
    exact hc s (List.mem_of_getElem? hs)
  · rw [Scene.definition_of_load hloaded]
    exact hload d root data views heq

theorem Host.All.run {h : Host} (hall : h.All P) {deed : Deed} (hbrings : deed.Brings P) :
    (deed.run h).All P where
  views id := Deed.meets_run (fun s hs => (hall.catalogues s hs).preserves) (hall.views id)
    (hbrings.to id h.world)
  catalogues := by
    refine Deed.catalogues_run (Q := fun c => c.Upholds P) hall.catalogues ?_
    rintro d root data views rfl
    exact hbrings

/-- **All views meet the condition at any time.** -/
theorem History.all {start h : Host} {past : List Entry} (hpast : History start past h)
    (hstart : start.All P) (hbrings : ∀ e ∈ past, e.deed.Brings P) : h.All P := by
  induction hpast with
  | start => exact hstart
  | deed _ deed _ ih =>
    refine (ih fun e he => hbrings e (List.mem_append_left _ he)).run ?_
    exact hbrings _ (List.mem_append_right _ List.mem_cons_self)

/-! ## Views that scenes build -/

/-- The view is built by a load, whether or not the load succeeds. -/
def Entry.Builds (e : Entry) (id : ViewId) : Prop :=
  (∃ d root data views, e.deed = .load d root data views) ∧ ¬ e.before.world.store.Has id ∧
    (e.deed.run e.before).world.store.Has id

/-- What holds of the catalogues at the start, and of all that are loaded with, holds at any
    time. -/
theorem History.catalogues {Q : Catalogue → Prop} {start h : Host} {past : List Entry}
    (hpast : History start past h) (hstart : ∀ s ∈ start.scenes, Q s.definition.catalogue)
    (hloads : ∀ e ∈ past, ∀ d root data views, e.deed = .load d root data views → Q d.catalogue) :
    ∀ s ∈ h.scenes, Q s.definition.catalogue := by
  induction hpast with
  | start => exact hstart
  | deed _ deed _ ih =>
    exact Deed.catalogues_run (ih fun e he => hloads e (List.mem_append_left _ he))
      (hloads _ (List.mem_append_right _ List.mem_cons_self))

/-- **A view that a scene has built** stays there and meets the condition, also while other views do
    not, if the host does not change it by its own means. -/
theorem History.meets_of_builds {start h : Host} {past : List Entry}
    (hpast : History start past h)
    (hstart : ∀ s ∈ start.scenes, s.definition.catalogue.Preserves P)
    (hloads : ∀ e ∈ past, ∀ d root data views, e.deed = .load d root data views →
      d.catalogue.Preserves P)
    (hbuilt : ∃ e ∈ past, e.Builds id) (hleft : ∀ e ∈ past, ∀ v, e.deed ≠ .edit id v) :
    h.world.store.Has id ∧ h.world.Meets P id := by
  induction hpast with
  | start =>
    obtain ⟨e, he, -⟩ := hbuilt
    cases he
  | @deed past h hearlier deed allowed ih =>
    have hlast : (⟨h, deed⟩ : Entry) ∈ past ++ [⟨h, deed⟩] :=
      List.mem_append_right _ List.mem_cons_self
    have hbefore : ∀ e ∈ past, ∀ d root data views, e.deed = .load d root data views →
      d.catalogue.Preserves P := fun e he => hloads e (List.mem_append_left _ he)
    have hscenes := History.catalogues (Q := fun c => c.Preserves P) hearlier hstart hbefore
    obtain ⟨e, he, hbuilds⟩ := hbuilt
    rcases List.mem_append.mp he with hpast | hnow
    · -- it was there before the deed, which is not about a view that is new
      obtain ⟨hhas, hmeets⟩ :=
        ih hbefore ⟨e, hpast, hbuilds⟩ fun e he => hleft e (List.mem_append_left _ he)
      refine ⟨hhas.mono (Deed.size_le_run allowed), Deed.meets_run hscenes hmeets ?_⟩
      cases deed with
      | create v => exact fun hfresh => absurd hfresh hhas.ne_fresh
      | edit other v => exact fun heq => absurd (by rw [heq]) (hleft _ hlast v)
      | load d root data views => exact hloads _ hlast d root data views rfl
      | attach i container => trivial
      | update i change => trivial
    · rw [List.mem_singleton] at hnow
      subst hnow
      obtain ⟨⟨d, root, data, views, rfl⟩, hnot, hhas⟩ := hbuilds
      exact ⟨hhas, Deed.meets_run hscenes (World.meets_of_not_has hnot)
        (hloads _ hlast d root data views rfl)⟩

end

end ViewSheet
