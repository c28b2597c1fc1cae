/-
  Rebuilding: updates before a scene is attached leave the views as a fresh load would make them.

  1. **Invariant** (`Dressed`): every view is a blank view with all its properties set to their
     texts under the present data, and none of the texts is refused.  A load that succeeds sets this
     up (`dressed_of_load`).

  2. **One update** (`Dressed.update`) hands over the affected properties alone.  Each of them
     undoes what it did before, and can be moved past the others; the rest have the texts they had.
     This takes the stock setters, and declarations that set no two properties that clash.

  3. **Result** (`loadTemplated_agrees`): after any updates that succeed, loading anew with the
     data that they ask for succeeds, binds the same names, and makes equal views.
-/
import ViewSheet.Proofs.Effects
import ViewSheet.Proofs.Independence
import ViewSheet.Proofs.Session

namespace ViewSheet

/-! ## Setting some properties again -/

/-- Some steps of a sequence are taken again with other data.  It is enough that a step that is
    taken again undoes its first time and can be moved past the others. -/
theorem foldl_filter_foldl {α κ : Type} {f g : α → κ → α} (again : κ → Bool) {keys : List κ}
    (hnodup : keys.Nodup) (hsame : ∀ k ∈ keys, again k = false → ∀ v, f v k = g v k)
    (hover : ∀ k ∈ keys, again k = true → ∀ v, g (f v k) k = g v k)
    (hmove : ∀ j ∈ keys, ∀ k ∈ keys, j ≠ k → ∀ v, g (f v k) j = f (g v j) k) (v : α) :
    (keys.filter again).foldl g (keys.foldl f v) = keys.foldl g v := by
  induction keys generalizing v with
  | nil => rfl
  | cons k rest ih =>
    rw [List.nodup_cons] at hnodup
    have hrest := ih hnodup.2 (fun j hj => hsame j (List.mem_cons_of_mem k hj))
      (fun j hj => hover j (List.mem_cons_of_mem k hj))
      (fun i hi j hj => hmove i (List.mem_cons_of_mem k hi) j (List.mem_cons_of_mem k hj))
    cases hk : again k with
    | false =>
      rw [List.filter_cons_of_neg (by simp [hk]), List.foldl_cons, List.foldl_cons,
        hsame k List.mem_cons_self hk]
      exact hrest (g v k)
    | true =>
      -- the step that is taken again is moved to the front, past the others
      have hfront : ∀ ks : List κ, (∀ j ∈ ks, j ∈ rest) → ∀ u,
          g (ks.foldl f u) k = ks.foldl f (g u k) := by
        intro ks hks
        induction ks with
        | nil => exact fun _ => rfl
        | cons j js ihjs =>
          intro u
          have hj := hks j List.mem_cons_self
          have hne : k ≠ j := fun h => hnodup.1 (h ▸ hj)
          rw [List.foldl_cons, ihjs fun i hi => hks i (List.mem_cons_of_mem j hi),
            hmove k List.mem_cons_self j (List.mem_cons_of_mem k hj) hne]
          rfl
      rw [List.filter_cons_of_pos hk, List.foldl_cons, List.foldl_cons, List.foldl_cons,
        hfront rest (fun _ h => h), hover k List.mem_cons_self hk]
      exact hrest (g v k)

theorem Catalogue.exists_setter_of_effect? {c : Catalogue} {className property : String}
    {p : PropertyText} {f : View → View} (h : c.effect? className property p = some f) :
    ∃ s value cursor, c.setter? className property = some s ∧ (s.scan cursor).1 = .ok value ∧
      f = s.effect value := by
  unfold effect? at h
  split at h
  · cases h
  · rename_i s hs
    split at h
    · cases h
    · rename_i value hvalue
      rw [Option.some.injEq] at h
      exact ⟨s, value, _, hs, hvalue, h.symm⟩

namespace Declaration

/-- No two properties of the declaration set the same field. -/
def ClashFree (d : Declaration) : Prop :=
  ∀ p ∈ clashes, ¬ (p.1 ∈ d.setterKeys ∧ p.2 ∈ d.setterKeys)

theorem ClashFree.not_clash {d : Declaration} (h : d.ClashFree) {a b : String}
    (ha : a ∈ d.setterKeys) (hb : b ∈ d.setterKeys) : ¬ Clash a b := by
  rintro (hab | hba)
  · exact h (a, b) hab ⟨ha, hb⟩
  · exact h (b, a) hba ⟨hb, ha⟩

theorem exists_setter_of_effect? {d : Declaration} {c : Catalogue} {className : String}
    {data : DataBindings} {key : String} {f : View → View}
    (h : d.effect? c className data key = some f) :
    ∃ s value cursor, c.setter? className key = some s ∧ (s.scan cursor).1 = .ok value ∧
      f = s.effect value := by
  obtain ⟨p, -, hp⟩ := Option.bind_eq_some_iff.mp h
  exact Catalogue.exists_setter_of_effect? hp

/-- Stock properties that do not clash can be set in either order. -/
theorem put_comm {d : Declaration} {j k : String} (hne : j ≠ k) (hclash : ¬ Clash j k)
    (className : String) (old new : DataBindings) (v : View) :
    d.put .stock className new (d.put .stock className old v k) j =
      d.put .stock className old (d.put .stock className new v j) k := by
  unfold put
  cases hg : d.effect? .stock className new j with
  | none => rfl
  | some g =>
    cases hf : d.effect? .stock className old k with
    | none => rfl
    | some f =>
      obtain ⟨s, b, -, hs, -, rfl⟩ := exists_setter_of_effect? hg
      obtain ⟨t, a, -, ht, -, rfl⟩ := exists_setter_of_effect? hf
      exact independent_stock hs ht hne hclash b a v

/-- A stock property that is set again undoes what it did before. -/
theorem put_put {d : Declaration} {key className : String} {old new : DataBindings}
    (htaken : (d.effect? .stock className new key).isSome = true) (v : View) :
    d.put .stock className new (d.put .stock className old v key) key =
      d.put .stock className new v key := by
  obtain ⟨g, hg⟩ := Option.isSome_iff_exists.mp htaken
  obtain ⟨s, b, cursor, hs, hscan, rfl⟩ := exists_setter_of_effect? hg
  unfold put
  rw [hg]
  cases hf : d.effect? .stock className old key with
  | none => rfl
  | some f =>
    obtain ⟨t, a, -, ht, -, rfl⟩ := exists_setter_of_effect? hf
    rw [hs, Option.some.injEq] at ht
    subst ht
    exact (Catalogue.plain_stock.setter? hs).overwrites cursor b hscan a v

/-- What is not affected by a change has the effect that it had. -/
theorem Indexed.effect?_eq_of_not_mem_affectedKeys {name : String} {d : Declaration}
    (h : d.Indexed name) {old new : DataBindings} {key : String} (hkey : key ∈ d.setterKeys)
    (hout : key ∉ Scene.affectedKeys d (old.changedKeys new)) (c : Catalogue) (className : String) :
    d.effect? c className old key = d.effect? c className new key := by
  rw [effect?, effect?, h.filled?_eq_of_not_mem_affectedKeys hkey hout]

/-- **Setting the affected properties again is as good as setting all of them anew.** -/
theorem Indexed.puts_affectedKeys {name : String} {d : Declaration} (h : d.Indexed name)
    (hfree : d.ClashFree) {className : String} {old new : DataBindings}
    (htaken : d.Taken .stock className new (Scene.affectedKeys d (old.changedKeys new)))
    (v : View) :
    d.puts .stock className new (Scene.affectedKeys d (old.changedKeys new))
        (d.puts .stock className old d.setterKeys v) =
      d.puts .stock className new d.setterKeys v := by
  refine foldl_filter_foldl _ h.nodup_setterKeys ?_ ?_ ?_ v
  · -- what is not affected has the text that it had
    intro key hkey hout v
    have hnot : key ∉ Scene.affectedKeys d (old.changedKeys new) := by
      intro hmem
      rw [(List.mem_filter.mp hmem).2] at hout
      cases hout
    rw [put, put, h.effect?_eq_of_not_mem_affectedKeys hkey hnot]
  · exact fun key hkey hin v => put_put (htaken key (List.mem_filter.mpr ⟨hkey, hin⟩)) v
  · exact fun j hj k hk hne v => put_comm hne (hfree.not_clash hj hk) className old new v

/-- If a view took all properties before a change, it takes them all if it takes the affected. -/
theorem Indexed.taken_of_affectedKeys {name : String} {d : Declaration} (h : d.Indexed name)
    {c : Catalogue} {className : String} {old new : DataBindings}
    (hold : d.Taken c className old d.setterKeys)
    (hnew : d.Taken c className new (Scene.affectedKeys d (old.changedKeys new))) :
    d.Taken c className new d.setterKeys := by
  intro key hkey
  by_cases hin : key ∈ Scene.affectedKeys d (old.changedKeys new)
  · exact hnew key hin
  · rw [← h.effect?_eq_of_not_mem_affectedKeys hkey hin]
    exact hold key hkey

end Declaration

/-- **Setting the affected properties of a name again is as good as setting all of them anew.** -/
theorem Definition.puts_affectedKeys {d : Definition} (hcatalogue : d.catalogue = .stock)
    (hdoc : d.document.Indexed)
    (hfree : ∀ name decl, d.document.get? name = some decl → decl.ClashFree)
    {old new : DataBindings} {name : String} {blank : View}
    (htakes : d.Takes (Scene.affectedKeys · (old.changedKeys new)) new name
      (d.puts (·.setterKeys) old name blank)) :
    d.puts (Scene.affectedKeys · (old.changedKeys new)) new name
        (d.puts (·.setterKeys) old name blank) =
      d.puts (·.setterKeys) new name blank := by
  have hclass : (d.puts (·.setterKeys) old name blank).className = blank.className := by
    refine className_puts ?_ _ old name blank
    rw [hcatalogue]
    exact Catalogue.plain_stock.imp fun _ _ h => h.keepsClass
  unfold Takes at htakes
  rw [hclass, hcatalogue] at htakes
  rw [puts, hclass, hcatalogue]
  cases hdecl : d.document.get? name with
  | none => rw [puts, puts, hdecl]
  | some decl =>
    rw [puts, puts, hdecl, hcatalogue]
    exact (hdoc name decl hdecl).puts_affectedKeys (hfree name decl hdecl) (htakes decl hdecl) blank

namespace Scene

/-! ## Views with all properties set -/

/-- A scene whose views are built and have no properties set. -/
structure Unworn (s : Scene) (w : World) : Prop where
  state : s.state = .viewsConstructed
  apart : ∀ a b id, s.bound? a = some id → s.bound? b = some id → a = b
  nodes : ∀ name id, s.bound? name = some id → name ∈ s.nodeNames
  views : ∀ name id, s.bound? name = some id →
    ∃ blank, s.blankFor name = some blank ∧ w.store.get? id = some blank

/-- A scene whose views are blank views with all their properties set. -/
structure Dressed (s : Scene) (w : World) : Prop where
  state : s.state = .viewsConstructed
  apart : ∀ a b id, s.bound? a = some id → s.bound? b = some id → a = b
  nodes : ∀ name id, s.bound? name = some id → name ∈ s.nodeNames
  views : ∀ name id, s.bound? name = some id → ∃ blank, s.blankFor name = some blank ∧
    s.definition.Takes (·.setterKeys) s.data name blank ∧
    w.store.get? id = some (s.definition.puts (·.setterKeys) s.data name blank)

theorem Unworn.grounded {s : Scene} {w : World} (h : s.Unworn w) : s.Grounded w := by
  intro name id hid
  obtain ⟨blank, -, hv⟩ := h.views name id hid
  exact ViewStore.has_iff.mpr ⟨_, hv⟩

theorem Dressed.grounded {s : Scene} {w : World} (h : s.Dressed w) : s.Grounded w := by
  intro name id hid
  obtain ⟨blank, -, -, hv⟩ := h.views name id hid
  exact ViewStore.has_iff.mpr ⟨_, hv⟩

/-- **A pass from blank views on.**  It succeeds exactly if no property is refused. -/
theorem Unworn.applyAll_construction {s : Scene} {w : World} (h : s.Unworn w)
    (hdoc : s.definition.document.Indexed)
    (hkeeps : s.definition.catalogue.Keeps fun _ t => t.KeepsClass) :
    ((s.applyAll .construction w).1 = .ok () ↔ ∀ name id blank, s.bound? name = some id →
        s.blankFor name = some blank → s.definition.Takes (·.setterKeys) s.data name blank) ∧
      ((s.applyAll .construction w).1 = .ok () → s.Dressed (s.applyAll .construction w).2) := by
  have hpass : s.applyAll .construction w = s.constructEach (·.setterKeys) s.configured w :=
    s.applyEach_construction s.configured w
  have hkeys : ∀ d : Declaration, ∀ key ∈ d.setterKeys, key ∈ d.setterKeys := fun _ _ hkey => hkey
  obtain ⟨htakes, hviews⟩ :=
    constructEach_configured hdoc hkeeps h.grounded h.apart h.nodes hkeys
  rw [hpass]
  have hiff : (s.constructEach (·.setterKeys) s.configured w).1 = .ok () ↔
      ∀ name id blank, s.bound? name = some id → s.blankFor name = some blank →
        s.definition.Takes (·.setterKeys) s.data name blank := by
    refine htakes.trans ⟨fun hall name id blank hid hblank => ?_, fun hall name id v hid hv => ?_⟩
    · obtain ⟨v, hv, hget⟩ := h.views name id hid
      -- the views that the pass finds are the blank ones
      rw [hblank, Option.some.injEq] at hv
      exact hv ▸ hall name id v hid hget
    · obtain ⟨blank, hblank, hget⟩ := h.views name id hid
      rw [hv, Option.some.injEq] at hget
      exact hget ▸ hall name id blank hid hblank
  refine ⟨hiff, fun hok => ⟨h.state, h.apart, h.nodes, fun name id hid => ?_⟩⟩
  obtain ⟨blank, hblank, hget⟩ := h.views name id hid
  exact ⟨blank, hblank, hiff.mp hok name id blank hid hblank, hviews hok name id blank hid hget⟩

/-! ## One update -/

theorem constructEach_of_nil {s : Scene} {keysOf : Declaration → List String}
    (hnone : ∀ d, keysOf d = []) (ds : List Declaration) (w : World) :
    s.constructEach keysOf ds w = (.ok (), w) := by
  induction ds with
  | nil => rfl
  | cons d rest ih =>
    have hd : s.applyDeclaration .construction d (keysOf d) w = (.ok (), w) := by
      rw [hnone, applyDeclaration]
      split <;> rfl
    rw [constructEach, hd]
    exact ih

/-- Before a scene is attached, an update that succeeds is a pass over what it affects. -/
theorem exists_constructEach_of_update {s s' : Scene} {w w' : World}
    (hstate : s.state = .viewsConstructed) {change : DataBindings → DataBindings}
    (hok : s.update change w = (.ok (), s', w')) :
    s' = s.withData (change s.data) ∧
      (s.withData (change s.data)).constructEach
        (affectedKeys · (s.data.changedKeys (change s.data)))
        (s.withData (change s.data)).configured w = (.ok (), w') := by
  have hreapply := (s.withData (change s.data)).reapply_of_viewsConstructed hstate
    (s.data.changedKeys (change s.data)) s.configured w
  rcases s.update_cases change w with ⟨hnone, h⟩ | ⟨w₁, hpass, h⟩ | ⟨e, w₁, events, -, h⟩
  · rw [hok, Prod.mk.injEq, Prod.mk.injEq] at h
    obtain ⟨-, rfl, rfl⟩ := h
    rw [hnone]
    exact ⟨rfl, constructEach_of_nil affectedKeys_nil _ _⟩
  · rw [hok, Prod.mk.injEq, Prod.mk.injEq] at h
    obtain ⟨-, rfl, rfl⟩ := h
    exact ⟨rfl, hreapply.symm.trans hpass⟩
  · rw [hok] at h
    cases h

/-- **An update keeps the views as a load would make them.** -/
theorem Dressed.update {s s' : Scene} {w w' : World} (h : s.Dressed w)
    (hcatalogue : s.definition.catalogue = .stock) (hdoc : s.definition.document.Indexed)
    (hfree : ∀ name d, s.definition.document.get? name = some d → d.ClashFree)
    {change : DataBindings → DataBindings} (hok : s.update change w = (.ok (), s', w')) :
    s'.Dressed w' := by
  obtain ⟨rfl, hpass⟩ := exists_constructEach_of_update h.state hok
  have hkeeps : s.definition.catalogue.Keeps fun _ t => t.KeepsClass := by
    rw [hcatalogue]
    exact Catalogue.plain_stock.imp fun _ _ h => h.keepsClass
  have hkeys : ∀ d, ∀ key ∈ affectedKeys d (s.data.changedKeys (change s.data)),
      key ∈ d.setterKeys := fun _ _ hkey => (List.mem_filter.mp hkey).1
  have hgrounded : (s.withData (change s.data)).Grounded w := h.grounded
  obtain ⟨htakes, hviews⟩ := constructEach_configured (s := s.withData (change s.data))
    hdoc hkeeps hgrounded h.apart h.nodes hkeys
  rw [hpass] at htakes hviews
  refine ⟨h.state, h.apart, h.nodes, fun name id hid => ?_⟩
  obtain ⟨blank, hblank, htaken, hget⟩ := h.views name id hid
  -- the pass found the view as all earlier texts had left it
  have hagain := htakes.mp rfl name id _ hid hget
  have hclass := Definition.className_puts hkeeps (·.setterKeys) s.data name blank
  refine ⟨blank, hblank, fun decl hdecl => ?_, (hviews rfl name id _ hid hget).trans ?_⟩
  · refine (hdoc name decl hdecl).taken_of_affectedKeys (htaken decl hdecl) ?_
    rw [← hclass]
    exact hagain decl hdecl
  · exact congrArg some (Definition.puts_affectedKeys hcatalogue hdoc hfree hagain)

/-! ## Loading again -/

theorem Builds.unworn {d : Definition} {root : String} {hierarchy : Hierarchy}
    {data : DataBindings} {w w' : World} {s : Scene}
    (h : Builds s.nodeNames (bare d root hierarchy data []) w s w') : s.Unworn w' where
  state := h.state_eq
  apart := fun a b id ha hb => h.apart a b id ha hb (h.made_of_bare ha).2.2.1
  nodes := fun _ _ hid => (h.made_of_bare hid).2.1
  views := fun _ _ hid => (h.made_of_bare hid).2.2.2

/-- A load that succeeds sets all properties. -/
theorem dressed_of_load {d : Definition} {root : String} {data : DataBindings} {w w' : World}
    {s : Scene} (hdoc : d.document.Indexed) (hkeeps : d.catalogue.Keeps fun _ t => t.KeepsClass)
    (hload : load d root data [] w = (.ok s, w')) : s.Dressed w' := by
  obtain ⟨hierarchy, w₁, -, hbuilds, happly⟩ :=
    exists_builds_of_load (List.forall_mem_nil _) hload
  have hdefinition : s.definition = d := hbuilds.definition_eq
  have h := (hbuilds.unworn.applyAll_construction (hdefinition ▸ hdoc) (hdefinition ▸ hkeeps)).2
  rw [happly] at h
  exact h rfl

/-- A loaded scene has the data that it was loaded with. -/
theorem data_of_load {d : Definition} {root : String} {data : DataBindings} {w w' : World}
    {s : Scene} (hload : load d root data [] w = (.ok s, w')) : s.data = data := by
  obtain ⟨hierarchy, w₁, -, hbuilds, -⟩ := exists_builds_of_load (List.forall_mem_nil _) hload
  exact hbuilds.data_eq

/-- Loading once more builds the same names, whatever the data. -/
theorem exists_unworn_of_load {d : Definition} {root : String} {data : DataBindings} {w w' : World}
    {s : Scene} (hload : load d root data [] w = (.ok s, w')) (data' : DataBindings) (u : World) :
    ∃ t u₁, s.Alike t ∧ t.data = data' ∧ t.Unworn u₁ ∧
      ∀ u', t.applyAll .construction u₁ = (.ok (), u') → load d root data' [] u = (.ok t, u') := by
  obtain ⟨hierarchy, w₁, hfound, hbuilt, -⟩ := exists_buildNames_of_load hload
  have hbare : Alike (bare d root hierarchy data []) (bare d root hierarchy data' []) :=
    ⟨rfl, rfl, rfl⟩
  have halike := hbare.buildNames (bare d root hierarchy data' []).nodeNames w u
  have hbuilds := builds_buildNames (bare d root hierarchy data' []).nodeNames
    (grounded_bare (w := u) (List.forall_mem_nil _) d root hierarchy data')
  rcases hagain : buildNames (bare d root hierarchy data' []).nodeNames
    (bare d root hierarchy data' []) u with ⟨t, u₁⟩
  -- building asks for names only, and these are the same under other data
  have hload' := load_eq hfound data' [] u hagain
  rw [hagain] at halike hbuilds
  change Alike (buildNames (bare d root hierarchy data []).nodeNames
    (bare d root hierarchy data []) w).1 t at halike
  rw [hbuilt] at halike
  have hnames : t.nodeNames = (bare d root hierarchy data' []).nodeNames := by
    rw [nodeNames, nodeNames, hbuilds.hierarchy_eq]
  rw [← hnames] at hbuilds
  refine ⟨t, u₁, halike, hbuilds.data_eq, hbuilds.unworn, fun u' happly => ?_⟩
  rw [hload', happly]

/-- What one scene has on, another of the same names and data can put on. -/
theorem Unworn.exists_applyAll {s t : Scene} {w u : World} (ht : t.Unworn u) (hs : s.Dressed w)
    (hdefinition : t.definition = s.definition) (hdata : t.data = s.data)
    (hbound : ∀ name, (t.bound? name).isSome = (s.bound? name).isSome)
    (hdoc : s.definition.document.Indexed)
    (hkeeps : s.definition.catalogue.Keeps fun _ t => t.KeepsClass) :
    ∃ u', t.applyAll .construction u = (.ok (), u') ∧ ∀ name id, s.bound? name = some id →
      ∃ other v, t.bound? name = some other ∧ w.store.get? id = some v ∧
        u'.store.get? other = some v := by
  have hblank : ∀ name, t.blankFor name = s.blankFor name := blankFor_congr hdefinition
  obtain ⟨hiff, hdressed⟩ :=
    ht.applyAll_construction (hdefinition ▸ hdoc) (hdefinition ▸ hkeeps)
  -- both scenes give a name the same blank view, so what the one took the other takes
  have hok : (t.applyAll .construction u).1 = .ok () := by
    refine hiff.mpr fun name other blank hother hb => ?_
    have hsome := hbound name
    rw [hother, Option.isSome_some, eq_comm, Option.isSome_iff_exists] at hsome
    obtain ⟨id, hid⟩ := hsome
    obtain ⟨blank', hb', htakes, -⟩ := hs.views name id hid
    rw [hblank, hb', Option.some.injEq] at hb
    rw [hdefinition, hdata, ← hb]
    exact htakes
  rcases happly : t.applyAll .construction u with ⟨r, u'⟩
  rw [happly] at hok hdressed
  obtain rfl : r = .ok () := hok
  refine ⟨u', rfl, fun name id hid => ?_⟩
  have hsome := hbound name
  rw [hid, Option.isSome_some, Option.isSome_iff_exists] at hsome
  obtain ⟨other, hother⟩ := hsome
  obtain ⟨blank, hb, -, hv⟩ := hs.views name id hid
  obtain ⟨blank', hb', -, hv'⟩ := (hdressed rfl).views name other hother
  rw [hblank, hb, Option.some.injEq] at hb'
  rw [hdefinition, hdata, ← hb'] at hv'
  exact ⟨other, _, hother, hv, hv'⟩

end Scene

/-- Updates that succeed keep the views as a load would make them, and the names. -/
theorem Session.dressed {start m : Moment} {past : List Record} (h : Session start past m)
    (hstart : start.scene.Dressed start.world)
    (hcatalogue : start.scene.definition.catalogue = .stock)
    (hdoc : start.scene.definition.document.Indexed)
    (hfree : ∀ name d, start.scene.definition.document.get? name = some d → d.ClashFree)
    (hupdates : ∀ r ∈ past, r.call.isUpdate = true ∧ r.result = .ok ()) :
    m.scene = start.scene.withData m.scene.data ∧ m.scene.Dressed m.world := by
  induction h with
  | start => exact ⟨rfl, hstart⟩
  | call hearlier c allowed ih =>
    rename_i m
    obtain ⟨hscene, hdressed⟩ := ih fun r hr => hupdates r (List.mem_append_left _ hr)
    obtain ⟨hcall, hok⟩ :=
      hupdates _ (List.mem_append_right _ (List.mem_singleton_self (c.record m)))
    cases c with
    | create v => cases hcall
    | attach container => cases hcall
    | update change =>
      have hdefinition := hearlier.steady.definition
      rw [← hdefinition] at hcatalogue hdoc hfree
      rcases hrun : m.scene.update change m.world with ⟨r, s', w'⟩
      have hresult : (m.scene.update change m.world).1 = .ok () := hok
      rw [hrun] at hresult
      obtain rfl : r = .ok () := hresult
      constructor
      · rw [Call.scene_run_update, hscene]
        rfl
      · show (m.scene.update change m.world).2.1.Dressed (m.scene.update change m.world).2.2
        rw [hrun]
        exact hdressed.update hcatalogue hdoc hfree hrun

namespace Definition

theorem reporting_ok {d : Definition} {α : Type} {outcome : Except Error α × World} {a : α}
    {w : World} : d.reporting outcome = (.ok a, w) ↔ outcome = (.ok a, w) := by
  rcases outcome with ⟨e | b, u⟩
  · constructor
    · intro h
      cases h
    · intro h
      cases h
  · exact Iff.rfl

/-- **Updating agrees with loading anew.**  Take a scene of the stock classes that was loaded
    without views of the host's, and any updates that all succeeded.  If no declaration sets two
    properties that clash, then a load with the data that the updates ask for, one after the other,
    succeeds in any world, binds the same names, and makes equal views. -/
theorem loadTemplated_agrees {d : Definition} {root : String} {data : DataBindings} {w : World}
    {start m : Moment} {past : List Record} (hcatalogue : d.catalogue = .stock)
    (hdoc : d.document.Reachable)
    (hfree : ∀ name decl, d.document.get? name = some decl → decl.ClashFree)
    (hload : d.loadTemplated root data w = (.ok start.scene, start.world))
    (hsession : Session start past m)
    (hupdates : ∀ r ∈ past, r.call.isUpdate = true ∧ r.result = .ok ()) (u : World) :
    ∃ t u', d.loadTemplated root (past.foldl (fun data r => r.call.dataAfter data) data) u =
        (.ok t, u') ∧ t.names = m.scene.names ∧
      ∀ name id, m.scene.bound? name = some id → ∃ other v, t.bound? name = some other ∧
        m.world.store.get? id = some v ∧ u'.store.get? other = some v := by
  have hindexed := hdoc.indexed
  have hkeeps : d.catalogue.Keeps fun _ t => t.KeepsClass := by
    rw [hcatalogue]
    exact Catalogue.plain_stock.imp fun _ _ h => h.keepsClass
  have hloaded := reporting_ok.mp hload
  have hstart := Scene.dressed_of_load hindexed hkeeps hloaded
  have hdefinition : start.scene.definition = d :=
    (Scene.loaded_of_load (List.forall_mem_nil _) hloaded).definition
  have hpresent : past.foldl (fun data r => r.call.dataAfter data) data = m.scene.data := by
    rw [hsession.data_eq, Scene.data_of_load hloaded]
  rw [hpresent]
  subst hdefinition
  obtain ⟨hscene, hdressed⟩ := hsession.dressed hstart hcatalogue hindexed hfree hupdates
  obtain ⟨t, u₁, halike, hdata, hunworn, happly⟩ :=
    Scene.exists_unworn_of_load hloaded m.scene.data u
  have hbound : ∀ name, (t.bound? name).isSome = (m.scene.bound? name).isSome := by
    rw [hscene]
    exact halike.isSome_bound?
  have hsame : m.scene.definition = start.scene.definition := hsession.steady.definition
  obtain ⟨u', hok, hviews⟩ := hunworn.exists_applyAll hdressed (halike.definition.trans hsame.symm)
    hdata hbound (hsame ▸ hindexed) (hsame ▸ hkeeps)
  refine ⟨t, u', reporting_ok.mpr (happly u' hok), ?_, hviews⟩
  rw [halike.names, hscene]
  rfl

end Definition

/-! ## A sheet that greets -/

instance (d : Declaration) : Decidable d.ClashFree :=
  inferInstanceAs (Decidable (∀ p ∈ clashes, ¬ (p.1 ∈ d.setterKeys ∧ p.2 ∈ d.setterKeys)))

/-- What holds of all entries holds of all declarations. -/
theorem Document.forall_get? {doc : Document} {P : Declaration → Prop}
    (h : ∀ p ∈ doc.declarations.entries, P p.2) (name : String) (d : Declaration)
    (hd : doc.get? name = some d) : P d :=
  h (name, d) (NameMap.mem_of_get? hd)

/-- A label with texts that mention data, alone and together. -/
def greetingText : String :=
  "Main:\n  A\nA:\n  .class = Label\n"
    ++ "  .text = #\x7bhi\x7d #\x7bname\x7d\n  .alpha = #\x7bfade\x7d\n"

/-- The sheet with the stock classes. -/
def greeting : Definition where
  document := (parseInto (.empty "sheet") greetingText).document
  catalogue := .stock
  listener := none

theorem reachable_greeting : greeting.document.Reachable := by
  unfold greeting
  dsimp only
  exact .parse (.empty "sheet") greetingText

/-- Loads the sheet with first data. -/
def loadGreeting : Except Error Scene × World :=
  greeting.loadTemplated "Main" (.ofList [("hi", "Hi"), ("name", "Ann"), ("fade", "0.5")]) .empty

/-- Another name, and then another greeting and another alpha. -/
def greetings : List Call :=
  [.update (·.set "name" "Bob"), .update fun data => (data.set "fade" "1").set "hi" "Bye"]

theorem isSome_loadGreeting : (Moment.ofLoad? loadGreeting).isSome = true := by
  decide +kernel

/-- The moment after the load. -/
def loadedGreeting : Moment := Option.get _ isSome_loadGreeting

theorem loadGreeting_eq : loadGreeting = (.ok loadedGreeting.scene, loadedGreeting.world) :=
  Moment.eq_of_ofLoad? (Option.some_get isSome_loadGreeting).symm

/-- The moment after both updates. -/
def greeted : Moment := (Call.play greetings loadedGreeting).2

theorem session_greeted : Session loadedGreeting (Call.play greetings loadedGreeting).1 greeted :=
  Session.play rfl

/-- What the updates come to. -/
def lastGreeting : DataBindings := .ofList [("hi", "Bye"), ("name", "Bob"), ("fade", "1")]

/-- A label of that text, shown in full, and otherwise as it comes. -/
def greetingLabel : View := .stock (.label { text := "Bye Bob" })

theorem greeting_computed :
    (∀ p ∈ greeting.document.declarations.entries, p.2.ClashFree) ∧
    (∀ r ∈ (Call.play greetings loadedGreeting).1,
      r.call.isUpdate = true ∧ r.result.isOk = true) ∧
    (Call.play greetings loadedGreeting).1.foldl (fun data r => r.call.dataAfter data)
      (.ofList [("hi", "Hi"), ("name", "Ann"), ("fade", "0.5")]) = lastGreeting ∧
    greeted.scene.names = ["A"] ∧ greeted.scene.bound? "A" = some ⟨0⟩ ∧
    greeted.world.store.get? ⟨0⟩ = some greetingLabel := by
  decide +kernel

/-- After both updates the label says `Bye Bob` and is not faded, and a load with the last data
    makes just such a label. -/
theorem loadTemplated_agrees_greeting :
    greeted.world.store.get? ⟨0⟩ = some greetingLabel ∧
    ∃ t u' other, greeting.loadTemplated "Main" lastGreeting .empty = (.ok t, u') ∧
      t.names = ["A"] ∧ t.bound? "A" = some other ∧
      u'.store.get? other = some greetingLabel := by
  obtain ⟨hfree, hresults, hdata, hnames, hbound, hlabel⟩ := greeting_computed
  have hupdates : ∀ r ∈ (Call.play greetings loadedGreeting).1,
      r.call.isUpdate = true ∧ r.result = .ok () :=
    fun r hr => ⟨(hresults r hr).1, eq_ok_of_isOk (hresults r hr).2⟩
  obtain ⟨t, u', hload, hsame, hviews⟩ := Definition.loadTemplated_agrees (d := greeting) rfl
    reachable_greeting (Document.forall_get? hfree) loadGreeting_eq session_greeted hupdates .empty
  obtain ⟨other, v, hother, hv, hv'⟩ := hviews "A" ⟨0⟩ hbound
  rw [hdata] at hload
  obtain rfl : greetingLabel = v := Option.some.inj (hlabel.symm.trans hv)
  exact ⟨hlabel, t, u', other, hload, hsame.trans hnames, hother, hv'⟩

end ViewSheet
