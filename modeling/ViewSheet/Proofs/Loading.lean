/-
  Loading: which views a load makes, and under which names.

  1. **Specification**: `blankFor` is the view that a name gets before any property is set, or none
     if its class is refused.  It depends on the definition alone.

  2. **Invariant**: `Builds` says what building views for some names comes to.  Views that were
     there stay as they are.  A name that is bound afterwards was bound before, or stands for a new
     view of its own; and every name gets its view unless it names the root or its class is refused.

  3. **Result**: a load that succeeds has built the names of its hierarchy and handed all properties
     over once (`exists_builds_of_load`).
-/
import ViewSheet.Proofs.Passes

namespace ViewSheet

namespace ViewStore

theorem not_has_fresh (s : ViewStore) : ¬ s.Has s.fresh := Nat.lt_irrefl s.size

theorem Has.ne_fresh {s : ViewStore} {id : ViewId} (h : s.Has id) : id ≠ s.fresh := by
  intro hid
  exact not_has_fresh s (hid ▸ h)

theorem Has.mono {s t : ViewStore} {id : ViewId} (h : s.Has id) (hsize : s.size ≤ t.size) :
    t.Has id :=
  Nat.lt_of_lt_of_le h hsize

end ViewStore

namespace Scene

/-! ## One name -/

/-- The view that a name gets before any property is set. -/
def blankFor (s : Scene) (name : String) : Option View :=
  if (s.definition.catalogue.isSubclass (s.classFor name).2 Catalogue.baseClass).2 then
    s.definition.catalogue.instantiate? (s.classFor name).2
  else none

theorem blankFor_congr {s t : Scene} (h : t.definition = s.definition) (name : String) :
    t.blankFor name = s.blankFor name := by
  unfold blankFor classFor
  rw [h]

theorem bound?_insert (s : Scene) (name other : String) (id : ViewId) :
    bound? { s with bindings := s.bindings.insert name (some id) } other =
      if other = name then some id else s.bound? other := by
  show ((s.bindings.insert name (some id)).get? other).join = _
  rw [NameMap.get?_insert]
  split
  · rfl
  · rfl

/-- A world that differs in what was told alone. -/
def Retold (w w₁ : World) : Prop := w₁.store = w.store ∧ w₁.executions = w.executions

theorem buildAs_cases (s : Scene) (name : String) (events : List Event) (w : World) :
    ∃ w₁, Retold w w₁ ∧
      ((s.blankFor name = none ∧ s.buildAs name (s.classFor name).2 (w.tell events) = (s, w₁)) ∨
        ∃ v, s.blankFor name = some v ∧ s.buildAs name (s.classFor name).2 (w.tell events) =
          ({ s with bindings := s.bindings.insert name (some w.store.fresh) }, w₁.addView v)) := by
  unfold buildAs blankFor
  rcases s.definition.catalogue.isSubclass (s.classFor name).2 Catalogue.baseClass with
    ⟨more, _ | _⟩
  · exact ⟨((w.tell events).tell more).tell _, ⟨rfl, rfl⟩, Or.inl ⟨rfl, rfl⟩⟩
  · cases s.definition.catalogue.instantiate? (s.classFor name).2 with
    | none => exact ⟨((w.tell events).tell more).tell _, ⟨rfl, rfl⟩, Or.inl ⟨rfl, rfl⟩⟩
    | some v => exact ⟨(w.tell events).tell more, ⟨rfl, rfl⟩, Or.inr ⟨v, rfl, rfl⟩⟩

/-- **All that can come of building the view for a name.**  If none is built, then the name has one,
    or names the root, or its class is refused. -/
theorem buildName_cases (s : Scene) (name : String) (w : World) :
    ∃ w₁, Retold w w₁ ∧
      (((s.isRootName name = true ∨ (s.bound? name).isSome ∨ s.blankFor name = none) ∧
          s.buildName name w = (s, w₁)) ∨
        (s.isRootName name = false ∧ s.bound? name = none ∧ ∃ v, s.blankFor name = some v ∧
          s.buildName name w = ({ s with bindings := s.bindings.insert name (some w.store.fresh) },
            w₁.addView v))) := by
  unfold buildName
  cases hroot : s.isRootName name with
  | true => exact ⟨w.tell _, ⟨rfl, rfl⟩, Or.inl ⟨Or.inl rfl, rfl⟩⟩
  | false =>
    cases hbound : s.bound? name with
    | some id => exact ⟨w, ⟨rfl, rfl⟩, Or.inl ⟨Or.inr (Or.inl rfl), rfl⟩⟩
    | none =>
      obtain ⟨w₁, hretold, ⟨hblank, h⟩ | ⟨v, hblank, h⟩⟩ :=
        s.buildAs_cases name (s.classFor name).1 w
      · exact ⟨w₁, hretold, Or.inl ⟨Or.inr (Or.inr hblank), h⟩⟩
      · exact ⟨w₁, hretold, Or.inr ⟨rfl, rfl, v, hblank, h⟩⟩

/-! ## Many names -/

/-- What building views for some names comes to. -/
structure Builds (names : List String) (s : Scene) (w : World) (s' : Scene) (w' : World) :
    Prop where
  /-- Only the bindings differ. -/
  scene : ∃ bindings, s' = { s with bindings }
  /-- No setter had a turn. -/
  executions : w'.executions = w.executions
  /-- No view is taken away. -/
  grown : w.store.size ≤ w'.store.size
  /-- Views that were there stay as they are. -/
  old : ∀ id, w.store.Has id → w'.store.get? id = w.store.get? id
  /-- Names keep their views. -/
  kept : ∀ name id, s.bound? name = some id → s'.bound? name = some id
  /-- A name is bound to a view of its own that is new, if it was not bound before. -/
  made : ∀ name id, s'.bound? name = some id → s.bound? name = some id ∨
    (s.isRootName name = false ∧ name ∈ names ∧ ¬ w.store.Has id ∧
      ∃ v, s.blankFor name = some v ∧ w'.store.get? id = some v)
  /-- Every name is bound unless it is refused. -/
  all : ∀ name ∈ names, s.isRootName name = false → (s.blankFor name).isSome →
    (s'.bound? name).isSome
  /-- No two names are bound to one new view. -/
  apart : ∀ a b id, s'.bound? a = some id → s'.bound? b = some id → ¬ w.store.Has id → a = b
  /-- Every new view is the one that some name gets. -/
  blanks : ∀ id v, w'.store.get? id = some v → ¬ w.store.Has id → ∃ name, s.blankFor name = some v

namespace Builds

variable {names more : List String} {s s' s'' : Scene} {w w' w'' : World}

theorem definition_eq (h : Builds names s w s' w') : s'.definition = s.definition := by
  obtain ⟨_, rfl⟩ := h.scene
  rfl

theorem root_eq (h : Builds names s w s' w') : s'.root = s.root := by
  obtain ⟨_, rfl⟩ := h.scene
  rfl

theorem hierarchy_eq (h : Builds names s w s' w') : s'.hierarchy = s.hierarchy := by
  obtain ⟨_, rfl⟩ := h.scene
  rfl

theorem data_eq (h : Builds names s w s' w') : s'.data = s.data := by
  obtain ⟨_, rfl⟩ := h.scene
  rfl

theorem state_eq (h : Builds names s w s' w') : s'.state = s.state := by
  obtain ⟨_, rfl⟩ := h.scene
  rfl

theorem isRootName_eq (h : Builds names s w s' w') (name : String) :
    s'.isRootName name = s.isRootName name := by
  unfold isRootName
  rw [h.root_eq]

/-- Nothing is built for no names. -/
theorem nil (hs : s.Grounded w) : Builds [] s w s w where
  scene := ⟨s.bindings, rfl⟩
  executions := rfl
  grown := Nat.le_refl _
  old := fun _ _ => rfl
  kept := fun _ _ h => h
  made := fun _ _ h => Or.inl h
  all := fun name hname => by cases hname
  apart := fun a _ id ha _ hnew => absurd (hs a id ha) hnew
  blanks := fun _ v hv hnew => absurd (ViewStore.has_iff.mpr ⟨v, hv⟩) hnew

/-- After building, the views that names stand for are there. -/
theorem grounded (h : Builds names s w s' w') (hs : s.Grounded w) : s'.Grounded w' := by
  intro name id hid
  rcases h.made name id hid with hold | ⟨-, -, -, v, -, hv⟩
  · exact (hs name id hold).mono h.grown
  · exact ViewStore.has_iff.mpr ⟨v, hv⟩

theorem trans (h : Builds names s w s' w') (k : Builds more s' w' s'' w'') :
    Builds (names ++ more) s w s'' w'' where
  scene := by
    obtain ⟨_, hs'⟩ := h.scene
    obtain ⟨b, hs''⟩ := k.scene
    exact ⟨b, by rw [hs'', hs']⟩
  executions := k.executions.trans h.executions
  grown := Nat.le_trans h.grown k.grown
  old := fun id hid => (k.old id (hid.mono h.grown)).trans (h.old id hid)
  kept := fun name id hid => k.kept name id (h.kept name id hid)
  made := by
    intro name id hid
    rcases k.made name id hid with hid' | ⟨hroot, hmem, hnew, v, hblank, hv⟩
    · rcases h.made name id hid' with hold | ⟨hroot, hmem, hnew, v, hblank, hv⟩
      · exact Or.inl hold
      -- the second stretch leaves a view of the first one as it is
      · have hthere : w'.store.Has id := ViewStore.has_iff.mpr ⟨v, hv⟩
        exact Or.inr ⟨hroot, List.mem_append_left more hmem, hnew, v, hblank,
          (k.old id hthere).trans hv⟩
    · rw [h.isRootName_eq] at hroot
      rw [blankFor_congr h.definition_eq] at hblank
      exact Or.inr ⟨hroot, List.mem_append_right names hmem,
        fun hold => hnew (hold.mono h.grown), v, hblank, hv⟩
  all := by
    intro name hmem hroot hblank
    rcases List.mem_append.mp hmem with hfirst | hsecond
    · obtain ⟨id, hid⟩ := Option.isSome_iff_exists.mp (h.all name hfirst hroot hblank)
      rw [k.kept name id hid]
      rfl
    · rw [← h.isRootName_eq] at hroot
      rw [← blankFor_congr h.definition_eq] at hblank
      exact k.all name hsecond hroot hblank
  apart := by
    intro a b id ha hb hnew
    -- a view of the first stretch gets no second name in the second one
    by_cases hthere : w'.store.Has id
    · have hearlier : ∀ name, s''.bound? name = some id → s'.bound? name = some id := by
        intro name hname
        rcases k.made name id hname with h1 | ⟨-, -, h1, -⟩
        · exact h1
        · exact absurd hthere h1
      exact h.apart a b id (hearlier a ha) (hearlier b hb) hnew
    · exact k.apart a b id ha hb hthere
  blanks := by
    intro id v hv hnew
    by_cases hthere : w'.store.Has id
    · rw [k.old id hthere] at hv
      exact h.blanks id v hv hnew
    · obtain ⟨name, hname⟩ := k.blanks id v hv hthere
      rw [blankFor_congr h.definition_eq] at hname
      exact ⟨name, hname⟩

end Builds

/-! ## Building -/

/-- A name for which nothing is built. -/
theorem Builds.skip {name : String} {s : Scene} {w w₁ : World} (hs : s.Grounded w)
    (hretold : Retold w w₁)
    (hwhy : s.isRootName name = true ∨ (s.bound? name).isSome ∨ s.blankFor name = none) :
    Builds [name] s w s w₁ where
  scene := ⟨s.bindings, rfl⟩
  executions := hretold.2
  grown := Nat.le_of_eq (congrArg ViewStore.size hretold.1.symm)
  old := fun id _ => by rw [hretold.1]
  kept := fun _ _ hid => hid
  made := fun _ _ hid => Or.inl hid
  all := by
    intro other hother hroot hsome
    rw [List.mem_singleton] at hother
    subst hother
    -- each of the three reasons is a reason to have no view, or to have one already
    rcases hwhy with h | h | h
    · rw [h] at hroot
      cases hroot
    · exact h
    · rw [h] at hsome
      cases hsome
  apart := (Builds.nil hs).apart
  blanks := by
    intro id v hv hnew
    rw [hretold.1] at hv
    exact absurd (ViewStore.has_iff.mpr ⟨v, hv⟩) hnew

/-- A name that gets a view. -/
theorem Builds.add {name : String} {s : Scene} {w w₁ : World} (hs : s.Grounded w)
    (hretold : Retold w w₁) (hroot : s.isRootName name = false) (hfree : s.bound? name = none)
    {v : View} (hblank : s.blankFor name = some v) :
    Builds [name] s w { s with bindings := s.bindings.insert name (some w.store.fresh) }
      (w₁.addView v) := by
  have hnew := ViewStore.not_has_fresh w.store
  have hstore : (w₁.addView v).store = w.store.add v := by
    rw [World.store_addView, hretold.1]
  have hview : (w₁.addView v).store.get? w.store.fresh = some v := by
    rw [hstore]
    exact ViewStore.get?_add_fresh w.store v
  refine ⟨⟨_, rfl⟩, hretold.2, ?_, ?_, ?_, ?_, ?_, ?_, ?_⟩
  · rw [hstore, ViewStore.size_add]
    exact Nat.le_succ _
  · intro id hid
    rw [hstore]
    exact ViewStore.get?_add_of_ne w.store v hid.ne_fresh
  · -- the name was free, so no other view loses it
    intro other id hid
    rw [bound?_insert]
    split
    · rename_i ho
      rw [ho, hfree] at hid
      cases hid
    · exact hid
  · intro other id hid
    rw [bound?_insert] at hid
    split at hid
    · rename_i ho
      rw [Option.some.injEq] at hid
      subst ho hid
      exact Or.inr ⟨hroot, List.mem_singleton_self _, hnew, v, hblank, hview⟩
    · exact Or.inl hid
  · intro other hother _ _
    rw [List.mem_singleton] at hother
    rw [bound?_insert, if_pos hother]
    rfl
  · -- all other names stand for views that were there
    intro a b id ha hb hnot
    rw [bound?_insert] at ha hb
    have honly : ∀ other,
        (if other = name then some w.store.fresh else s.bound? other) = some id →
        other = name := by
      intro other ho
      split at ho
      · assumption
      · exact absurd (hs other id ho) hnot
    rw [honly a ha, honly b hb]
  · intro id u hu hnot
    -- the one new view is the blank one
    by_cases hid : id = w.store.fresh
    · subst hid
      rw [hview, Option.some.injEq] at hu
      exact ⟨name, hu ▸ hblank⟩
    · rw [hstore, ViewStore.get?_add_of_ne w.store v hid] at hu
      exact absurd (ViewStore.has_iff.mpr ⟨u, hu⟩) hnot

theorem builds_buildName (name : String) {s : Scene} {w : World} (hs : s.Grounded w) :
    Builds [name] s w (s.buildName name w).1 (s.buildName name w).2 := by
  obtain ⟨w₁, hretold, ⟨hwhy, h⟩ | ⟨hroot, hfree, v, hblank, h⟩⟩ := buildName_cases s name w
  · rw [h]
    exact Builds.skip hs hretold hwhy
  · rw [h]
    exact Builds.add hs hretold hroot hfree hblank

/-- **Building names one after the other.** -/
theorem builds_buildNames (names : List String) {s : Scene} {w : World} (hs : s.Grounded w) :
    Builds names s w (buildNames names s w).1 (buildNames names s w).2 := by
  induction names generalizing s w with
  | nil => exact Builds.nil hs
  | cons name rest ih =>
    have h := builds_buildName name hs
    exact h.trans (ih (h.grounded hs))

/-! ## The same names again -/

/-- Two scenes of one definition that bind and reserve the same names, perhaps for other views. -/
structure Alike (s t : Scene) : Prop where
  definition : t.definition = s.definition
  root : t.root = s.root
  bindings : (t.bindings.entries.map fun p => (p.1, p.2.isSome)) =
    s.bindings.entries.map fun p => (p.1, p.2.isSome)

namespace Alike

variable {s t : Scene}

theorem refl (s : Scene) : Alike s s := ⟨rfl, rfl, rfl⟩

/-- Whether names are bound, without what they are bound to. -/
theorem isSome_bound? (h : Alike s t) (name : String) :
    (t.bound? name).isSome = (s.bound? name).isSome := by
  have hfound := congrArg (NameMap.find name) h.bindings
  rw [NameMap.find_map Option.isSome, NameMap.find_map Option.isSome] at hfound
  show ((NameMap.find name t.bindings.entries).join).isSome =
    ((NameMap.find name s.bindings.entries).join).isSome
  cases ht : NameMap.find name t.bindings.entries <;>
    cases hs : NameMap.find name s.bindings.entries <;> rw [ht, hs] at hfound <;> simp_all

theorem names (h : Alike s t) : t.names = s.names := by
  have hread : ∀ r : Scene, r.names =
      ((r.bindings.entries.map fun p => (p.1, p.2.isSome)).filter (·.2)).map (·.1) := by
    intro r
    rw [Scene.names, List.filter_map, List.map_map]
    rfl
  rw [hread, hread, h.bindings]

theorem insert (h : Alike s t) (name : String) (a b : ViewId) :
    Alike { s with bindings := s.bindings.insert name (some a) }
      { t with bindings := t.bindings.insert name (some b) } := by
  refine ⟨h.definition, h.root, ?_⟩
  show (NameMap.put name (some b) t.bindings.entries).map _ =
    (NameMap.put name (some a) s.bindings.entries).map _
  rw [← NameMap.put_map Option.isSome, ← NameMap.put_map Option.isSome, h.bindings]
  rfl

/-- The same name is built or refused in both. -/
theorem buildName (h : Alike s t) (name : String) (w u : World) :
    Alike (s.buildName name w).1 (t.buildName name u).1 := by
  have hroot : t.isRootName name = s.isRootName name := by
    rw [isRootName, isRootName, h.root]
  have hblank := blankFor_congr h.definition name
  have hbound := h.isSome_bound? name
  -- what decides about a name is the same in both, so the mixed cases contradict themselves
  obtain ⟨w₁, -, ⟨hs, hs'⟩ | ⟨hsroot, hsfree, v, hsblank, hs'⟩⟩ := s.buildName_cases name w <;>
    obtain ⟨u₁, -, ⟨ht, ht'⟩ | ⟨htroot, htfree, x, htblank, ht'⟩⟩ := t.buildName_cases name u <;>
    rw [hs', ht']
  · exact h
  · rw [hroot] at htroot
    rw [hblank] at htblank
    rw [htfree] at hbound
    simp [htroot, htblank, ← hbound] at hs
  · rw [← hroot] at hsroot
    rw [← hblank] at hsblank
    rw [hsfree] at hbound
    simp [hsroot, hsblank, hbound] at ht
  · exact h.insert name _ _

theorem buildNames (names : List String) (h : Alike s t) (w u : World) :
    Alike (Scene.buildNames names s w).1 (Scene.buildNames names t u).1 := by
  induction names generalizing s t w u with
  | nil => exact h
  | cons name rest ih => exact ih (h.buildName name w u) _ _

end Alike

/-! ## Loading -/

/-- A scene before any view is built. -/
def bare (d : Definition) (root : String) (hierarchy : Hierarchy) (data : DataBindings)
    (views : List (String × ViewId)) : Scene :=
  ⟨d, root, hierarchy, data, initialBindings root views, .viewsConstructed⟩

theorem bound?_bare (d : Definition) (root : String) (hierarchy : Hierarchy) (data : DataBindings)
    (views : List (String × ViewId)) (name : String) :
    (bare d root hierarchy data views).bound? name =
      if (bare d root hierarchy data views).isRootName name then none
      else ((NameMap.ofList (views.map fun (name, id) => (name, some id))).get? name).join := by
  show ((initialBindings root views).get? name).join = _
  rw [initialBindings, NameMap.get?_insert, NameMap.get?_insert, isRootName]
  by_cases hroot : name = root
  · simp [bare, hroot]
  · by_cases hname : name = rootName
    · simp [bare, hname]
    · simp [bare, hroot, hname]

theorem mem_of_bound?_bare {d : Definition} {root : String} {hierarchy : Hierarchy}
    {data : DataBindings} {views : List (String × ViewId)} {name : String} {id : ViewId}
    (h : (bare d root hierarchy data views).bound? name = some id) :
    (bare d root hierarchy data views).isRootName name = false ∧ (name, id) ∈ views := by
  rw [bound?_bare] at h
  split at h
  · cases h
  · rename_i hroot
    rw [Option.join_eq_some_iff] at h
    obtain ⟨p, hp, hpair⟩ := List.mem_map.mp (NameMap.mem_of_get?_ofList h)
    rw [Prod.mk.injEq, Option.some.injEq] at hpair
    obtain ⟨rfl, rfl⟩ := hpair
    exact ⟨Bool.eq_false_iff.mpr hroot, hp⟩

/-- The views that are handed in are there. -/
theorem grounded_bare {views : List (String × ViewId)} {w : World}
    (hviews : ∀ p ∈ views, w.store.Has p.2) (d : Definition) (root : String) (hierarchy : Hierarchy)
    (data : DataBindings) : (bare d root hierarchy data views).Grounded w :=
  fun _ _ hid => hviews _ (mem_of_bound?_bare hid).2

theorem load_eq {d : Definition} {root : String} {hierarchy : Hierarchy}
    (hfound : (d.document.get? root).bind (·.hierarchy) = some hierarchy) (data : DataBindings)
    (views : List (String × ViewId)) (w : World) {s : Scene} {w₁ : World}
    (hbuilt : buildNames (bare d root hierarchy data views).nodeNames
      (bare d root hierarchy data views) w = (s, w₁)) :
    load d root data views w = match s.applyAll .construction w₁ with
      | (.error e, w₂) => (.error (e.during "while building views"), w₂)
      | (.ok (), w₂) => (.ok s, w₂) := by
  unfold bare at hbuilt
  rcases happly : s.applyAll .construction w₁ with ⟨_ | ⟨⟩, w₂⟩
  · rw [load, hfound]
    dsimp only
    rw [hbuilt, happly]
  · rw [load, hfound]
    dsimp only
    rw [hbuilt, happly]

/-- What building the names of a hierarchy comes to. -/
theorem builds_of_buildNames {d : Definition} {root : String} {hierarchy : Hierarchy}
    {data : DataBindings} {views : List (String × ViewId)} {w w₁ : World} {s : Scene}
    (hviews : ∀ p ∈ views, w.store.Has p.2)
    (hbuilt : buildNames (bare d root hierarchy data views).nodeNames
      (bare d root hierarchy data views) w = (s, w₁)) :
    Builds (bare d root hierarchy data views).nodeNames (bare d root hierarchy data views) w
      s w₁ := by
  have hbuilds := builds_buildNames (bare d root hierarchy data views).nodeNames
    (grounded_bare hviews d root hierarchy data)
  rw [hbuilt] at hbuilds
  exact hbuilds

/-- A load that succeeds has built names and then handed all properties over. -/
theorem exists_buildNames_of_load {d : Definition} {root : String} {data : DataBindings}
    {views : List (String × ViewId)} {w w' : World} {s : Scene}
    (h : load d root data views w = (.ok s, w')) :
    ∃ hierarchy w₁, (d.document.get? root).bind (·.hierarchy) = some hierarchy ∧
      buildNames (bare d root hierarchy data views).nodeNames (bare d root hierarchy data views) w
        = (s, w₁) ∧
      s.applyAll .construction w₁ = (.ok (), w') := by
  cases hfound : (d.document.get? root).bind (·.hierarchy) with
  | none =>
    rw [load, hfound] at h
    cases h
  | some hierarchy =>
    rcases hbuilt : buildNames (bare d root hierarchy data views).nodeNames
      (bare d root hierarchy data views) w with ⟨t, w₁⟩
    rw [load_eq hfound data views w hbuilt] at h
    split at h
    · cases h
    · rename_i w₂ happly
      rw [Prod.mk.injEq, Except.ok.injEq] at h
      obtain ⟨rfl, rfl⟩ := h
      exact ⟨hierarchy, w₁, rfl, hbuilt, happly⟩

/-- **What a load that succeeds has done.**  The views for the names of the hierarchy are built, and
    then all properties are handed over. -/
theorem exists_builds_of_load {d : Definition} {root : String} {data : DataBindings}
    {views : List (String × ViewId)} {w w' : World} {s : Scene}
    (hviews : ∀ p ∈ views, w.store.Has p.2) (h : load d root data views w = (.ok s, w')) :
    ∃ hierarchy w₁, (d.document.get? root).bind (·.hierarchy) = some hierarchy ∧
      Builds s.nodeNames (bare d root hierarchy data views) w s w₁ ∧
      s.applyAll .construction w₁ = (.ok (), w') := by
  obtain ⟨hierarchy, w₁, hfound, hbuilt, happly⟩ := exists_buildNames_of_load h
  have hbuilds := builds_of_buildNames hviews hbuilt
  have hnames : s.nodeNames = (bare d root hierarchy data views).nodeNames := by
    rw [nodeNames, nodeNames, hbuilds.hierarchy_eq]
  exact ⟨hierarchy, w₁, hfound, hnames ▸ hbuilds, happly⟩

/-- Without initial views, a bound name stands for a new view of its own. -/
theorem Builds.made_of_bare {d : Definition} {root : String} {hierarchy : Hierarchy}
    {data : DataBindings} {names : List String} {w w' : World} {s : Scene}
    (h : Builds names (bare d root hierarchy data []) w s w') {name : String} {id : ViewId}
    (hid : s.bound? name = some id) :
    s.isRootName name = false ∧ name ∈ names ∧ ¬ w.store.Has id ∧
      ∃ v, s.blankFor name = some v ∧ w'.store.get? id = some v := by
  have hbare : (bare d root hierarchy data []).bound? name ≠ some id :=
    fun hid => List.not_mem_nil (mem_of_bound?_bare hid).2
  rw [h.isRootName_eq, blankFor_congr h.definition_eq]
  exact (h.made name id hid).resolve_left hbare

/-- The names of the root wait for a container. -/
theorem Builds.unattached {d : Definition} {root : String} {hierarchy : Hierarchy}
    {data : DataBindings} {views : List (String × ViewId)} {names : List String} {w w' : World}
    {s : Scene} (h : Builds names (bare d root hierarchy data views) w s w') {name : String}
    (hname : s.isRootName name = true) : s.bound? name = none := by
  rw [h.isRootName_eq] at hname
  rw [Option.eq_none_iff_forall_ne_some]
  intro id hid
  rcases h.made name id hid with hbare | ⟨hnot, -⟩
  · rw [(mem_of_bound?_bare hbare).1] at hname
    cases hname
  · rw [hnot] at hname
    cases hname

/-- A scene that has just been loaded. -/
structure Loaded (d : Definition) (root : String) (data : DataBindings) (s : Scene) (w : World) :
    Prop where
  definition : s.definition = d
  root : s.root = root
  data : s.data = data
  state : s.state = .viewsConstructed
  grounded : s.Grounded w
  /-- The names of the root wait for a container. -/
  unattached : ∀ name, s.isRootName name = true → s.bound? name = none

theorem loaded_of_load {d : Definition} {root : String} {data : DataBindings}
    {views : List (String × ViewId)} {w w' : World} {s : Scene}
    (hviews : ∀ p ∈ views, w.store.Has p.2) (h : load d root data views w = (.ok s, w')) :
    Loaded d root data s w' := by
  obtain ⟨hierarchy, w₁, -, hbuilds, happly⟩ := exists_builds_of_load hviews h
  refine ⟨hbuilds.definition_eq, hbuilds.root_eq, hbuilds.data_eq, hbuilds.state_eq, ?_, ?_⟩
  · have hsize := s.size_applyEach .construction s.configured w₁
    rw [← applyAll, happly] at hsize
    exact (hbuilds.grounded (grounded_bare hviews d root hierarchy data)).of_size hsize
  · exact fun _ hname => hbuilds.unattached hname

end Scene

end ViewSheet
