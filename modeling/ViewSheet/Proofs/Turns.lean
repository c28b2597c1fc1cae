/-
  Turns: the record of executions is the record of what setters were really run with.

  1. **Specification**: `Turned` is one hand-over as the catalogue sees it.  The text of a property
     under the present data goes to the view that its declaration's name stands for, and a setter
     takes it, or refuses it, or there is none.  `Turns` is a run of them: each starts in the world
     that the one before it has left, and the first failure is the last.

  2. **The crux**: the program says nothing of such runs.  `Traced` says that what a pass does is
     one, by an induction along each of its loops.

  3. **Bridge**: a run enters what it consists of into the record, entry by entry
     (`Turns.executions`).  So the run of a pass is the list that the record has gained, and all
     that is known of the record is known of the run (`Traced.turns`).

  4. **Order**: the declarations have their turns in the order of the names, each name once, where
     it comes first (`flatMap_configured`).
-/
import ViewSheet.Proofs.Mentions
import ViewSheet.Proofs.Session

namespace ViewSheet

namespace Scene

/-! ## One hand-over -/

/-- The text that an execution records is at hand for the view that it is handed to. -/
structure Ready (s : Scene) (w : World) (x : Execution) (id : ViewId) (v : View)
    (p : PropertyText) : Prop where
  bound : s.bound? x.declaration = some id
  view : w.store.get? id = some v
  /-- The document states the property, and the text is filled in with the present data. -/
  stated : ∃ d, s.definition.document.get? x.declaration = some d ∧
    d.filled? x.property s.data = some p
  text : p.value = x.text

/-- **One turn of a property**: what comes of it, and the world after it. -/
inductive Turned (s : Scene) (w : World) (x : Execution) : Except Error Unit → World → Prop where
  | took {id : ViewId} {v : View} {p : PropertyText} {setter : Setter} (ready : s.Ready w x id v p)
      (found : s.definition.catalogue.setter? v.className x.property = some setter)
      (result : (setter.execute (s.turn x.phase w id) (.start p.value p.line) v).result = .ok ()) :
      Turned s w x (.ok ())
        (((w.enter x).setView id
            (setter.execute (s.turn x.phase w id) (.start p.value p.line) v).view).tell
          (s.receipt x.phase id x.property p w v).events)
  | refused {id : ViewId} {v : View} {p : PropertyText} {setter : Setter} {e : Error}
      (ready : s.Ready w x id v p)
      (found : s.definition.catalogue.setter? v.className x.property = some setter)
      (result : (setter.execute (s.turn x.phase w id) (.start p.value p.line) v).result =
        .error e) :
      -- the view keeps whatever the hook did to it before it failed
      Turned s w x (.error (e.during s!"while setting properties for {x.declaration}"))
        (((w.enter x).setView id
            (setter.execute (s.turn x.phase w id) (.start p.value p.line) v).view).tell
          (s.receipt x.phase id x.property p w v).events)
  | unhandled {id : ViewId} {v : View} {p : PropertyText} (ready : s.Ready w x id v p)
      (found : s.definition.catalogue.setter? v.className x.property = none) :
      Turned s w x
        (.error ((Catalogue.unhandled v.className x.property p.line).during
          s!"while setting properties for {x.declaration}"))
        ((w.enter x).tell (s.receipt x.phase id x.property p w v).events)

/-- Turn after turn, up to the first failure. -/
inductive Turns (s : Scene) : World → List Execution → Except Error Unit → World → Prop where
  | none (w : World) : Turns s w [] (.ok ()) w
  | next {w w₁ w' : World} {x : Execution} {xs : List Execution} {r : Except Error Unit}
      (first : s.Turned w x (.ok ()) w₁) (rest : Turns s w₁ xs r w') : Turns s w (x :: xs) r w'
  | failed {w w' : World} {x : Execution} {e : Error} (last : s.Turned w x (.error e) w') :
      Turns s w [x] (.error e) w'

theorem Turned.executions {s : Scene} {w w' : World} {x : Execution} {r : Except Error Unit}
    (h : s.Turned w x r w') : w'.executions = w.executions ++ [x] := by
  cases h <;> rfl

namespace Turns

variable {s : Scene} {a b c : World} {xs ys : List Execution} {r : Except Error Unit}

/-- **A run is what the record has gained.** -/
theorem executions (h : s.Turns a xs r b) : b.executions = a.executions ++ xs := by
  induction h with
  | none w => exact (List.append_nil _).symm
  | next first _ ih => rw [ih, first.executions, List.append_assoc, List.singleton_append]
  | failed last => exact last.executions

theorem trans (h : s.Turns a xs (.ok ()) b) (k : s.Turns b ys r c) :
    s.Turns a (xs ++ ys) r c := by
  generalize hr : (Except.ok () : Except Error Unit) = q at h
  induction h with
  | none w => exact k
  | next first _ ih => exact .next first (ih k hr)
  | failed last => cases hr

end Turns

/-! ## What the program does -/

/-- What was done is a run. -/
def Traced (s : Scene) (r : Except Error Unit) (a b : World) : Prop := ∃ xs, s.Turns a xs r b

theorem Traced.trans {s : Scene} {a b c : World} {r : Except Error Unit}
    (h : s.Traced (.ok ()) a b) (k : s.Traced r b c) : s.Traced r a c := by
  obtain ⟨xs, hxs⟩ := h
  obtain ⟨ys, hys⟩ := k
  exact ⟨xs ++ ys, hxs.trans hys⟩

/-- What is known of the record is known of the run. -/
theorem Traced.turns {s : Scene} {a b : World} {r : Except Error Unit} {due : List Execution}
    (h : s.Traced r a b) (hhanded : Handed due r a b) :
    ∃ xs, s.Turns a xs r b ∧ xs <+: due ∧ (r = .ok () → xs = due) := by
  obtain ⟨xs, hxs⟩ := h
  obtain ⟨done, hdone, hexec, hall⟩ := hhanded
  have hsame : xs = done := by
    rw [hxs.executions] at hexec
    exact List.append_cancel_left hexec
  subst hsame
  exact ⟨xs, hxs, hdone, hall⟩

section
variable {s : Scene} {d : Declaration}

/-- A property that is handed over has its turn. -/
theorem traced_applyKey (hd : s.definition.document.get? d.name = some d) (phase : Phase)
    {id : ViewId} (hid : s.bound? d.name = some id) (key : String) (w : World) :
    s.Traced (s.applyKey phase d id key w).1 w (s.applyKey phase d id key w).2 := by
  rcases s.applyKey_cases phase d id key w with
    ⟨-, h⟩ | ⟨p, v, hp, hv, hrun⟩
  · rw [h]
    exact ⟨[], .none w⟩
  have hready : s.Ready w ⟨phase, d.name, key, p.value⟩ id v p := ⟨hid, hv, ⟨d, hd, hp⟩, rfl⟩
  cases hfound : s.definition.catalogue.setter? v.className key with
  | some setter =>
    have hresult : (s.receipt phase id key p w v).result =
        (setter.execute (s.turn phase w id) (.start p.value p.line) v).result := by
      rw [receipt, Catalogue.result_receive, hfound]
    have hview : (s.receipt phase id key p w v).view =
        (setter.execute (s.turn phase w id) (.start p.value p.line) v).view := by
      rw [receipt, Catalogue.view_receive, hfound]
    rw [hresult] at hrun
    rcases hrun with ⟨hr, h⟩ | ⟨e, hr, h⟩ <;> rw [h, received, hview]
    · exact ⟨_, .next (.took hready hfound hr) (.none _)⟩
    · exact ⟨_, .failed (.refused hready hfound hr)⟩
  | none =>
    have hresult : (s.receipt phase id key p w v).result =
        .error (Catalogue.unhandled v.className key p.line) := by
      rw [receipt, Catalogue.result_receive, hfound]
      rfl
    have hview : (s.receipt phase id key p w v).view = v := by
      rw [receipt, Catalogue.view_receive, hfound]
    rw [hresult] at hrun
    rcases hrun with ⟨hr, -⟩ | ⟨e, hr, h⟩
    · cases hr
    · rw [Except.error.injEq] at hr
      -- setting the view to what it was changes nothing
      have hsame : (w.enter ⟨phase, d.name, key, p.value⟩).setView id v =
          w.enter ⟨phase, d.name, key, p.value⟩ := World.setView_self hv
      rw [h, received, hview, hsame, ← hr]
      refine ⟨[⟨phase, d.name, key, p.value⟩], .failed ?_⟩
      exact .unhandled hready hfound

theorem traced_applyKeys (hd : s.definition.document.get? d.name = some d) (phase : Phase)
    {id : ViewId} (hid : s.bound? d.name = some id) (keys : List String) (w : World) :
    s.Traced (s.applyKeys phase d id keys w).1 w (s.applyKeys phase d id keys w).2 := by
  induction keys generalizing w with
  | nil => exact ⟨[], .none w⟩
  | cons key rest ih =>
    have h := traced_applyKey hd phase hid key w
    rw [applyKeys]
    split
    · rename_i h1
      rw [h1] at h
      exact h
    · rename_i h1
      rw [h1] at h
      exact h.trans (ih _)

theorem traced_applyDeclaration (hd : s.definition.document.get? d.name = some d) (phase : Phase)
    (keys : List String) (w : World) :
    s.Traced (s.applyDeclaration phase d keys w).1 w (s.applyDeclaration phase d keys w).2 := by
  rw [applyDeclaration]
  cases hid : s.bound? d.name with
  | none => exact ⟨[], .none w⟩
  | some id => exact traced_applyKeys hd phase hid keys w

theorem traced_applyEach (phase : Phase) {ds : List Declaration}
    (hds : ∀ d ∈ ds, s.definition.document.get? d.name = some d) (w : World) :
    s.Traced (s.applyEach phase ds w).1 w (s.applyEach phase ds w).2 := by
  induction ds generalizing w with
  | nil => exact ⟨[], .none w⟩
  | cons d rest ih =>
    have h := traced_applyDeclaration (hds d List.mem_cons_self) phase d.setterKeys w
    have hrest := ih fun e he => hds e (List.mem_cons_of_mem d he)
    rw [applyEach]
    split
    · rename_i h1
      rw [h1] at h
      exact h
    · rename_i h1
      rw [h1] at h
      exact h.trans (hrest _)

/-- A declaration is handed over again in one turn after the other. -/
theorem traced_reapplyKeys (hd : s.definition.document.get? d.name = some d) (keys : List String)
    (w : World) : s.Traced (s.reapplyKeys d keys w).1 w (s.reapplyKeys d keys w).2 := by
  have h := traced_applyDeclaration hd .construction keys w
  rw [reapplyKeys]
  split
  · rename_i h1
    rw [h1] at h
    exact h
  · rename_i h1
    rw [h1] at h
    split
    · exact h.trans (traced_applyDeclaration hd .attached keys _)
    · exact h

theorem traced_reapply (changed : List String) {ds : List Declaration}
    (hds : ∀ d ∈ ds, s.definition.document.get? d.name = some d) (w : World) :
    s.Traced (s.reapply changed ds w).1 w (s.reapply changed ds w).2 := by
  induction ds generalizing w with
  | nil => exact ⟨[], .none w⟩
  | cons d rest ih =>
    have h := traced_reapplyKeys (hds d List.mem_cons_self) (affectedKeys d changed) w
    have hrest := ih fun e he => hds e (List.mem_cons_of_mem d he)
    rw [reapply]
    split
    · rename_i h1
      rw [h1] at h
      exact h
    · rename_i h1
      rw [h1] at h
      exact h.trans (hrest _)

end

/-- **A pass is a run** of the turns that are due, up to the first failure. -/
theorem turns_applyAll {s : Scene} (hdoc : s.definition.document.Indexed) {w : World}
    (hs : s.Grounded w) (phase : Phase) : ∃ xs,
      s.Turns w xs (s.applyAll phase w).1 (s.applyAll phase w).2 ∧ xs <+: s.allHandings phase ∧
        ((s.applyAll phase w).1 = .ok () → xs = s.allHandings phase) :=
  (traced_applyEach phase (fun _ hd => get?_of_mem_configured hdoc hd) w).turns
    (handed_applyAll hs phase)

/-- **So is configuring a container.** -/
theorem turns_configureRoot {s : Scene} (hdoc : s.definition.document.Indexed) {w : World}
    (hs : s.Grounded w) : ∃ xs,
      s.Turns w xs (s.configureRoot w).1 (s.configureRoot w).2 ∧ xs <+: s.rootHandings ∧
        ((s.configureRoot w).1 = .ok () → xs = s.rootHandings) := by
  refine Traced.turns ?_ (handed_configureRoot hs)
  unfold configureRoot
  cases hd : s.definition.document.get? s.root with
  | none => exact ⟨[], .none w⟩
  | some d =>
    have hname : d.name = s.root := (hdoc s.root d hd).named
    exact traced_applyDeclaration (hname ▸ hd) .construction d.setterKeys w

/-! ## In which order -/

/-- What the declarations under some names are handed, each if its view is bound. -/
def dueFor (s : Scene) (names : List String) (due : Declaration → List Execution) :
    List Execution :=
  names.flatMap fun name => match s.definition.document.get? name with
    | some d => if (s.bound? name).isSome then due d else []
    | none => []

/-- The names of the nodes in the order in which they come first, level by level, and the root's,
    if no node has it. -/
def order (s : Scene) : List String := (s.nodeNames ++ [s.root]).eraseDups

theorem declaredNames_eq (s : Scene) : s.declaredNames = s.order := by
  rw [declaredNames, foldl_insertNew_nil, order]

/-- **The declarations that are applied are those of the names in their order.**  Leaving out those
    that have nothing to set makes no difference. -/
theorem flatMap_configured {s : Scene} (hdoc : s.definition.document.Indexed)
    {due : Declaration → List Execution} (hnone : ∀ d, d.setterKeys = [] → due d = []) :
    (s.configured.flatMap fun d => if (s.bound? d.name).isSome then due d else []) =
      s.dueFor s.order due := by
  rw [configured, declaredNames_eq, dueFor]
  generalize s.order = names
  induction names with
  | nil => rfl
  | cons name rest ih =>
    rw [List.flatMap_cons, ← ih]
    cases hd : s.definition.document.get? name with
    | none =>
      rw [List.filterMap_cons_none hd]
      rfl
    | some d =>
      have hname : d.name = name := (hdoc name d hd).named
      rw [List.filterMap_cons_some hd, List.filter_cons]
      cases hkeys : d.setterKeys with
      | nil =>
        rw [if_neg (by simp)]
        dsimp only
        rw [hnone d hkeys, ite_self, List.nil_append]
      | cons key more => rw [if_pos (by simp), List.flatMap_cons, hname]

/-- The turns of some properties of a declaration in a pass. -/
def turnsOf (s : Scene) (phase : Phase) (d : Declaration) (keys : List String) : List Execution :=
  keys.filterMap (s.handing phase d)

theorem handings_eq (s : Scene) (phase : Phase) (d : Declaration) (keys : List String) :
    s.handings phase d keys = if (s.bound? d.name).isSome then s.turnsOf phase d keys else [] := rfl

end Scene

end ViewSheet
