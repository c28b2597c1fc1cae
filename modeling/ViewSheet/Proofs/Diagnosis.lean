/-
  Diagnosis: what an error says of the property that a call has failed at.

  1. **Program**: a failing setter's error passes through the declaration, the pass and the call.
     On its way it gains notes, and nothing else.

  2. **Specification**: an error *points at* a line if that is the line of a property, the text of
     this property was refused or nobody would have it, and no note is missing or made twice.  From
     the world that the call starts in, the turns that were due before this one were taken one after
     the other, and those due after it were not had (`PointsAt`).

  3. **The crux**: a run that fails does so with its last turn (`Turns.last`).  Setters of the stock
     classes blame the line they are given or none, and the line that they are given is the one the
     property is stated on, whatever is filled in (`Turned.blames`).

  4. **Result** (`pointsAt_of_failure`): whenever a load, an attach call or an update fails with an
     error that has a line, at any time in the life of a host, the error points at that line.
-/
import ViewSheet.Proofs.Blame
import ViewSheet.Proofs.PassOrder
import ViewSheet.Proofs.Reapplying
import ViewSheet.Proofs.Refusals

namespace ViewSheet

namespace Scene

/-! ## The turn that failed -/

/-- A run that fails does so with its last turn; those before are a run of their own. -/
theorem Turns.last {s : Scene} {a b : World} {xs : List Execution} {e : Error}
    (h : s.Turns a xs (.error e) b) :
    ∃ before x w, xs = before ++ [x] ∧ s.Turns a before (.ok ()) w ∧ s.Turned w x (.error e) b := by
  generalize hr : (Except.error e : Except Error Unit) = r at h
  induction h with
  | none w => cases hr
  | @next a w₁ b x xs r first _ ih =>
    obtain ⟨before, y, w, rfl, hbefore, hlast⟩ := ih hr
    exact ⟨x :: before, y, w, rfl, .next first hbefore, hlast⟩
  | @failed a b x e' last =>
    rw [Except.error.injEq] at hr
    exact ⟨[], x, a, rfl, .none a, hr ▸ last⟩

/-- From a world on, turns were taken one after the other. -/
def Taking (s : Scene) (a : World) (before : List Execution) (w : World) : Prop :=
  s.Turns a before (.ok ()) w

/-- So were turns of settling a container: the root's, or all of these and, after the wiring, those
    of a pass. -/
def Settling (s : Scene) (a : World) (before : List Execution) (w : World) : Prop :=
  (before.length < s.rootHandings.length ∧ s.Turns a before (.ok ()) w) ∨
    ∃ u rest, before = s.rootHandings ++ rest ∧ s.Turns a s.rootHandings (.ok ()) u ∧
      s.Turns (s.wire u) rest (.ok ()) w

/-- Of what was due, the turns before one were begun with, and this one failed. -/
def FailsIn (s : Scene) (begun : List Execution → World → Prop) (due : List Execution) (e : Error)
    (b : World) : Prop :=
  ∃ before x w, before ++ [x] <+: due ∧ begun before w ∧ s.Turned w x (.error e) b

section
variable {s : Scene} {a b w : World} {e : Error} {before : List Execution}

theorem Taking.executions (h : s.Taking a before w) : w.executions = a.executions ++ before :=
  Turns.executions h

theorem executions_wire (s : Scene) (w : World) : (s.wire w).executions = w.executions :=
  s.executions_wireNodes s.hierarchy.breadthFirst w

theorem Settling.executions (h : s.Settling a before w) :
    w.executions = a.executions ++ before := by
  rcases h with ⟨-, h⟩ | ⟨u, rest, rfl, hroot, hrest⟩
  · exact h.executions
  · rw [hrest.executions, executions_wire, hroot.executions, List.append_assoc]

/-- A run that fails. -/
theorem Turns.failsIn {xs due : List Execution} (h : s.Turns a xs (.error e) b)
    (hdue : xs <+: due) : s.FailsIn (s.Taking a) due e b := by
  obtain ⟨before, x, w, rfl, hbefore, hlast⟩ := h.last
  exact ⟨before, x, w, hdue, hbefore, hlast⟩

theorem failsIn_applyAll (hdoc : s.definition.document.Indexed) (hs : s.Grounded a) {phase : Phase}
    (h : s.applyAll phase a = (.error e, b)) :
    s.FailsIn (s.Taking a) (s.allHandings phase) e b := by
  obtain ⟨xs, hturns, hdue, -⟩ := turns_applyAll hdoc hs phase
  rw [h] at hturns
  exact hturns.failsIn hdue

/-- Settling a container fails while the container is configured, or after the wiring. -/
theorem failsIn_settle (hdoc : s.definition.document.Indexed) (hs : s.Grounded a) {first : Bool}
    (h : s.settle first a = (.error e, b)) :
    s.FailsIn (s.Settling a) (s.settlings first) e b := by
  obtain ⟨done, hturns, hdone, hall⟩ := turns_configureRoot hdoc hs
  have hsize := s.size_configureRoot a
  unfold settle at h
  rcases hroot : s.configureRoot a with ⟨e' | ⟨⟩, u⟩
  · rw [hroot] at h hturns
    rw [Prod.mk.injEq, Except.error.injEq] at h
    obtain ⟨rfl, rfl⟩ := h
    obtain ⟨before, x, w, rfl, hbefore, hlast⟩ := hturns.last
    refine ⟨before, x, w, hdone.trans (List.prefix_append _ _), Or.inl ⟨?_, hbefore⟩, hlast⟩
    have hlength := hdone.length_le
    rw [List.length_append, List.length_singleton] at hlength
    exact hlength
  · rw [hroot] at h hturns hall hsize
    obtain rfl := hall rfl
    cases first with
    | false => cases h
    | true =>
      -- wiring takes no view away
      have hgrown : (s.wire u).store.size = u.store.size :=
        (s.extends_wireNodes s.hierarchy.breadthFirst u).size
      obtain ⟨xs, hpass, hxs, -⟩ :=
        turns_applyAll hdoc (hs.of_size (hgrown.trans hsize)) .attached
      rw [show s.applyAll .attached (s.wire u) = (.error e, b) from h] at hpass
      obtain ⟨rest, x, w, rfl, hrest, hlast⟩ := hpass.last
      refine ⟨s.rootHandings ++ rest, x, w, ?_, Or.inr ⟨u, rest, rfl, hturns, hrest⟩, hlast⟩
      rw [List.append_assoc]
      exact (List.prefix_append_right_inj _).mpr hxs

theorem failsIn_reapply (hdoc : s.definition.document.Indexed) (hs : s.Grounded a)
    {old : DataBindings}
    (h : s.reapply (old.changedKeys s.data) s.configured a = (.error e, b)) :
    s.FailsIn (s.Taking a) (s.rebound old) e b := by
  have htraced := traced_reapply (old.changedKeys s.data)
    (fun d hd => get?_of_mem_configured hdoc hd) a
  obtain ⟨xs, hturns, hdue, -⟩ :=
    htraced.turns (handed_reapply (old.changedKeys s.data) s.configured hs)
  rw [h] at hturns
  rw [← flatMap_rehandings hdoc]
  exact hturns.failsIn hdue

end

/-! ## What is due is stated -/

/-- The execution is of a property that is stated, under a name on the sheet. -/
def Stated (s : Scene) (x : Execution) : Prop :=
  (x.declaration ∈ s.hierarchy.names ∨ x.declaration = s.root) ∧
    ∃ d, s.definition.document.get? x.declaration = some d ∧ x.property ∈ d.setterKeys

/-- The turns of a pass in their order: those of the names, level by level and each name where it
    comes first, and then the root's. -/
def passTurns (s : Scene) (phase : Phase) : List Execution :=
  s.dueFor s.order fun d => s.turnsOf phase d d.setterKeys

section
variable {s : Scene} {x : Execution}

theorem stated_of_mem_turnsOf (hdoc : s.definition.document.Indexed) {name : String}
    {d : Declaration} (hname : name ∈ s.nodeNames ∨ name = s.root)
    (hd : s.definition.document.get? name = some d) {phase : Phase} {keys : List String}
    (hkeys : ∀ key ∈ keys, key ∈ d.setterKeys) (hx : x ∈ s.turnsOf phase d keys) : s.Stated x := by
  obtain ⟨key, hkey, hplace⟩ := place_of_mem_turnsOf hx
  have hdeclaration : x.declaration = name := by
    rw [← (hdoc name d hd).named]
    exact congrArg (·.2.1) hplace
  have hproperty : x.property = key := congrArg (·.2.2) hplace
  rw [Stated, hdeclaration, hproperty]
  refine ⟨hname.imp_left fun hmem => ?_, d, hd, hkeys key hkey⟩
  obtain ⟨node, hnode, rfl⟩ := List.mem_map.mp hmem
  exact Hierarchy.nameOf_mem_names hnode

theorem stated_of_mem_dueFor {due : Declaration → List Execution}
    (hdue : ∀ name d, (name ∈ s.nodeNames ∨ name = s.root) →
      s.definition.document.get? name = some d → ∀ x ∈ due d, s.Stated x)
    (hx : x ∈ s.dueFor s.order due) : s.Stated x := by
  obtain ⟨name, hname, hx⟩ := List.mem_flatMap.mp hx
  rw [order, List.mem_eraseDups, List.mem_append, List.mem_singleton] at hname
  split at hx
  · rename_i d hd
    split at hx
    · exact hdue name d hname hd x hx
    · cases hx
  · cases hx

theorem stated_of_mem_passTurns (hdoc : s.definition.document.Indexed) {phase : Phase}
    (hx : x ∈ s.passTurns phase) : s.Stated x :=
  stated_of_mem_dueFor (fun _ _ hname hd _ hx =>
    stated_of_mem_turnsOf hdoc hname hd (fun _ hkey => hkey) hx) hx

theorem stated_of_mem_rootHandings (hdoc : s.definition.document.Indexed)
    (hx : x ∈ s.rootHandings) : s.Stated x := by
  unfold rootHandings at hx
  split at hx
  · rename_i d hd
    rw [handings_eq] at hx
    split at hx
    · exact stated_of_mem_turnsOf hdoc (Or.inr rfl) hd (fun _ hkey => hkey) hx
    · cases hx
  · cases hx

theorem stated_of_mem_rebound (hdoc : s.definition.document.Indexed) {old : DataBindings}
    (hx : x ∈ s.rebound old) : s.Stated x := by
  refine stated_of_mem_dueFor (fun name d hname hd x hx => ?_) hx
  have hkeys : ∀ key ∈ d.setterKeys.filter (d.shifts old s.data), key ∈ d.setterKeys :=
    fun _ hkey => (List.mem_filter.mp hkey).1
  rcases List.mem_append.mp hx with hconstruction | hattached
  · exact stated_of_mem_turnsOf hdoc hname hd hkeys hconstruction
  · split at hattached
    · exact stated_of_mem_turnsOf hdoc hname hd hkeys hattached
    · cases hattached

end

/-! ## What a turn is blamed on -/

/-- A fault on a line, of one of the kinds that a setter's turn can end with. -/
def FaultOn (line : Nat) (fault : Fault) : Prop :=
  ∃ detail, fault = .unhandledProperty detail line ∨ fault = .unrecognized detail line

/-- **A turn that fails blames the line of its property, or none.** -/
theorem Turned.blames {s : Scene} (hsetters : s.definition.catalogue.Keeps fun _ t => t.Blames)
    {w w' : World} {x : Execution} {e : Error} (h : s.Turned w x (.error e) w') :
    e.line? = none ∨ ∃ d p, s.definition.document.get? x.declaration = some d ∧
      d.property? x.property = some p ∧ FaultOn p.line e.fault ∧
      e.trail = [s!"while setting properties for {x.declaration}"] := by
  cases h with
  | refused ready found result =>
    obtain ⟨d, hd, hfilled⟩ := ready.stated
    obtain ⟨p, hp, rfl⟩ := Option.map_eq_some_iff.mp hfilled
    rcases (hsetters.setter? found).execute result with ⟨detail, rfl⟩ | hnone
    · exact Or.inr ⟨d, p, hd, hp, ⟨detail, Or.inr rfl⟩, rfl⟩
    · exact Or.inl hnone
  | unhandled ready found =>
    obtain ⟨d, hd, hfilled⟩ := ready.stated
    obtain ⟨p, hp, rfl⟩ := Option.map_eq_some_iff.mp hfilled
    exact Or.inr ⟨d, p, hd, hp, ⟨_, Or.inl rfl⟩, rfl⟩

/-- A turn that fails changes no view, if setters that fail do not. -/
theorem Turned.store_of_error {s : Scene}
    (hsetters : s.definition.catalogue.Keeps fun _ t => t.Careful) {w w' : World} {x : Execution}
    {e : Error} (h : s.Turned w x (.error e) w') : w'.store = w.store := by
  cases h with
  | refused ready found result =>
    rw [World.store_tell, World.store_setView, (hsetters.setter? found).view_execute result]
    exact ViewStore.set_self ready.view
  | unhandled ready found => rfl

/-! ## What an error points at -/

/-- **An error points at a line.**  It is that of a property of some declaration, whose turn has
    failed where it was due, after the turns that the call has begun with. -/
structure Culprit (s : Scene) (begun : List Execution → World → Prop) (due : List Execution)
    (notes : List String) (e : Error) (line : Nat) (a b : World) (before : List Execution)
    (x : Execution) : Prop where
  declared : x.declaration ∈ s.hierarchy.names ∨ x.declaration = s.root
  setter : x.property ≠ Declaration.classKey
  stated : ∃ d p, s.definition.document.get? x.declaration = some d ∧
    d.property? x.property = some p ∧ p.line = line
  fault : FaultOn line e.fault
  trail : e.trail = s!"while setting properties for {x.declaration}" :: notes
  /-- What was due before it was taken, and left a world in which handing the property over has
      failed for this fault.  That has changed no view. -/
  failed : ∃ w e₀ w', begun before w ∧ s.Turned w x (.error e₀) w' ∧ e₀.fault = e.fault ∧
    w'.store = w.store ∧ b.store = w.store
  due : before ++ [x] <+: due
  /-- Nothing was handed over after it. -/
  last : b.executions = a.executions ++ before ++ [x]

/-- An error points at a line, with these notes after that of the declaration. -/
def PointsAt (s : Scene) (begun : List Execution → World → Prop) (due : List Execution)
    (notes : List String) (e : Error) (line : Nat) (a b : World) : Prop :=
  ∃ before x, s.Culprit begun due notes e line a b before x

/-- A failure in a run points at the turn that it was in, with whatever notes it gains. -/
theorem FailsIn.pointsAt {s : Scene} {begun : List Execution → World → Prop}
    {due : List Execution} {notes : List String} {e e' : Error} {line : Nat} {a b b' : World}
    (h : s.FailsIn begun due e b)
    (hbegun : ∀ before w, begun before w → w.executions = a.executions ++ before)
    (hstock : s.definition.catalogue = .stock) (hdue : ∀ x ∈ due, s.Stated x)
    (hfault : e'.fault = e.fault) (htrail : e'.trail = e.trail ++ notes)
    (hstore : b'.store = b.store) (hexec : b'.executions = b.executions)
    (hline : e'.line? = some line) : s.PointsAt begun due notes e' line a b' := by
  obtain ⟨before, x, w, hlead, hw, hturned⟩ := h
  obtain ⟨hdeclared, d, hd, hkey⟩ :=
    hdue x (hlead.subset (List.mem_append_right _ List.mem_cons_self))
  have hline₀ : e.line? = some line := by
    rw [Error.line?, ← hfault]
    exact hline
  have hblames : s.definition.catalogue.Keeps fun _ t => t.Blames :=
    hstock ▸ Catalogue.blames_stock
  have hcareful : s.definition.catalogue.Keeps fun _ t => t.Careful :=
    hstock ▸ Catalogue.careful_stock
  have hkept := hturned.store_of_error hcareful
  rcases hturned.blames hblames with hnone | ⟨d', p, hd', hp, hon, hnote⟩
  · rw [hnone] at hline₀
    cases hline₀
  · -- a fault on a line has no other line
    have hsame : p.line = line := by
      obtain ⟨detail, heq | heq⟩ := hon <;> rw [Error.line?, heq] at hline₀ <;>
        exact Option.some.inj hline₀
    subst hsame
    refine ⟨before, x, hdeclared, ?_, ⟨d', p, hd', hp, rfl⟩, ?_, ?_,
      ⟨w, e, b, hw, hturned, hfault.symm, hkept, hstore.trans hkept⟩, hlead, ?_⟩
    · exact of_decide_eq_true (List.mem_filter.mp hkey).2
    · rw [hfault]
      exact hon
    · rw [htrail, hnote]
      rfl
    · rw [hexec, hturned.executions, hbegun before w hw]

end Scene

/-- An error that is reported stays what it is, and so do the views and the record. -/
theorem Definition.eq_error_of_reporting {d : Definition} {α : Type}
    {outcome : Except Error α × World} {e : Error} {w' : World}
    (h : d.reporting outcome = (.error e, w')) :
    outcome.1 = .error e ∧ w'.store = outcome.2.store ∧
      w'.executions = outcome.2.executions := by
  obtain ⟨e' | a, w⟩ := outcome
  · rw [reporting, Prod.mk.injEq, Except.error.injEq] at h
    obtain ⟨rfl, rfl⟩ := h
    exact ⟨rfl, rfl, rfl⟩
  · cases h

namespace Scene

/-- A load that fails, whether or not the failure is reported. -/
theorem pointsAt_of_load {d : Definition} {root : String} {data : DataBindings}
    {views : List (String × ViewId)} {w w' : World} (hstock : d.catalogue = .stock)
    (hdoc : d.document.Indexed) (hviews : ∀ p ∈ views, w.store.Has p.2) {e : Error}
    (h : load d root data views w = (.error e, w') ∨
      d.reporting (load d root data views w) = (.error e, w'))
    {line : Nat} (hline : e.line? = some line) :
    ∃ hierarchy s w₁, (d.document.get? root).bind (·.hierarchy) = some hierarchy ∧
      buildNames (bare d root hierarchy data views).nodeNames (bare d root hierarchy data views) w =
        (s, w₁) ∧
      s.PointsAt (s.Taking w₁) (s.passTurns .construction) ["while building views"] e line w
        w' := by
  have hload : (load d root data views w).1 = .error e ∧
      w'.store = (load d root data views w).2.store ∧
      w'.executions = (load d root data views w).2.executions := by
    rcases h with h | h
    · rw [h]
      exact ⟨rfl, rfl, rfl⟩
    · exact Definition.eq_error_of_reporting h
  cases hfound : (d.document.get? root).bind (·.hierarchy) with
  | none =>
    -- that there is no hierarchy is no fault of a line
    rw [load, hfound] at hload
    obtain ⟨hresult, -⟩ := hload
    rw [Except.error.injEq] at hresult
    rw [← hresult] at hline
    cases hline
  | some hierarchy =>
    rcases hbuilt : buildNames (bare d root hierarchy data views).nodeNames
      (bare d root hierarchy data views) w with ⟨s, w₁⟩
    have hbuilds := builds_of_buildNames hviews hbuilt
    have hdefinition : s.definition = d := hbuilds.definition_eq
    have hdocs : s.definition.document.Indexed := hdefinition ▸ hdoc
    have hground := hbuilds.grounded (grounded_bare hviews d root hierarchy data)
    rw [load_eq hfound data views w hbuilt] at hload
    refine ⟨hierarchy, s, w₁, rfl, hbuilt, ?_⟩
    rcases happly : s.applyAll .construction w₁ with ⟨e₀ | ⟨⟩, w₂⟩
    · rw [happly] at hload
      obtain ⟨hresult, hstore, hexec⟩ := hload
      rw [Except.error.injEq] at hresult
      have hfails := failsIn_applyAll hdocs hground happly
      rw [allHandings_eq hdocs, ← passTurns] at hfails
      have hbegun : ∀ before u, s.Taking w₁ before u → u.executions = w.executions ++ before :=
        fun before u hu => hbuilds.executions ▸ hu.executions
      exact hfails.pointsAt hbegun (by rw [hdefinition, hstock])
        (fun _ hx => stated_of_mem_passTurns hdocs hx) (by rw [← hresult]; rfl)
        (by rw [← hresult]; rfl) hstore hexec hline
    · rw [happly] at hload
      cases hload.1

section
variable {s s' : Scene} {w w' : World} {e : Error} {line : Nat}
  (hstock : s.definition.catalogue = .stock) (hdoc : s.definition.document.Indexed)
  (hs : s.Grounded w) (hline : e.line? = some line)
include hstock hdoc hs hline

/-- An attach call that fails. -/
theorem pointsAt_of_attach {container : ViewId} (hcontainer : w.store.Has container)
    (h : s.attach container w = (.error e, s', w')) :
    (s.withContainer container).PointsAt ((s.withContainer container).Settling w)
      ((s.withContainer container).rootHandings ++
        if (s.bound? rootName).isNone then (s.withContainer container).passTurns .attached else [])
      [] e line w w' := by
  have hstocks : (s.withContainer container).definition.catalogue = .stock := hstock
  have hdocs : (s.withContainer container).definition.document.Indexed := hdoc
  rcases s.attach_cases container w with ⟨w₁, -, heq⟩ | ⟨e₀, w₁, events, hsettle, heq⟩
  · rw [h] at heq
    cases heq
  · rw [h, Prod.mk.injEq, Prod.mk.injEq, Except.error.injEq] at heq
    obtain ⟨rfl, -, rfl⟩ := heq
    have hfails := failsIn_settle hdocs (grounded_withContainer hs hcontainer) hsettle
    rw [settlings, allHandings_eq hdocs, ← passTurns] at hfails
    refine hfails.pointsAt (fun _ _ hu => hu.executions) hstocks (fun x hx => ?_) rfl
      (List.append_nil _).symm rfl rfl hline
    rcases List.mem_append.mp hx with hroot | hpass
    · exact stated_of_mem_rootHandings hdocs hroot
    · split at hpass
      · exact stated_of_mem_passTurns hdocs hpass
      · cases hpass

/-- An update that fails. -/
theorem pointsAt_of_update {change : DataBindings → DataBindings}
    (h : s.update change w = (.error e, s', w')) :
    (s.withData (change s.data)).PointsAt ((s.withData (change s.data)).Taking w)
      ((s.withData (change s.data)).rebound s.data) ["while updating data bindings"] e line w
      w' := by
  have hstocks : (s.withData (change s.data)).definition.catalogue = .stock := hstock
  have hdocs : (s.withData (change s.data)).definition.document.Indexed := hdoc
  have hground : (s.withData (change s.data)).Grounded w := hs
  rcases s.update_cases change w with
    ⟨-, heq⟩ | ⟨w₁, -, heq⟩ | ⟨e₀, w₁, events, hreapply, heq⟩
  · rw [h] at heq
    cases heq
  · rw [h] at heq
    cases heq
  · rw [h, Prod.mk.injEq, Prod.mk.injEq, Except.error.injEq] at heq
    obtain ⟨rfl, -, rfl⟩ := heq
    exact (failsIn_reapply hdocs hground hreapply).pointsAt (fun _ _ hu => hu.executions) hstocks
      (fun _ hx => stated_of_mem_rebound hdocs hx) rfl rfl rfl rfl hline

end

end Scene

/-- **Errors point at the property that has failed.**  The scenes are any scenes of any host whose
    catalogue is the stock one, and the loads any loads that such a host may go on with. -/
theorem pointsAt_of_failure {w₀ : World} {past : List Entry} {h : Host}
    (hpast : History ⟨[], w₀⟩ past h) :
    (∀ (d : Definition) root data views, d.catalogue = .stock → d.document.Reachable →
      (∀ p ∈ views, h.world.store.Has p.2) → ∀ e w',
      (Scene.load d root data views h.world = (.error e, w') ∨
        d.reporting (Scene.load d root data views h.world) = (.error e, w')) →
      ∀ line, e.line? = some line →
        ∃ hierarchy s w₁, (d.document.get? root).bind (·.hierarchy) = some hierarchy ∧
          Scene.buildNames (Scene.bare d root hierarchy data views).nodeNames
            (Scene.bare d root hierarchy data views) h.world = (s, w₁) ∧
          s.PointsAt (s.Taking w₁) (s.passTurns .construction) ["while building views"] e line
            h.world w') ∧
    ∀ s ∈ h.scenes, s.definition.catalogue = .stock → s.definition.document.Reachable →
      (∀ container, h.world.store.Has container → ∀ e s' w',
        s.attach container h.world = (.error e, s', w') → ∀ line, e.line? = some line →
          (s.withContainer container).PointsAt ((s.withContainer container).Settling h.world)
            ((s.withContainer container).rootHandings ++ if (s.bound? rootName).isNone then
              (s.withContainer container).passTurns .attached else []) [] e line h.world w') ∧
      ∀ change e s' w', s.update change h.world = (.error e, s', w') →
        ∀ line, e.line? = some line →
          (s.withData (change s.data)).PointsAt ((s.withData (change s.data)).Taking h.world)
            ((s.withData (change s.data)).rebound s.data) ["while updating data bindings"] e line
            h.world w' := by
  have hground := hpast.grounded rfl
  refine ⟨fun d root data views hstock hdoc hviews e w' herror line hline => ?_,
    fun s hs hstock hdoc => ⟨fun container hcontainer e s' w' herror line hline => ?_,
      fun change e s' w' herror line hline => ?_⟩⟩
  · exact Scene.pointsAt_of_load hstock hdoc.indexed hviews herror hline
  · exact Scene.pointsAt_of_attach hstock hdoc.indexed (hground s hs) hline hcontainer herror
  · exact Scene.pointsAt_of_update hstock hdoc.indexed (hground s hs) hline herror

/-- The definition of a scene is one that has been loaded. -/
theorem History.exists_load {start h : Host} {past : List Entry} (hpast : History start past h)
    (hstart : start.scenes = []) {s : Scene} (hs : s ∈ h.scenes) :
    ∃ e ∈ past, ∃ root data views, e.deed = .load s.definition root data views := by
  induction hpast generalizing s with
  | start =>
    rw [hstart] at hs
    cases hs
  | deed hearlier deed allowed ih =>
    obtain ⟨j, hj⟩ := List.mem_iff_getElem?.mp hs
    rcases Deed.scene_run_cases hj with
      ⟨t, ht, hsteady, -⟩ | ⟨d, root, data, views, rfl, -, hload⟩
    · obtain ⟨e, he, hdeed⟩ := ih (List.mem_of_getElem? ht)
      rw [hsteady.definition]
      exact ⟨e, List.mem_append_left _ he, hdeed⟩
    · rw [(Scene.loaded_of_load allowed hload).definition]
      exact ⟨_, List.mem_append_right _ List.mem_cons_self, root, data, views, rfl⟩

/-! ## A word that is no flag -/

/-- A sheet on which a property is stated a second time, with a text to be filled in. -/
def overruled : Definition where
  document := (parseInto (.empty "sheet")
    ("Main:\n  A\n  B\nA:\n  .alpha = #\x7by\x7d\n  .hidden = no\n"
      ++ "B:\n  .alpha = #\x7by\x7d\nA:\n\n  .hidden = #\x7bx\x7d\n")).document
  catalogue := .stock
  listener := none

theorem reachable_overruled : overruled.document.Reachable := by
  unfold overruled
  dsimp only
  exact .parse (.empty "sheet") _

/-- A host that loads the sheet and attaches it to a container. -/
def overruling : List Deed :=
  [.load overruled "Main" (.ofList [("x", "no"), ("y", "1")]) [], .create (.stock (.container {})),
    .attach 0 ⟨2⟩]

/-- The host after that. -/
def overruledHost : Host := (Deed.play overruling ⟨[], .empty⟩).2

theorem isSome_overruled : (overruledHost.scenes[0]?).isSome = true := by
  decide +kernel

/-- The scene that has been attached. -/
def overruledScene : Scene := Option.get _ isSome_overruled

/-- Data with which `hidden` makes no sense. -/
def puzzling : DataBindings := .ofList [("x", "perhaps"), ("y", "0")]

theorem overruling_computed : Deed.allAllowed overruling ⟨[], .empty⟩ = true ∧
    ((errorOf? (overruledScene.update (fun _ => puzzling) overruledHost.world).1).any fun e =>
      e.line? = some 11) = true ∧
    (overruledScene.update (fun _ => puzzling) overruledHost.world).2.2.executions =
      overruledHost.world.executions ++
        [⟨.construction, "A", "alpha", "0"⟩, ⟨.construction, "A", "hidden", "perhaps"⟩] ∧
    (overruledScene.withData puzzling).rebound overruledScene.data =
      [⟨.construction, "A", "alpha", "0"⟩, ⟨.construction, "A", "hidden", "perhaps"⟩,
        ⟨.attached, "A", "alpha", "0"⟩, ⟨.attached, "A", "hidden", "perhaps"⟩,
        ⟨.construction, "B", "alpha", "0"⟩, ⟨.attached, "B", "alpha", "0"⟩] := by
  decide +kernel

/-- The error points at the line on which the property is stated the second time.  By then the
    alpha of `A` has been taken, and that of `B` is never handed over. -/
theorem pointsAt_of_failure_overruled : ∃ e s' w',
    overruledScene.update (fun _ => puzzling) overruledHost.world = (.error e, s', w') ∧
    (overruledScene.withData puzzling).Culprit
      ((overruledScene.withData puzzling).Taking overruledHost.world)
      [⟨.construction, "A", "alpha", "0"⟩, ⟨.construction, "A", "hidden", "perhaps"⟩,
        ⟨.attached, "A", "alpha", "0"⟩, ⟨.attached, "A", "hidden", "perhaps"⟩,
        ⟨.construction, "B", "alpha", "0"⟩, ⟨.attached, "B", "alpha", "0"⟩]
      ["while updating data bindings"] e 11 overruledHost.world w'
      [⟨.construction, "A", "alpha", "0"⟩] ⟨.construction, "A", "hidden", "perhaps"⟩ := by
  obtain ⟨hallowed, hfailed, hexec, hrebound⟩ := overruling_computed
  obtain ⟨e, herror, hline⟩ := (Option.any_eq_true ..).mp hfailed
  rw [errorOf?_eq_some] at herror
  rcases hupdate : overruledScene.update (fun _ => puzzling) overruledHost.world with ⟨r, s', w'⟩
  rw [hupdate] at herror hexec
  obtain rfl : r = .error e := herror
  have hmem : overruledScene ∈ overruledHost.scenes :=
    List.mem_of_getElem? (Option.some_get isSome_overruled).symm
  -- the scene is that of the one load there was
  have hdefinition : overruledScene.definition = overruled := by
    obtain ⟨entry, hentry, root, data, views, hload⟩ :=
      (History.play hallowed).exists_load rfl hmem
    have hdeed := Deed.mem_of_mem_play hentry
    simp only [hload, overruling, List.mem_cons, List.not_mem_nil, or_false, reduceCtorEq,
      Deed.load.injEq] at hdeed
    exact hdeed.1
  have hstock : overruledScene.definition.catalogue = .stock := by
    rw [hdefinition]
    rfl
  have hdoc : overruledScene.definition.document.Reachable := by
    rw [hdefinition]
    exact reachable_overruled
  have hpoints :=
    ((pointsAt_of_failure (History.play hallowed)).2 overruledScene hmem hstock hdoc).2
    (fun _ => puzzling) e s' w' hupdate 11 (of_decide_eq_true hline)
  rw [hrebound] at hpoints
  obtain ⟨before, x, hculprit⟩ := hpoints
  -- the record says which turn was the last
  have hturns := hculprit.last.symm.trans hexec
  rw [List.append_assoc] at hturns
  obtain ⟨rfl, hx⟩ := List.append_inj' (List.append_cancel_left hturns : _ = [_] ++ [_]) rfl
  obtain rfl := List.singleton_inj.mp hx
  exact ⟨e, s', w', rfl, hculprit⟩

end ViewSheet
