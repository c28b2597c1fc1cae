/-
  Rebinding: whether the views keep up with the data when updates fail.

  1. **Record**: `lastHanded` is the text that a property was last handed to the construction pass
     with.  It is read off the record of executions, which no hook can write to.

  2. **The crux**: an update looks only at what has changed since the update before, and new data
     stay in force even if handing over fails.  So a property whose turn did not come in a failed
     call stays behind until a later call concerns it again.

  3. **Result** (`lastHanded_or_missed`): that is the only way to stay behind.  After any calls, a
     property was last handed over with its text under the present data, or else a failed call
     concerned it, and neither that call nor a later one handed it over.
-/
import ViewSheet.Proofs.Mentions
import ViewSheet.Proofs.Session

namespace ViewSheet

/-! ## The last turn of a property -/

/-- Whether a property of a declaration is handed to the construction pass. -/
def Execution.constructs (e : Execution) (declaration property : String) : Bool :=
  decide (e.phase = .construction ∧ e.declaration = declaration ∧ e.property = property)

/-- The text that a property was last handed to the construction pass with. -/
def lastHanded (es : List Execution) (declaration property : String) : Option String :=
  (es.filter (·.constructs declaration property)).getLast?.map (·.text)

theorem lastHanded_append_of_none {before more : List Execution} {declaration property : String}
    (h : ∀ e ∈ more, e.constructs declaration property = false) :
    lastHanded (before ++ more) declaration property = lastHanded before declaration property := by
  have hnone : more.filter (·.constructs declaration property) = [] := by
    rw [List.filter_eq_nil_iff]
    intro e he
    rw [h e he]
    exact Bool.false_ne_true
  rw [lastHanded, List.filter_append, hnone, List.append_nil, lastHanded]

theorem lastHanded_append_of_some {before more : List Execution} {declaration property : String}
    {e : Execution} (he : e ∈ more) (hconstructs : e.constructs declaration property = true)
    {text : String}
    (htext : ∀ e ∈ more, e.constructs declaration property = true → e.text = text) :
    lastHanded (before ++ more) declaration property = some text := by
  have hmem : e ∈ more.filter (·.constructs declaration property) :=
    List.mem_filter.mpr ⟨he, hconstructs⟩
  cases hlast : (more.filter (·.constructs declaration property)).getLast? with
  | none =>
    rw [List.getLast?_eq_none_iff] at hlast
    rw [hlast] at hmem
    cases hmem
  | some last =>
    obtain ⟨hlastMem, hlastConstructs⟩ := List.mem_filter.mp (List.mem_of_getLast? hlast)
    rw [lastHanded, List.filter_append, List.getLast?_append, hlast]
    show some last.text = some text
    rw [htext last hlastMem hlastConstructs]

/-! ## Which declarations have turns -/

namespace Scene

theorem mem_handings {s : Scene} {phase : Phase} {d : Declaration} {keys : List String}
    {e : Execution} : e ∈ s.handings phase d keys ↔ (s.bound? d.name).isSome = true ∧
      ∃ key ∈ keys, ∃ p, d.filled? key s.data = some p ∧ e = ⟨phase, d.name, key, p.value⟩ := by
  unfold handings
  split
  · rename_i hbound
    simp only [List.mem_filterMap, handing, Option.map_eq_some_iff, hbound, true_and]
    simp only [eq_comm]
  · rename_i hbound
    simp [hbound]

end Scene

namespace Call

/-- Whatever is due, is due for a declaration of the document with its text under the new data. -/
theorem exists_of_mem_due {c : Call} {m : Moment} {e : Execution} (he : e ∈ c.due m) :
    ∃ name d key p, m.scene.definition.document.get? name = some d ∧
      d.filled? key (c.run m).2.scene.data = some p ∧ e = ⟨e.phase, d.name, key, p.value⟩ := by
  rw [data_run]
  have hhandings : ∀ (s : Scene) phase d keys name, s.data = c.dataAfter m.scene.data →
      m.scene.definition.document.get? name = some d → e ∈ s.handings phase d keys →
      ∃ name d key p, m.scene.definition.document.get? name = some d ∧
        d.filled? key (c.dataAfter m.scene.data) = some p ∧
        e = ⟨e.phase, d.name, key, p.value⟩ := by
    intro s phase d keys name hdata hd he
    obtain ⟨-, key, -, p, hp, rfl⟩ := Scene.mem_handings.mp he
    exact ⟨name, d, key, p, hd, hdata ▸ hp, rfl⟩
  cases c with
  | create v => cases he
  | attach container =>
    rcases List.mem_append.mp he with hroot | hall
    · unfold Scene.rootHandings at hroot
      split at hroot
      · rename_i d hd
        exact hhandings (m.scene.withContainer container) _ d _ _ rfl hd hroot
      · cases hroot
    · split at hall
      · obtain ⟨d, hd, hmem⟩ := List.mem_flatMap.mp hall
        obtain ⟨⟨name, -, hname⟩, -⟩ := Scene.mem_configured.mp hd
        exact hhandings (m.scene.withContainer container) _ d _ name rfl hname hmem
      · cases hall
  | update change =>
    obtain ⟨d, hd, hmem⟩ := List.mem_flatMap.mp he
    obtain ⟨⟨name, -, hname⟩, -⟩ := Scene.mem_configured.mp hd
    rcases List.mem_append.mp hmem with hconstruction | hattached
    · exact hhandings _ _ d _ name rfl hname hconstruction
    · split at hattached
      · exact hhandings _ _ d _ name rfl hname hattached
      · cases hattached

end Call

/-! ## Falling behind -/

/-- Whether a call has to do with a property: data that it mentions are changed, or its declaration
    is the root's and a container is bound. -/
def Record.Concerns (r : Record) (d : Declaration) (key : String) : Prop :=
  match r.call with
  | .create _ => False
  | .attach _ => d.name = r.before.scene.root
  | .update _ => ∃ p, d.property? key = some p ∧ ∃ k ∈ placeholders p.value,
      r.before.scene.data.get? k ≠ r.after.scene.data.get? k

/-- What was handed over during a call. -/
def Record.handed (r : Record) : List Execution :=
  r.after.world.executions.drop r.before.world.executions.length

/-- A call that failed concerned a property, and has not handed it to the construction pass, nor has
    any call since. -/
def Missed (past : List Record) (d : Declaration) (key : String) : Prop :=
  ∃ before r after, past = before ++ r :: after ∧ (∃ e, r.result = .error e) ∧ r.Concerns d key ∧
    ∀ x ∈ r :: after, ∀ e ∈ x.handed, e.constructs d.name key = false

theorem Missed.append {past : List Record} {d : Declaration} {key : String} (h : Missed past d key)
    {r : Record} (hr : ∀ e ∈ r.handed, e.constructs d.name key = false) :
    Missed (past ++ [r]) d key := by
  obtain ⟨before, failed, after, rfl, herror, hconcerns, hnone⟩ := h
  refine ⟨before, failed, after ++ [r], by simp, herror, hconcerns, fun x hx => ?_⟩
  rw [← List.cons_append, List.mem_append, List.mem_singleton] at hx
  rcases hx with hx | rfl
  · exact hnone x hx
  · exact hr

/-- A property of a declaration with a view, as far as keeping up with the data is concerned. -/
structure Subject (m : Moment) (d : Declaration) (key : String) : Prop where
  found : m.scene.definition.document.get? d.name = some d
  declared : d.name ∈ m.scene.nodeNames ∨ d.name = m.scene.root
  /-- A node may go by the name that is reserved for the root.  Its declaration waits for a
      container like the root's, but is not handed over when that is bound. -/
  unreserved : d.name = rootName → m.scene.root = rootName
  stated : key ∈ d.setterKeys
  bound : (m.scene.bound? d.name).isSome

namespace Subject

variable {m : Moment} {d : Declaration} {key : String}

theorem mem_configured (h : Subject m d key) : d ∈ m.scene.configured :=
  Scene.mem_configured.mpr ⟨⟨d.name, h.declared, h.found⟩, List.ne_nil_of_mem h.stated⟩

theorem exists_filled? (h : Subject m d key) : ∃ p, d.filled? key m.scene.data = some p := by
  obtain ⟨p, hp⟩ := Declaration.property?_of_mem_setterKeys h.stated
  exact ⟨_, by rw [Declaration.filled?, hp]; rfl⟩

/-- Whatever hands a property over in a call does so with its text under the new data. -/
theorem text_of_mem_due {c : Call} (h : Subject (c.run m).2 d key)
    (hdoc : m.scene.definition.document.Indexed) {e : Execution} (he : e ∈ c.due m)
    (hconstructs : e.constructs d.name key = true) {p : PropertyText}
    (hp : d.filled? key (c.run m).2.scene.data = some p) : e.text = p.value := by
  obtain ⟨name, d', key', p', hd', hp', heq⟩ := Call.exists_of_mem_due he
  rw [Execution.constructs, decide_eq_true_eq] at hconstructs
  obtain ⟨-, hname, hkey⟩ := hconstructs
  rw [heq] at hname hkey ⊢
  dsimp only at hname hkey ⊢
  have hfound := h.found
  rw [(c.steady_run m).definition, ← hname, (hdoc name d' hd').named, hd',
    Option.some.injEq] at hfound
  subst hfound hkey
  rw [hp', Option.some.injEq] at hp
  rw [hp]

/-- A property that a call concerns is due in it. -/
theorem exists_mem_due {c : Call} (h : Subject (c.run m).2 d key)
    (hdoc : m.scene.definition.document.Indexed) (hconcerns : (c.record m).Concerns d key) :
    ∃ e ∈ c.due m, e.constructs d.name key = true := by
  obtain ⟨p, hp⟩ := h.exists_filled?
  have hfound := h.found
  rw [(c.steady_run m).definition] at hfound
  have hconfigured := h.mem_configured
  rw [(c.steady_run m).configured] at hconfigured
  have hbound := h.bound
  refine ⟨⟨.construction, d.name, key, p.value⟩, ?_, by simp [Execution.constructs]⟩
  cases c with
  | create v => exact hconcerns.elim
  | attach container =>
    -- the root declaration is handed over before anything else
    have hroot : d.name = m.scene.root := hconcerns
    refine List.mem_append_left _ ?_
    have hdecl : (m.scene.withContainer container).definition.document.get?
        (m.scene.withContainer container).root = some d := hroot ▸ hfound
    rw [Scene.rootHandings, hdecl]
    refine Scene.mem_handings.mpr ⟨?_, key, h.stated, p, ?_, rfl⟩
    · rw [Scene.bound?_withContainer, Scene.isRootName, hroot]
      simp
    · rw [Call.data_run] at hp
      exact hp
  | update change =>
    refine List.mem_flatMap.mpr ⟨d, hconfigured, List.mem_append_left _ ?_⟩
    rw [Call.data_run] at hp
    refine Scene.mem_handings.mpr ⟨?_, key, ?_, p, hp, rfl⟩
    · rw [Call.scene_run_update] at hbound
      exact hbound
    · -- the index of the declaration is exact, so the property is affected
      rw [(hdoc d.name d hfound).mem_affectedKeys]
      obtain ⟨q, hq, k, hk, hne⟩ := hconcerns
      have hafter : ((Call.update change).record m).after.scene.data = change m.scene.data :=
        Call.data_run _ m
      rw [hafter] at hne
      exact ⟨h.stated, q, hq, k, hk, hne⟩

/-- A call that does not concern a property leaves its text as it was. -/
theorem before_call {c : Call} (h : Subject (c.run m).2 d key)
    (hnot : ¬ (c.record m).Concerns d key) :
    Subject m d key ∧ d.filled? key (c.run m).2.scene.data = d.filled? key m.scene.data := by
  have hsteady := c.steady_run m
  have hearlier : (m.scene.bound? d.name).isSome → Subject m d key := by
    intro hbound
    refine ⟨?_, ?_, ?_, h.stated, hbound⟩
    · rw [← hsteady.definition]
      exact h.found
    · have hdeclared := h.declared
      rw [Scene.nodeNames, hsteady.hierarchy, hsteady.root] at hdeclared
      exact hdeclared
    · rw [← hsteady.root]
      exact h.unreserved
  cases c with
  | create v => exact ⟨hearlier h.bound, rfl⟩
  | attach container =>
    -- the call binds the names of the root, and this is neither of them
    have hroot : d.name ≠ m.scene.root := hnot
    have hname : m.scene.isRootName d.name = false := by
      rw [Scene.isRootName, Bool.or_eq_false_iff, beq_eq_false_iff_ne, beq_eq_false_iff_ne]
      refine ⟨fun hreserved => hroot ?_, hroot⟩
      have hsame := h.unreserved hreserved
      rw [hsteady.root] at hsame
      rw [hreserved, hsame]
    refine ⟨hearlier ?_, by rw [Call.data_run]; rfl⟩
    rw [← hsteady.bound d.name hname]
    exact h.bound
  | update change =>
    refine ⟨hearlier ?_, Declaration.filled?_congr fun p hp k hk => ?_⟩
    · have hbound := h.bound
      rw [Call.scene_run_update] at hbound
      exact hbound
    · exact Decidable.byContradiction fun hne => hnot ⟨p, hp, k, hk, Ne.symm hne⟩

end Subject

/-! ## After a load, and after every call -/

/-- A load hands every property over. -/
theorem lastHanded_of_load {d₀ : Definition} {root : String} {data : DataBindings}
    {views : List (String × ViewId)} {w w' : World} {s : Scene} (hdoc : d₀.document.Indexed)
    (hviews : ∀ p ∈ views, w.store.Has p.2) (hload : Scene.load d₀ root data views w = (.ok s, w'))
    {d : Declaration} {key : String} (h : Subject ⟨s, w'⟩ d key) {p : PropertyText}
    (hp : d.filled? key s.data = some p) :
    lastHanded w'.executions d.name key = some p.value := by
  obtain ⟨hierarchy, w₁, -, hbuilds, happly⟩ := Scene.exists_builds_of_load hviews hload
  have hbare := Scene.grounded_bare hviews d₀ root hierarchy data
  have hhanded := Scene.handed_applyAll (hbuilds.grounded hbare) .construction
  rw [happly] at hhanded
  obtain ⟨done, -, hexec, hall⟩ := hhanded
  have hexec : w'.executions = w₁.executions ++ s.allHandings .construction := by
    rw [← hall rfl]
    exact hexec
  have hdefinition : s.definition = d₀ := hbuilds.definition_eq
  have hdue : (⟨.construction, d.name, key, p.value⟩ : Execution) ∈ s.allHandings .construction :=
    List.mem_flatMap.mpr ⟨d, h.mem_configured,
      Scene.mem_handings.mpr ⟨h.bound, key, h.stated, p, hp, rfl⟩⟩
  rw [hexec]
  refine lastHanded_append_of_some hdue (by simp [Execution.constructs]) fun e he hconstructs => ?_
  -- whatever else the pass hands over for this property, it takes from this declaration
  obtain ⟨d', hd', hmem⟩ := List.mem_flatMap.mp he
  obtain ⟨-, key', -, p', hp', rfl⟩ := Scene.mem_handings.mp hmem
  obtain ⟨⟨name, -, hname⟩, -⟩ := Scene.mem_configured.mp hd'
  rw [Execution.constructs, decide_eq_true_eq] at hconstructs
  obtain ⟨-, hsame, hkey⟩ := hconstructs
  dsimp only at hsame hkey ⊢
  have hfound : s.definition.document.get? d.name = some d := h.found
  rw [hdefinition] at hfound hname
  rw [← hsame, (hdoc name d' hname).named, hname, Option.some.injEq] at hfound
  subst hfound hkey
  rw [hp', Option.some.injEq] at hp
  rw [hp]

/-- One more call: what it hands over is up to date, and what it leaves out either does not concern
    it or is missed. -/
theorem lastHanded_or_missed_call {past : List Record} {m : Moment} {c : Call}
    (hdoc : m.scene.definition.document.Indexed) (hm : m.scene.Grounded m.world)
    (allowed : c.Allowed m) {d : Declaration} {key : String} (h : Subject (c.run m).2 d key)
    {p : PropertyText} (hp : d.filled? key (c.run m).2.scene.data = some p)
    (ih : Subject m d key → d.filled? key m.scene.data = some p →
      lastHanded m.world.executions d.name key = some p.value ∨ Missed past d key) :
    lastHanded (c.run m).2.world.executions d.name key = some p.value ∨
      Missed (past ++ [c.record m]) d key := by
  obtain ⟨done, hdone, hexec, hall⟩ := Call.handed_run hm allowed
  have hhanded : (c.record m).handed = done := by
    show (c.run m).2.world.executions.drop m.world.executions.length = done
    rw [hexec, List.drop_left]
  rw [hexec]
  by_cases hturn : ∃ e ∈ done, e.constructs d.name key = true
  · -- the property had its turn
    obtain ⟨e, he, hconstructs⟩ := hturn
    refine Or.inl (lastHanded_append_of_some he hconstructs fun e he hconstructs => ?_)
    exact h.text_of_mem_due hdoc (hdone.subset he) hconstructs hp
  · have hnone : ∀ e ∈ done, e.constructs d.name key = false :=
      fun e he => Bool.eq_false_iff.mpr fun hconstructs => hturn ⟨e, he, hconstructs⟩
    by_cases hconcerns : (c.record m).Concerns d key
    · -- its turn was due and did not come
      refine Or.inr ⟨past, c.record m, [], rfl, ?_, hconcerns, ?_⟩
      · show ∃ e, (c.run m).1 = .error e
        cases hresult : (c.run m).1 with
        | error e => exact ⟨e, rfl⟩
        | ok _ =>
          obtain ⟨e, he, hconstructs⟩ := h.exists_mem_due hdoc hconcerns
          rw [← hall hresult] at he
          exact absurd ⟨e, he, hconstructs⟩ hturn
      · intro x hx
        rw [List.mem_singleton] at hx
        rw [hx, hhanded]
        exact hnone
    · -- nothing was due
      obtain ⟨hbefore, hfilled⟩ := h.before_call hconcerns
      rw [hfilled] at hp
      rw [lastHanded_append_of_none hnone]
      rcases ih hbefore hp with hlast | hmissed
      · exact Or.inl hlast
      · exact Or.inr (hmissed.append (by rw [hhanded]; exact hnone))

/-- **A property keeps up with the data, or a failed call that concerned it has left it behind.** -/
theorem lastHanded_or_missed {d₀ : Definition} {root : String} {data : DataBindings}
    {views : List (String × ViewId)} {w₀ w₁ : World} {s : Scene} {past : List Record} {m : Moment}
    (hdoc : d₀.document.Reachable) (hviews : ∀ p ∈ views, w₀.store.Has p.2)
    (hload : Scene.load d₀ root data views w₀ = (.ok s, w₁))
    (hsession : Session ⟨s, w₁⟩ past m) {d : Declaration} {key : String}
    (h : Subject m d key) : ∃ p, d.filled? key m.scene.data = some p ∧
      (lastHanded m.world.executions d.name key = some p.value ∨ Missed past d key) := by
  obtain ⟨p, hp⟩ := h.exists_filled?
  refine ⟨p, hp, ?_⟩
  have hloaded := Scene.loaded_of_load hviews hload
  induction hsession generalizing p with
  | start => exact Or.inl (lastHanded_of_load hdoc.indexed hviews hload h hp)
  | call hearlier c allowed ih =>
    have hm := hearlier.grounded hloaded.grounded
    have hsetup := hearlier.steady.definition
    refine lastHanded_or_missed_call ?_ hm allowed h hp fun hbefore hfilled => ?_
    · rw [hsetup, hloaded.definition]
      exact hdoc.indexed
    · exact ih hbefore p hfilled

/-! ## Falling behind, once -/

/-- Two views with a datum each. -/
def twoData : Definition where
  document := (parseInto (.empty "sheet")
    "Main:\n  A\n  B\nA:\n  .hidden = #\x7bx\x7d\nB:\n  .alpha = #\x7by\x7d\n").document
  catalogue := .stock
  listener := none

/-- The first update fails at `x`, before it comes to `y`; the second changes `x` alone. -/
def halfway : List Call :=
  [.update fun _ => .ofList [("x", "maybe"), ("y", "0")], .update fun data => data.set "x" "no"]

theorem loads_twoData : (Moment.ofLoad? (Scene.load twoData "Main"
    (.ofList [("x", "yes"), ("y", "1")]) [] .empty)).isSome = true := by
  decide +kernel

/-- The moment after the load. -/
def twoDataLoaded : Moment := Option.get _ loads_twoData

theorem load_twoData_eq : Scene.load twoData "Main" (.ofList [("x", "yes"), ("y", "1")]) [] .empty =
    (.ok twoDataLoaded.scene, twoDataLoaded.world) :=
  Moment.eq_of_ofLoad? (Option.some_get loads_twoData).symm

/-- The moment after the two updates. -/
def halfwayPlayed : Moment := (Call.play halfway twoDataLoaded).2

/-- The declaration that comes second. -/
def second : Declaration := twoData.document.getD "B"

theorem session_halfway : Session twoDataLoaded (Call.play halfway twoDataLoaded).1 halfwayPlayed :=
  Session.play rfl

theorem halfway_computed :
    halfwayPlayed.scene.definition.document.get? second.name = some second ∧
      second.name ∈ halfwayPlayed.scene.nodeNames ∧ second.name ≠ rootName ∧
      "alpha" ∈ second.setterKeys ∧ (halfwayPlayed.scene.bound? second.name).isSome ∧
      second.property? "alpha" = some ⟨"#\x7by\x7d", 7⟩ ∧
      second.filled? "alpha" halfwayPlayed.scene.data = some ⟨"0", 7⟩ ∧
      lastHanded halfwayPlayed.world.executions second.name "alpha" = some "1" ∧
      ((Call.play halfway twoDataLoaded).1.getLast?.any fun r =>
        r.result.isOk && r.after.scene.data ≠ r.before.scene.data) = true := by
  decide +kernel

theorem subject_halfway : Subject halfwayPlayed second "alpha" where
  found := halfway_computed.1
  declared := Or.inl halfway_computed.2.1
  unreserved := fun h => absurd h halfway_computed.2.2.1
  stated := halfway_computed.2.2.2.1
  bound := halfway_computed.2.2.2.2.1

/-- **An update that succeeds can leave a property behind.**  The text of the alpha mentions `y`,
    which is bound to 0 by now, but the alpha was last set to 1. -/
theorem exists_left_behind : ∃ (s : Scene) (w : World) (past : List Record) (m : Moment)
    (d : Declaration) (stated present : PropertyText),
    Scene.load twoData "Main" (.ofList [("x", "yes"), ("y", "1")]) [] .empty = (.ok s, w) ∧
      Session ⟨s, w⟩ past m ∧ (∀ r ∈ past, ∃ change, r.call = .update change) ∧
      (∃ r, past.getLast? = some r ∧ r.result = .ok () ∧ r.after.scene.data ≠ r.before.scene.data) ∧
      Subject m d "alpha" ∧ d.property? "alpha" = some stated ∧ placeholders stated.value = ["y"] ∧
      d.filled? "alpha" m.scene.data = some present ∧ present.value = "0" ∧
      lastHanded m.world.executions d.name "alpha" = some "1" := by
  obtain ⟨-, -, -, -, -, hstated, hpresent, hturn, hresult⟩ := halfway_computed
  obtain ⟨r, hr, hok⟩ := (Option.any_eq_true ..).mp hresult
  rw [Bool.and_eq_true, decide_eq_true_eq] at hok
  refine ⟨_, _, _, halfwayPlayed, second, _, _, load_twoData_eq, session_halfway, ?_,
    ⟨r, hr, eq_ok_of_isOk hok.1, hok.2⟩, subject_halfway, hstated, by decide +kernel, hpresent, rfl,
    hturn⟩
  intro r hr
  simp only [halfway, Call.play, List.mem_cons, List.not_mem_nil, or_false] at hr
  rcases hr with rfl | rfl
  · exact ⟨_, rfl⟩
  · exact ⟨_, rfl⟩

/-- The alpha that was left behind is one that the failed update concerned.  It was last set to 1,
    and its text is 0 by now. -/
theorem left_behind_or_missed : Subject halfwayPlayed second "alpha" ∧
    second.filled? "alpha" halfwayPlayed.scene.data = some ⟨"0", 7⟩ ∧
    lastHanded halfwayPlayed.world.executions second.name "alpha" = some "1" ∧
    Missed (Call.play halfway twoDataLoaded).1 second "alpha" := by
  obtain ⟨-, -, -, -, -, -, hpresent, hturn, -⟩ := halfway_computed
  obtain ⟨p, hp, hcase⟩ := lastHanded_or_missed (.parse (.empty "sheet") _)
    (List.forall_mem_nil _) load_twoData_eq session_halfway subject_halfway
  rw [hpresent, Option.some.injEq] at hp
  subst hp
  rcases hcase with hlast | hmissed
  · -- the text that was handed last is another one
    rw [hturn] at hlast
    exact absurd hlast (by decide)
  · exact ⟨subject_halfway, hpresent, hturn, hmissed⟩

end ViewSheet
