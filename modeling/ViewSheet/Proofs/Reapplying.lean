/-
  Reapplying: what an update hands over again, and what it can leave alone.

  1. **Specification**: a property *shifts* between two sets of data if its text holds a placeholder
     that they do not agree on.  This is read off the text, not off the index that the program keeps
     beside it.  `rebound` lists what is due then: name by name, the properties that shift, and in
     an attached scene all of them once more with a look around.

  2. **The crux**: the index is exact in every reachable document, so the properties that the
     program picks are those that shift (`affectedKeys_eq`).  No other property reads a key that
     differs, so it has the same text as before.

  3. **Result** (`turns_update`): in any scene of any host, an update that succeeds hands over what
     is due, in order and each of it to a setter that took it, and nothing else.
-/
import ViewSheet.Proofs.Hosting
import ViewSheet.Proofs.Turns

namespace ViewSheet

namespace Declaration

/-! ## Properties that shift -/

/-- The text of the property holds a placeholder that stands for something else now. -/
def shifts (d : Declaration) (old new : DataBindings) (key : String) : Bool :=
  match d.property? key with
  | some p => (placeholders p.value).any fun k => decide (old.get? k ≠ new.get? k)
  | none => false

theorem shifts_iff {d : Declaration} {old new : DataBindings} {key : String} :
    d.shifts old new key = true ↔
      ∃ p, d.property? key = some p ∧ ∃ k ∈ placeholders p.value, old.get? k ≠ new.get? k := by
  unfold shifts
  cases d.property? key with
  | none => simp
  | some p => simp only [List.any_eq_true, decide_eq_true_eq, Option.some.injEq, exists_eq_left']

/-- Nothing shifts between data that agree on all keys. -/
theorem shifts_eq_false {old new : DataBindings} (h : ∀ k, old.get? k = new.get? k)
    (d : Declaration) (key : String) : d.shifts old new key = false := by
  rw [Bool.eq_false_iff, ne_eq, shifts_iff]
  rintro ⟨p, -, k, -, hne⟩
  exact hne (h k)

/-- **A property that does not shift has the same text as before.** -/
theorem filled?_eq_of_not_shifts {d : Declaration} {old new : DataBindings} {key : String}
    (h : d.shifts old new key = false) : d.filled? key old = d.filled? key new := by
  refine filled?_congr fun p hp k hk => ?_
  rw [Bool.eq_false_iff, ne_eq, shifts_iff] at h
  exact Decidable.byContradiction fun hne => h ⟨p, hp, k, hk, hne⟩

/-- **The index picks the properties that shift.** -/
theorem Indexed.affectedKeys_eq {name : String} {d : Declaration} (h : d.Indexed name)
    (old new : DataBindings) :
    Scene.affectedKeys d (old.changedKeys new) = d.setterKeys.filter (d.shifts old new) := by
  rw [Scene.affectedKeys]
  refine List.filter_congr fun key hkey => ?_
  have hmem : key ∈ Scene.affectedKeys d (old.changedKeys new) ↔ key ∈ d.setterKeys ∧ _ :=
    h.mem_affectedKeys
  rw [Scene.affectedKeys, List.mem_filter, ← shifts_iff] at hmem
  rw [Bool.eq_iff_iff]
  exact ⟨fun hpicked => (hmem.mp ⟨hkey, hpicked⟩).2, fun hshifts => (hmem.mpr ⟨hkey, hshifts⟩).2⟩

end Declaration

namespace Scene

/-! ## What is due -/

/-- What is due in a scene whose data were others before. -/
def rebound (s : Scene) (old : DataBindings) : List Execution :=
  s.dueFor s.order fun d =>
    s.turnsOf .construction d (d.setterKeys.filter (d.shifts old s.data)) ++
      match s.state with
      | .attached => s.turnsOf .attached d (d.setterKeys.filter (d.shifts old s.data))
      | .viewsConstructed => []

theorem rehandings_eq (s : Scene) (d : Declaration) (keys : List String) :
    s.rehandings d keys = if (s.bound? d.name).isSome then
        s.turnsOf .construction d keys ++
          match s.state with
          | .attached => s.turnsOf .attached d keys
          | .viewsConstructed => []
      else [] := by
  rw [rehandings, handings_eq, handings_eq]
  split
  · rfl
  · cases s.state <;> rfl

/-- What the program hands over again is what is due. -/
theorem flatMap_rehandings {s : Scene} (hdoc : s.definition.document.Indexed)
    (old : DataBindings) :
    (s.configured.flatMap fun d => s.rehandings d (affectedKeys d (old.changedKeys s.data))) =
      s.rebound old := by
  rw [rebound, ← flatMap_configured hdoc]
  · refine List.flatMap_congr fun d hd => ?_
    have hindexed := hdoc d.name d (get?_of_mem_configured hdoc hd)
    rw [rehandings_eq, hindexed.affectedKeys_eq]
  · intro d hkeys
    rw [hkeys]
    show ([] : List Execution) ++ _ = []
    cases s.state <;> rfl

/-- Nothing is due if no key is bound to anything else. -/
theorem rebound_eq_nil {s : Scene} {old : DataBindings} (h : ∀ k, old.get? k = s.data.get? k) :
    s.rebound old = [] := by
  have hnone : ∀ d : Declaration, d.setterKeys.filter (d.shifts old s.data) = [] := by
    intro d
    rw [List.filter_eq_nil_iff]
    intro key _
    rw [d.shifts_eq_false h key]
    exact Bool.false_ne_true
  rw [rebound, dueFor, List.flatMap_eq_nil_iff]
  intro name _
  split
  · split
    · rw [hnone]
      cases s.state <;> rfl
    · rfl
  · rfl

theorem changedKeys_eq_nil_iff {old new : DataBindings} :
    old.changedKeys new = [] ↔ ∀ k, old.get? k = new.get? k := by
  rw [List.eq_nil_iff_forall_not_mem]
  simp only [DataBindings.mem_changedKeys, ne_eq, Decidable.not_not]

/-- An update that succeeds is a run of what is due. -/
theorem turns_of_update {s s' : Scene} {w w' : World} (hs : s.Grounded w)
    (hdoc : s.definition.document.Indexed) {change : DataBindings → DataBindings}
    (hok : s.update change w = (.ok (), s', w')) :
    s' = s.withData (change s.data) ∧ s'.Turns w (s'.rebound s.data) (.ok ()) w' := by
  have hdocs : (s.withData (change s.data)).definition.document.Indexed := hdoc
  rcases s.update_cases change w with
    ⟨hnone, heq⟩ | ⟨w₁, hreapply, heq⟩ | ⟨e, w₁, events, -, heq⟩
  · rw [hok, Prod.mk.injEq, Prod.mk.injEq] at heq
    obtain ⟨-, rfl, rfl⟩ := heq
    refine ⟨rfl, ?_⟩
    rw [rebound_eq_nil (changedKeys_eq_nil_iff.mp hnone)]
    exact .none w'
  · rw [hok, Prod.mk.injEq, Prod.mk.injEq] at heq
    obtain ⟨-, rfl, rfl⟩ := heq
    refine ⟨rfl, ?_⟩
    have hground : (s.withData (change s.data)).Grounded w := hs
    have htraced := traced_reapply (s.data.changedKeys (change s.data))
      (fun d hd => get?_of_mem_configured hdocs hd) w
    have hhanded := handed_reapply (s.data.changedKeys (change s.data))
      (s.withData (change s.data)).configured hground
    obtain ⟨xs, hturns, -, hall⟩ := htraced.turns hhanded
    rw [show (s.withData (change s.data)).configured = s.configured from rfl, hreapply]
      at hturns hall
    have hdue := flatMap_rehandings hdocs s.data
    rw [hall rfl] at hturns
    rw [← hdue]
    exact hturns
  · rw [hok] at heq
    cases heq

/-- **An update hands over what shifts, and nothing else.**  The scene is any scene of any host, and
    its data are changed in any way. -/
theorem turns_update {w₀ : World} {past : List Entry} {h : Host} (hpast : History ⟨[], w₀⟩ past h)
    {s : Scene} (hs : s ∈ h.scenes) (hdoc : s.definition.document.Reachable)
    {change : DataBindings → DataBindings} {s' : Scene} {w' : World}
    (hok : s.update change h.world = (.ok (), s', w')) :
    s' = s.withData (change s.data) ∧
    s'.Turns h.world (s'.rebound s.data) (.ok ()) w' ∧
    w'.executions = h.world.executions ++ s'.rebound s.data ∧
    ((∀ k, s.data.get? k = s'.data.get? k) → s'.rebound s.data = [] ∧ w' = h.world) ∧
    ∀ name d, s.definition.document.get? name = some d → ∀ key ∈ d.setterKeys,
      d.shifts s.data s'.data key = false → d.filled? key s.data = d.filled? key s'.data := by
  have hground := hpast.grounded rfl s hs
  obtain ⟨hscene, hturns⟩ := turns_of_update hground hdoc.indexed hok
  refine ⟨hscene, hturns, hturns.executions, fun hsame => ⟨rebound_eq_nil hsame, ?_⟩,
    fun _ d _ key _ hstill => d.filled?_eq_of_not_shifts hstill⟩
  rw [rebound_eq_nil hsame] at hturns
  cases hturns
  rfl

end Scene

/-! ## An update of an attached scene -/

/-- A sheet with a name that stands twice, and properties that mention one key, another, or none. -/
def dimmable : Definition where
  document := (parseInto (.empty "sheet")
    ("Main:\n  A\n  B\n  A\nMain:\n  .alpha = #\x7by\x7d\n"
      ++ "A:\n  .hidden = #\x7bx\x7d\n  .alpha = #\x7by\x7d\nB:\n  .alpha = 1\n")).document
  catalogue := .stock
  listener := none

/-- A host that loads the sheet and attaches it to a container. -/
def dimming : List Deed :=
  [.load dimmable "Main" (.ofList [("x", "no"), ("y", "1")]) [], .create (.stock (.container {})),
    .attach 0 ⟨2⟩]

/-- The host after that. -/
def dimmed : Host := (Deed.play dimming ⟨[], .empty⟩).2

theorem isSome_dimmed : (dimmed.scenes[0]?).isSome = true := by
  decide +kernel

/-- The scene that has been attached. -/
def dimmedScene : Scene := Option.get _ isSome_dimmed

theorem dimming_computed : Deed.allAllowed dimming ⟨[], .empty⟩ = true ∧
    (dimmedScene.update (·.set "y" "0") dimmed.world).1.isOk = true ∧
    (dimmedScene.withData (dimmedScene.data.set "y" "0")).rebound dimmedScene.data =
      [⟨.construction, "A", "alpha", "0"⟩, ⟨.attached, "A", "alpha", "0"⟩,
        ⟨.construction, "Main", "alpha", "0"⟩, ⟨.attached, "Main", "alpha", "0"⟩] ∧
    dimmedScene.definition.document = dimmable.document := by
  decide +kernel

/-- The properties that mention `y` are handed over twice, those of the root last. -/
theorem turns_update_dimmed : ∃ s' w',
    dimmedScene.update (·.set "y" "0") dimmed.world = (.ok (), s', w') ∧
    s'.Turns dimmed.world
      [⟨.construction, "A", "alpha", "0"⟩, ⟨.attached, "A", "alpha", "0"⟩,
        ⟨.construction, "Main", "alpha", "0"⟩, ⟨.attached, "Main", "alpha", "0"⟩] (.ok ()) w' ∧
    ∀ name d, dimmedScene.definition.document.get? name = some d → ∀ key ∈ d.setterKeys,
      d.shifts dimmedScene.data s'.data key = false →
        d.filled? key dimmedScene.data = d.filled? key s'.data := by
  obtain ⟨hallowed, hok, hrebound, hdocument⟩ := dimming_computed
  rcases hupdate : dimmedScene.update (·.set "y" "0") dimmed.world with ⟨r, s', w'⟩
  rw [hupdate] at hok
  obtain rfl : r = .ok () := eq_ok_of_isOk hok
  have hmem : dimmedScene ∈ dimmed.scenes :=
    List.mem_of_getElem? (Option.some_get isSome_dimmed).symm
  have hdoc : dimmedScene.definition.document.Reachable :=
    hdocument ▸ .parse (.empty "sheet") _
  obtain ⟨rfl, hturns, -, -, hstill⟩ :=
    Scene.turns_update (History.play hallowed) hmem hdoc hupdate
  rw [hrebound] at hturns
  exact ⟨_, w', rfl, hturns, hstill⟩

end ViewSheet
