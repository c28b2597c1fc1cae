/-
  Pass order: in which order loading and attaching hand the properties over.

  1. **Specification**: `script` lists every turn there is to be.  First construction, then with a
     look around: in each pass the nodes' declarations in the order in which their names come first,
     level by level, and then the root's.

  2. **Accounts**: a list of executions is *accounted* for if each entry is a turn at its place in
     the record, and the whole fails exactly if the last turn did.  Accounts of runs that follow one
     another, also of different scenes, go together (`Accounted.append`).

  3. **The crux**: the root has no view in the first pass, so its declaration comes to nothing there
     and is handed over to the container later, before the tree is wired.  Attaching binds no name
     but the root's, so the second pass goes through the same declarations as the first.

  4. **Result** (`accounted_loadAndAttach`): what is executed is the script, or the part of it that
     ends with the turn that failed.
-/
import Mathlib.Data.List.Basic
import ViewSheet.Proofs.Turns

namespace ViewSheet

/-! ## Accounts -/

/-- Each entry is a turn at its place in the record, of a scene that meets a condition there.  The
    last turn failed if the whole did, and no other. -/
def Accounted (P : Execution → Scene → World → Prop) (past done : List Execution)
    (r : Except Error Unit) : Prop :=
  (∀ e, r = .error e → done ≠ []) ∧
    ∀ before x after, done = before ++ x :: after → ∃ s w q w',
      P x s w ∧ w.executions = past ++ before ∧ s.Turned w x q w' ∧
        ((∃ e, q = .error e) ↔ after = [] ∧ ∃ e, r = .error e)

namespace Accounted

variable {P Q : Execution → Scene → World → Prop} {past xs ys : List Execution}
  {r : Except Error Unit}

theorem imp (h : Accounted P past xs r) (hPQ : ∀ x ∈ xs, ∀ s w, P x s w → Q x s w) :
    Accounted Q past xs r := by
  refine ⟨h.1, fun before x after hsplit => ?_⟩
  obtain ⟨s, w, q, w', hP, hrest⟩ := h.2 before x after hsplit
  have hmem : x ∈ xs := by
    rw [hsplit]
    exact List.mem_append_right _ List.mem_cons_self
  exact ⟨s, w, q, w', hPQ x hmem s w hP, hrest⟩

/-- It is of no account which error the whole fails with. -/
theorem error {e e' : Error} (h : Accounted P past xs (.error e)) :
    Accounted P past xs (.error e') := by
  refine ⟨fun _ _ => h.1 e rfl, fun before x after hsplit => ?_⟩
  obtain ⟨s, w, q, w', hP, hexec, hturned, hlast⟩ := h.2 before x after hsplit
  refine ⟨s, w, q, w', hP, hexec, hturned, hlast.trans ?_⟩
  exact and_congr_right fun _ => iff_of_true ⟨e, rfl⟩ ⟨e', rfl⟩

/-- A run is accounted for. -/
theorem of_turns {s : Scene} {a b : World} (h : s.Turns a xs r b)
    (hP : ∀ x ∈ xs, ∀ earlier w, s.Turns a earlier (.ok ()) w → P x s w) :
    Accounted P a.executions xs r := by
  induction h with
  | none w =>
    refine ⟨(by rintro _ ⟨⟩), fun before x after hsplit => ?_⟩
    exact absurd hsplit.symm (by simp)
  | @next a w₁ b x xs r first rest ih =>
    have hrest := ih fun y hy earlier w hearlier =>
      hP y (List.mem_cons_of_mem x hy) (x :: earlier) w (.next first hearlier)
    refine ⟨fun _ _ => List.cons_ne_nil x xs, fun before y after hsplit => ?_⟩
    cases before with
    | nil =>
      -- the first turn was taken, and if the rest fails then there is a rest
      obtain ⟨rfl, rfl⟩ := List.cons.inj hsplit
      refine ⟨s, a, .ok (), w₁, hP x List.mem_cons_self [] a (.none a),
        (List.append_nil _).symm, first, ?_⟩
      refine iff_of_false (by rintro ⟨e, ⟨⟩⟩) ?_
      rintro ⟨hnil, e, he⟩
      exact hrest.1 e he hnil
    | cons z before =>
      obtain ⟨rfl, hlater⟩ := List.cons.inj hsplit
      obtain ⟨t, w, q, w', hy, hexec, hturned, hlast⟩ := hrest.2 before y after hlater
      refine ⟨t, w, q, w', hy, ?_, hturned, hlast⟩
      rw [hexec, first.executions, List.append_assoc, List.singleton_append]
  | @failed a b x e last =>
    refine ⟨fun _ _ => List.cons_ne_nil x [], fun before y after hsplit => ?_⟩
    have hsplit := hsplit.symm
    rw [List.append_eq_cons_iff] at hsplit
    rcases hsplit with ⟨rfl, heq⟩ | ⟨_, -, hnil⟩
    · obtain ⟨rfl, rfl⟩ := List.cons.inj heq
      exact ⟨s, a, _, b, hP y List.mem_cons_self [] a (.none a), (List.append_nil _).symm, last,
        iff_of_true ⟨e, rfl⟩ ⟨rfl, e, rfl⟩⟩
    · exact absurd hnil.symm (by simp)

/-- **Accounts go together**, if the first was of something that succeeded. -/
theorem append (h : Accounted P past xs (.ok ())) (k : Accounted P (past ++ xs) ys r) :
    Accounted P past (xs ++ ys) r := by
  refine ⟨fun e he hnil => k.1 e he (List.append_eq_nil_iff.mp hnil).2,
    fun before x after hsplit => ?_⟩
  have hlater : ∀ middle, before = xs ++ middle → ys = middle ++ x :: after →
      ∃ s w q w', P x s w ∧ w.executions = past ++ before ∧ s.Turned w x q w' ∧
        ((∃ e, q = .error e) ↔ after = [] ∧ ∃ e, r = .error e) := by
    rintro middle rfl hys
    obtain ⟨s, w, q, w', hx, hexec, hrest⟩ := k.2 middle x after hys
    exact ⟨s, w, q, w', hx, by rw [hexec, List.append_assoc], hrest⟩
  rcases List.append_eq_append_iff.mp hsplit with ⟨middle, hbefore, hys⟩ | ⟨middle, hxs, hafter⟩
  · exact hlater middle hbefore hys
  · rcases List.cons_eq_append_iff.mp hafter with ⟨rfl, hys⟩ | ⟨more, rfl, rfl⟩
    · exact hlater [] (by rw [hxs, List.append_nil, List.append_nil]) hys
    · -- the entry is one of the first list, and its turn was taken
      obtain ⟨s, w, q, w', hx, hexec, hturned, hlast⟩ := h.2 before x more hxs
      refine ⟨s, w, q, w', hx, hexec, hturned, iff_of_false ?_ ?_⟩
      · rw [hlast]
        rintro ⟨-, e, ⟨⟩⟩
      · rintro ⟨hnil, e, he⟩
        exact k.1 e he (List.append_eq_nil_iff.mp hnil).2

end Accounted

namespace Scene

/-! ## The script -/

/-- The turns of the nodes' declarations in a pass. -/
def nodePass (s : Scene) (phase : Phase) : List Execution :=
  s.dueFor s.nodeNames.eraseDups fun d => s.turnsOf phase d d.setterKeys

/-- The turns of the root's declaration in a pass. -/
def rootPass (s : Scene) (phase : Phase) : List Execution :=
  match s.definition.document.get? s.root with
  | some d => s.turnsOf phase d d.setterKeys
  | none => []

/-- All turns of a pass. -/
def fullPass (s : Scene) (phase : Phase) : List Execution := s.nodePass phase ++ s.rootPass phase

/-- All turns of a scene until it is attached. -/
def script (s : Scene) : List Execution := s.fullPass .construction ++ s.fullPass .attached

/-- No node goes by a name of the root. -/
def Plain (s : Scene) : Prop := ∀ name ∈ s.nodeNames, s.isRootName name = false

section
variable {s : Scene}

theorem dueFor_append (s : Scene) (a b : List String) (due : Declaration → List Execution) :
    s.dueFor (a ++ b) due = s.dueFor a due ++ s.dueFor b due :=
  List.flatMap_append

/-- If no node has its name, the root comes last. -/
theorem Plain.order_eq (h : s.Plain) : s.order = s.nodeNames.eraseDups ++ [s.root] := by
  have hnot : s.root ∉ s.nodeNames := by
    intro hmem
    have hroot := h s.root hmem
    simp [isRootName] at hroot
  have hlast : [s.root].removeAll s.nodeNames = [s.root] := by
    simp [List.removeAll, hnot]
  rw [order, List.eraseDups_append, hlast]
  rfl

theorem allHandings_eq (hdoc : s.definition.document.Indexed) (phase : Phase) :
    s.allHandings phase = s.dueFor s.order fun d => s.turnsOf phase d d.setterKeys := by
  rw [← flatMap_configured hdoc]
  · rfl
  · intro d hkeys
    rw [turnsOf, hkeys]
    rfl

/-- Before the scene has a container, a pass comes to the turns of the nodes. -/
theorem Plain.allHandings_free (h : s.Plain) (hdoc : s.definition.document.Indexed)
    (hfree : s.bound? s.root = none) (phase : Phase) : s.allHandings phase = s.nodePass phase := by
  have hroot : (s.dueFor [s.root] fun d => s.turnsOf phase d d.setterKeys) = [] := by
    rw [dueFor, List.flatMap_singleton, hfree]
    split <;> rfl
  rw [allHandings_eq hdoc, h.order_eq, dueFor_append, hroot, List.append_nil, nodePass]

/-- The container stands for the root. -/
theorem bound?_root_withContainer (s : Scene) (container : ViewId) :
    (s.withContainer container).bound? s.root = some container := by
  rw [bound?_withContainer, if_pos (by simp [isRootName])]

/-- With a container, a pass comes to the turns of the nodes, as before, and those of the root. -/
theorem Plain.allHandings_withContainer (h : s.Plain) (hdoc : s.definition.document.Indexed)
    (container : ViewId) (phase : Phase) :
    (s.withContainer container).allHandings phase = s.fullPass phase := by
  have hnodes : ∀ due, (s.withContainer container).dueFor s.nodeNames.eraseDups due =
      s.dueFor s.nodeNames.eraseDups due := by
    intro due
    refine List.flatMap_congr fun name hname => ?_
    rw [bound?_withContainer, h name (List.mem_eraseDups.mp hname)]
    rfl
  have hroot : ∀ due, (s.withContainer container).dueFor [s.root] due =
      match s.definition.document.get? s.root with
      | some d => due d
      | none => [] := by
    intro due
    rw [dueFor, List.flatMap_singleton, bound?_root_withContainer]
    rfl
  have horder : (s.withContainer container).order = s.nodeNames.eraseDups ++ [s.root] := h.order_eq
  rw [allHandings_eq (s := s.withContainer container) hdoc, horder, dueFor_append, hnodes, hroot]
  rfl

theorem rootHandings_withContainer (hdoc : s.definition.document.Indexed) (container : ViewId) :
    (s.withContainer container).rootHandings = s.rootPass .construction := by
  unfold rootHandings rootPass
  show (match s.definition.document.get? s.root with
    | some d => (s.withContainer container).handings .construction d d.setterKeys
    | none => []) = _
  cases hd : s.definition.document.get? s.root with
  | none => rfl
  | some d =>
    dsimp only
    rw [handings_eq, (hdoc s.root d hd).named, bound?_root_withContainer]
    rfl

/-- The script is what the load hands over, and then what the attach call hands over. -/
theorem script_eq (hdoc : s.definition.document.Indexed) (container : ViewId) :
    s.script = s.nodePass .construction ++
      ((s.withContainer container).rootHandings ++ s.fullPass .attached) := by
  rw [rootHandings_withContainer hdoc, script, fullPass, List.append_assoc]

end

end Scene

/-! ## No turn twice -/

/-- The pass, and the property of which declaration: all but the text. -/
def Execution.place (x : Execution) : Phase × String × String :=
  (x.phase, x.declaration, x.property)

namespace Scene

section
variable {s : Scene}

theorem place_of_mem_turnsOf {phase : Phase} {d : Declaration} {keys : List String} {x : Execution}
    (hx : x ∈ s.turnsOf phase d keys) : ∃ key ∈ keys, x.place = (phase, d.name, key) := by
  obtain ⟨key, hkey, hx⟩ := List.mem_filterMap.mp hx
  obtain ⟨p, -, rfl⟩ := Option.map_eq_some_iff.mp hx
  exact ⟨key, hkey, rfl⟩

theorem phase_of_mem_dueFor {names : List String} {phase : Phase} {x : Execution}
    (hx : x ∈ s.dueFor names fun d => s.turnsOf phase d d.setterKeys) : x.phase = phase := by
  obtain ⟨name, -, hname⟩ := List.mem_flatMap.mp hx
  split at hname
  · split at hname
    · obtain ⟨key, -, hplace⟩ := place_of_mem_turnsOf hname
      exact congrArg (·.1) hplace
    · cases hname
  · cases hname

theorem nodup_turnsOf (s : Scene) (phase : Phase) (d : Declaration) {keys : List String}
    (hkeys : keys.Nodup) : ((s.turnsOf phase d keys).map Execution.place).Nodup := by
  rw [turnsOf, List.map_filterMap, List.Nodup, List.pairwise_filterMap]
  refine hkeys.imp fun {a b} hne x hx y hy heq => hne ?_
  obtain ⟨u, hu, rfl⟩ := Option.map_eq_some_iff.mp hx
  obtain ⟨v, hv, rfl⟩ := Option.map_eq_some_iff.mp hy
  obtain ⟨p, -, rfl⟩ := Option.map_eq_some_iff.mp hu
  obtain ⟨q, -, rfl⟩ := Option.map_eq_some_iff.mp hv
  exact congrArg (·.2.2) heq

/-- Declarations of different names have no turn in common, and each has its properties once. -/
theorem nodup_dueFor (hdoc : s.definition.document.Indexed) (phase : Phase) {names : List String}
    (hnames : names.Nodup) :
    ((s.dueFor names fun d => s.turnsOf phase d d.setterKeys).map Execution.place).Nodup := by
  rw [dueFor, List.map_flatMap, List.Nodup, List.pairwise_flatMap]
  constructor
  · intro name _
    split
    · rename_i d hd
      split
      · exact nodup_turnsOf s phase d (hdoc name d hd).nodup_setterKeys
      · exact List.Pairwise.nil
    · exact List.Pairwise.nil
  · have hplace : ∀ name x, x ∈ (match s.definition.document.get? name with
          | some d => if (s.bound? name).isSome then s.turnsOf phase d d.setterKeys else []
          | none => []).map Execution.place → x.2.1 = name := by
      intro name x hx
      obtain ⟨y, hy, rfl⟩ := List.mem_map.mp hx
      split at hy
      · rename_i d hd
        split at hy
        · obtain ⟨key, -, hkey⟩ := place_of_mem_turnsOf hy
          rw [hkey]
          exact (hdoc name d hd).named
        · cases hy
      · cases hy
    refine hnames.imp fun {a b} hne x hx y hy heq => hne ?_
    rw [← hplace a x hx, ← hplace b y hy, heq]

/-- **No property of a declaration has two turns in one pass.** -/
theorem Plain.nodup_script (h : s.Plain) (hdoc : s.definition.document.Indexed) :
    (s.script.map Execution.place).Nodup := by
  -- with any container, a full pass is what comes of the names in their order
  have hpass : ∀ phase, s.fullPass phase = (s.withContainer ⟨0⟩).dueFor s.order fun d =>
      (s.withContainer ⟨0⟩).turnsOf phase d d.setterKeys := by
    intro phase
    rw [← h.allHandings_withContainer hdoc ⟨0⟩]
    exact allHandings_eq (s := s.withContainer ⟨0⟩) hdoc phase
  have horder : s.order.Nodup := by
    rw [← declaredNames_eq]
    exact nodup_foldl_insertNew List.nodup_nil _
  have hphase : ∀ phase, ∀ x ∈ (s.fullPass phase).map Execution.place, x.1 = phase := by
    intro phase x hx
    obtain ⟨y, hy, rfl⟩ := List.mem_map.mp hx
    rw [hpass] at hy
    exact phase_of_mem_dueFor hy
  have honce : ∀ phase, ((s.fullPass phase).map Execution.place).Nodup := by
    intro phase
    rw [hpass]
    exact nodup_dueFor (s := s.withContainer ⟨0⟩) hdoc phase horder
  rw [script, List.map_append, List.nodup_append]
  refine ⟨honce .construction, honce .attached, fun x hx y hy heq => ?_⟩
  have hx := hphase .construction x hx
  rw [heq, hphase .attached y hy] at hx
  cases hx

/-! ## Settling a container -/

theorem phase_of_mem_rootHandings {x : Execution} (hx : x ∈ s.rootHandings) :
    x.phase = .construction := by
  unfold rootHandings at hx
  split at hx
  · rw [handings_eq] at hx
    split at hx
    · obtain ⟨key, -, hplace⟩ := place_of_mem_turnsOf hx
      exact congrArg (·.1) hplace
    · cases hx
  · cases hx

theorem phase_of_mem_allHandings (hdoc : s.definition.document.Indexed) {phase : Phase}
    {x : Execution} (hx : x ∈ s.allHandings phase) : x.phase = phase := by
  rw [allHandings_eq hdoc] at hx
  exact phase_of_mem_dueFor hx

/-- The turn is one of the scene's that settles a container, from a world on.  The root's own turns
    follow one another from there, each of them taken.  With a look around, the turn comes after the
    root was configured, after all wiring, and after turns that were taken. -/
def InTurn (s : Scene) (start : World) (x : Execution) (t : Scene) (w : World) : Prop :=
  t = s ∧ match x.phase with
    | .construction => ∃ earlier, s.Turns start earlier (.ok ()) w
    | .attached => ∃ u earlier, s.configureRoot start = (.ok (), u) ∧
        s.Turns (s.wire u) earlier (.ok ()) w

/-- **Settling a container for the first time**: the root's turns, and after the wiring a pass. -/
theorem accounted_settle (hdoc : s.definition.document.Indexed) {w : World} (hs : s.Grounded w) :
    ∃ done, (s.settle true w).2.executions = w.executions ++ done ∧
      done <+: s.rootHandings ++ s.allHandings .attached ∧
      ((s.settle true w).1 = .ok () → done = s.rootHandings ++ s.allHandings .attached) ∧
      Accounted (s.InTurn w) w.executions done (s.settle true w).1 := by
  obtain ⟨first, hturns, hfirst, hall⟩ := turns_configureRoot hdoc hs
  have hroot : Accounted (s.InTurn w) w.executions first (s.configureRoot w).1 := by
    refine .of_turns hturns fun x hx earlier u hearlier => ⟨rfl, ?_⟩
    -- the root is configured in the construction pass
    rw [phase_of_mem_rootHandings (hfirst.subset hx)]
    exact ⟨earlier, hearlier⟩
  have hexec := hturns.executions
  have hsize := s.size_configureRoot w
  unfold settle
  rcases hconfigured : s.configureRoot w with ⟨e | _, w₁⟩
  · rw [hconfigured] at hroot hexec
    refine ⟨first, hexec, hfirst.trans (List.prefix_append _ _), ?_, hroot⟩
    rintro ⟨⟩
  · rw [hconfigured] at hroot hexec hsize hall
    rw [hall rfl] at hroot hexec
    dsimp only
    rw [if_pos rfl]
    have hgrown : (s.wire w₁).store.size = w₁.store.size :=
      (s.extends_wireNodes s.hierarchy.breadthFirst w₁).size
    have hground : s.Grounded (s.wire w₁) := hs.of_size (hgrown.trans hsize)
    have hwired : (s.wire w₁).executions = w.executions ++ s.rootHandings :=
      (s.executions_wireNodes _ w₁).trans hexec
    obtain ⟨rest, hturns, hrest, hall⟩ := turns_applyAll hdoc hground .attached
    have hpass : Accounted (s.InTurn w) (w.executions ++ s.rootHandings) rest
        (s.applyAll .attached (s.wire w₁)).1 := by
      rw [← hwired]
      refine .of_turns hturns fun x hx earlier u hearlier => ⟨rfl, ?_⟩
      rw [phase_of_mem_allHandings hdoc (hrest.subset hx)]
      exact ⟨w₁, earlier, hconfigured, hearlier⟩
    refine ⟨s.rootHandings ++ rest, ?_, (List.prefix_append_right_inj _).mpr hrest,
      fun hok => by rw [hall hok], hroot.append hpass⟩
    rw [hturns.executions, hwired, List.append_assoc]

end

/-! ## Loading and attaching -/

/-- Loads a hierarchy, lets the host do things of its own, and attaches the scene. -/
def loadAndAttach (d : Definition) (root : String) (data : DataBindings)
    (views : List (String × ViewId)) (between : World → World) (container : ViewId) (w : World) :
    Except Error Unit × World :=
  match load d root data views w with
  | (.error e, w) => (.error e, w)
  | (.ok s, w) =>
    let (r, _, w) := s.attach container (between w)
    (r, w)

/-- A scene is plain if the names on the sheet are none of the root's. -/
theorem Builds.plain {d : Definition} {root : String} {hierarchy : Hierarchy} {data : DataBindings}
    {views : List (String × ViewId)} {names : List String} {w w' : World} {s : Scene}
    (h : Builds names (bare d root hierarchy data views) w s w')
    (hplain : ∀ name ∈ hierarchy.names, name ≠ rootName ∧ name ≠ root) : s.Plain := by
  intro name hname
  rw [nodeNames, h.hierarchy_eq] at hname
  obtain ⟨node, hnode, rfl⟩ := List.mem_map.mp hname
  rw [h.isRootName_eq]
  simpa [isRootName, bare] using hplain _ (Hierarchy.nameOf_mem_names hnode)

/-- The turn is one of the scene's in a pass from a world on: the turns before it followed one
    another from there, each of them taken. -/
def InPass (s : Scene) (phase : Phase) (start : World) (x : Execution) (t : Scene) (w : World) :
    Prop :=
  t = s ∧ x.phase = phase ∧ ∃ earlier, s.Turns start earlier (.ok ()) w

/-- The first pass of a plain scene. -/
theorem accounted_construction {s : Scene} (hplain : s.Plain)
    (hdoc : s.definition.document.Indexed) {w : World} (hs : s.Grounded w)
    (hfree : s.bound? s.root = none) :
    ∃ done, (s.applyAll .construction w).2.executions = w.executions ++ done ∧
      done <+: s.nodePass .construction ∧
      ((s.applyAll .construction w).1 = .ok () → done = s.nodePass .construction) ∧
      Accounted (s.InPass .construction w) w.executions done (s.applyAll .construction w).1 := by
  obtain ⟨done, hturns, hdone, hall⟩ := turns_applyAll hdoc hs .construction
  rw [hplain.allHandings_free hdoc hfree] at hdone hall
  refine ⟨done, hturns.executions, hdone, hall,
    .of_turns hturns fun x hx earlier u hearlier => ⟨rfl, ?_, earlier, hearlier⟩⟩
  exact phase_of_mem_dueFor (hdone.subset hx)

/-- The first attach call of a plain scene. -/
theorem accounted_attach {s : Scene} (hplain : s.Plain) (hdoc : s.definition.document.Indexed)
    {w : World} (hs : s.Grounded w) (hfree : s.bound? rootName = none) {container : ViewId}
    (hcontainer : w.store.Has container) :
    ∃ done, (s.attach container w).2.2.executions = w.executions ++ done ∧
      done <+: (s.withContainer container).rootHandings ++ s.fullPass .attached ∧
      ((s.attach container w).1 = .ok () →
        done = (s.withContainer container).rootHandings ++ s.fullPass .attached) ∧
      Accounted ((s.withContainer container).InTurn w) w.executions done
        (s.attach container w).1 := by
  obtain ⟨done, hexec, hdone, hall, haccount⟩ := accounted_settle (s := s.withContainer container)
    hdoc (grounded_withContainer hs hcontainer)
  rw [hplain.allHandings_withContainer hdoc] at hdone hall
  rcases s.attach_cases container w with ⟨w₁, hsettle, heq⟩ | ⟨e, w₁, events, hsettle, heq⟩
  · rw [hfree, Option.isNone_none] at hsettle
    rw [hsettle] at hexec hall haccount
    rw [heq]
    exact ⟨done, hexec, hdone, hall, haccount⟩
  · rw [hfree, Option.isNone_none] at hsettle
    rw [hsettle] at hexec haccount
    rw [heq]
    refine ⟨done, hexec, hdone, ?_, haccount⟩
    rintro ⟨⟩

/-- The turn is one of the loaded scene's: in its first pass, from the world that building the views
    has left, or when it settles its container, from the world that the attach call starts in. -/
def InOrder (s : Scene) (container : ViewId) (built start : World) (x : Execution) (t : Scene)
    (w : World) : Prop :=
  s.InPass .construction built x t w ∨ (s.withContainer container).InTurn start x t w

/-- **Loading and attaching follow the script**, up to the turn that fails if one does.  The
    container is any view there is, and what the host does in between takes no view away and hands
    nothing over. -/
theorem accounted_loadAndAttach {d : Definition} {root : String} {hierarchy : Hierarchy}
    {data : DataBindings} {views : List (String × ViewId)} {between : World → World}
    {container : ViewId} {w₀ w₁ : World} {s : Scene} (hdoc : d.document.Reachable)
    (hfound : (d.document.get? root).bind (·.hierarchy) = some hierarchy)
    (hplain : ∀ name ∈ hierarchy.names, name ≠ rootName ∧ name ≠ root)
    (hviews : ∀ p ∈ views, w₀.store.Has p.2)
    (hbetween : ∀ w, w.store.size ≤ (between w).store.size ∧
      (between w).executions = w.executions)
    (hcontainer : (between (load d root data views w₀).2).store.Has container)
    (hbuilt : buildNames (bare d root hierarchy data views).nodeNames
      (bare d root hierarchy data views) w₀ = (s, w₁)) :
    ∃ done,
      (loadAndAttach d root data views between container w₀).2.executions =
        w₀.executions ++ done ∧
      done <+: s.script ∧
      ((loadAndAttach d root data views between container w₀).1 = .ok () → done = s.script) ∧
      Accounted (s.InOrder container w₁ (between (load d root data views w₀).2)) w₀.executions done
        (loadAndAttach d root data views between container w₀).1 ∧
      (done.map Execution.place).Nodup := by
  have hbuilds := builds_of_buildNames hviews hbuilt
  have hdocs : s.definition.document.Indexed := by
    rw [hbuilds.definition_eq]
    exact hdoc.indexed
  have hnodes := hbuilds.plain hplain
  have hground := hbuilds.grounded (grounded_bare hviews d root hierarchy data)
  -- the names of the root wait for the container
  have hrootName : s.bound? rootName = none := hbuilds.unattached (by simp [isRootName])
  have hroot : s.bound? s.root = none := hbuilds.unattached (by simp [isRootName])
  obtain ⟨first, hexec, hfirst, hall, haccount⟩ :=
    accounted_construction hnodes hdocs hground hroot
  rw [hbuilds.executions] at hexec haccount
  have haccount : ∀ start, Accounted (s.InOrder container w₁ start) w₀.executions first
      (s.applyAll .construction w₁).1 :=
    fun start => haccount.imp fun _ _ _ _ hturn => Or.inl hturn
  have hsize := s.size_applyEach .construction s.configured w₁
  rw [← applyAll] at hsize
  have honce := hnodes.nodup_script hdocs
  have hpart : ∀ done, done <+: s.script → (done.map Execution.place).Nodup :=
    fun done hdone => (hdone.sublist.map _).nodup honce
  unfold loadAndAttach
  rw [load_eq hfound data views w₀ hbuilt] at hcontainer ⊢
  rcases happly : s.applyAll .construction w₁ with ⟨e | _, w₂⟩
  · -- the load fails with a turn of the construction pass
    rw [happly] at haccount hexec
    have hscript : first <+: s.script := by
      rw [script_eq hdocs container]
      exact hfirst.trans (List.prefix_append _ _)
    exact ⟨first, hexec, hscript, (by rintro ⟨⟩), (haccount _).error, hpart first hscript⟩
  · rw [happly] at haccount hexec hsize hall hcontainer
    rw [hall rfl] at haccount hexec
    have hlater : s.Grounded (between w₂) := fun name id hid =>
      ((hground.of_size hsize) name id hid).mono (hbetween w₂).1
    obtain ⟨rest, hexecRest, hrest, hallRest, haccountRest⟩ :=
      accounted_attach hnodes hdocs hlater hrootName hcontainer
    rw [(hbetween w₂).2, hexec] at hexecRest haccountRest
    have hdone : s.nodePass .construction ++ rest <+: s.script := by
      rw [script_eq hdocs container]
      exact (List.prefix_append_right_inj _).mpr hrest
    refine ⟨s.nodePass .construction ++ rest, ?_, hdone, fun hok => ?_,
      (haccount _).append (haccountRest.imp fun _ _ _ _ hturn => Or.inr hturn), hpart _ hdone⟩
    · rw [← List.append_assoc]
      exact hexecRest
    · rw [hallRest hok, script_eq hdocs container]

end Scene

/-! ## A name that stands twice -/

/-- A sheet on which `A` stands before `B` and after it. -/
def doubled : Definition where
  document := (parseInto (.empty "sheet")
    ("Main:\n  A\n  B\n  A\nMain:\n  .alpha = 1\n"
      ++ "A:\n  .hidden = no\n  .alpha = #\x7by\x7d\nB:\n  .alpha = 0\n")).document
  catalogue := .stock
  listener := none

theorem isSome_doubled :
    ((doubled.document.get? "Main").bind (·.hierarchy)).isSome = true := by
  decide +kernel

/-- The hierarchy on the sheet. -/
def doubledHierarchy : Hierarchy := Option.get _ isSome_doubled

/-- The scene before its properties are handed over. -/
def builtDoubled : Scene × World :=
  let bare := Scene.bare doubled "Main" doubledHierarchy (.ofList [("y", "1")]) []
  Scene.buildNames bare.nodeNames bare .empty

/-- The host makes a container. -/
def withHost (w : World) : World := w.addView (.stock (.container {}))

/-- Loading the sheet, making a container, and attaching the scene to it. -/
def attachedDoubled : Except Error Unit × World :=
  Scene.loadAndAttach doubled "Main" (.ofList [("y", "1")]) [] withHost ⟨2⟩ .empty

theorem doubled_computed :
    (∀ name ∈ doubledHierarchy.names, name ≠ rootName ∧ name ≠ "Main") ∧
    2 < (Scene.load doubled "Main" (.ofList [("y", "1")]) [] .empty).2.store.size + 1 ∧
    attachedDoubled.1.isOk = true ∧
    builtDoubled.1.script =
      [⟨.construction, "A", "hidden", "no"⟩, ⟨.construction, "A", "alpha", "1"⟩,
        ⟨.construction, "B", "alpha", "0"⟩, ⟨.construction, "Main", "alpha", "1"⟩,
        ⟨.attached, "A", "hidden", "no"⟩, ⟨.attached, "A", "alpha", "1"⟩,
        ⟨.attached, "B", "alpha", "0"⟩, ⟨.attached, "Main", "alpha", "1"⟩] := by
  decide +kernel

/-- `A` has its turns once in each pass, and the root has its own last. -/
theorem accounted_loadAndAttach_doubled : attachedDoubled.1 = .ok () ∧
    attachedDoubled.2.executions =
      [⟨.construction, "A", "hidden", "no"⟩, ⟨.construction, "A", "alpha", "1"⟩,
        ⟨.construction, "B", "alpha", "0"⟩, ⟨.construction, "Main", "alpha", "1"⟩,
        ⟨.attached, "A", "hidden", "no"⟩, ⟨.attached, "A", "alpha", "1"⟩,
        ⟨.attached, "B", "alpha", "0"⟩, ⟨.attached, "Main", "alpha", "1"⟩] ∧
    Accounted (builtDoubled.1.InOrder ⟨2⟩ builtDoubled.2
        (withHost (Scene.load doubled "Main" (.ofList [("y", "1")]) [] .empty).2))
      [] attachedDoubled.2.executions attachedDoubled.1 := by
  obtain ⟨hplain, hsize, hok, hscript⟩ := doubled_computed
  have hok := eq_ok_of_isOk hok
  have hfound : (doubled.document.get? "Main").bind (·.hierarchy) = some doubledHierarchy :=
    (Option.some_get isSome_doubled).symm
  have hbuilt : Scene.buildNames
      (Scene.bare doubled "Main" doubledHierarchy (.ofList [("y", "1")]) []).nodeNames
      (Scene.bare doubled "Main" doubledHierarchy (.ofList [("y", "1")]) []) .empty =
        (builtDoubled.1, builtDoubled.2) := rfl
  have hbetween : ∀ w : World, w.store.size ≤ (withHost w).store.size ∧
      (withHost w).executions = w.executions := by
    intro w
    rw [withHost, World.store_addView, ViewStore.size_add]
    exact ⟨Nat.le_succ _, rfl⟩
  have hcontainer :
      (withHost (Scene.load doubled "Main" (.ofList [("y", "1")]) [] .empty).2).store.Has ⟨2⟩ := by
    rw [ViewStore.Has, withHost, World.store_addView, ViewStore.size_add]
    exact hsize
  obtain ⟨done, hexec, -, hall, haccount, -⟩ := Scene.accounted_loadAndAttach
    (.parse (.empty "sheet") _) hfound hplain (List.forall_mem_nil _) hbetween hcontainer hbuilt
  have hexec : attachedDoubled.2.executions = done := hexec
  rw [hexec]
  exact ⟨hok, (hall hok).trans hscript, haccount⟩

end ViewSheet
