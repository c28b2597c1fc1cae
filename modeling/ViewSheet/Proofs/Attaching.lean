/-
  Attaching: what an attach call that succeeds can be relied on for.

  1. **The crux**: an attach call binds its container before it does anything that can fail, and it
     is the first one exactly if no container was bound.  So the first call of a session is the only
     one that ever wires the tree, whether it succeeds or not.

  2. **The tree** (`TreeWired`): level by level each node has its turn, in the world that the nodes
     before it have left.  The view of the node is hung from that of its parent, unless it is the
     container or holds the view of its parent there; then it is left out with a warning.

  3. **Invariants**: until the first attach call the scene has no container; after it, the scene is
     attached exactly if that call succeeded (`progress`).  Every later call only hands the root's
     properties to its container (`reconfigures`).

  4. **Result** (`attached_iff_first_succeeded`): if the first attach call succeeded, then the tree
     is wired and configured and the scene attached.  If it failed, then the scene is not attached
     and never will be.
-/
import ViewSheet.Proofs.PassOrder
import ViewSheet.Proofs.Telling

namespace ViewSheet

namespace Scene

/-! ## Wiring the tree -/

/-- The warning that the view of a node is left out. -/
def leftOut (s : Scene) (node p : Nat) : Event :=
  let name := s.hierarchy.nameOf node
  let parentName := s.hierarchy.nameOf p
  .warning s!"'{name}' already contains its parent '{parentName}'; not attaching"

/-- What comes of the turn of a node that is to hang one view from another. -/
structure Placed (s : Scene) (node p : Nat) (parent child : ViewId) (w w' : World) : Prop where
  /-- A child that is the container, or holds its parent already, is left out with a warning. -/
  skipped : s.Barred w.store parent child →
    w'.store = w.store ∧ w'.journal = w.journal ++ [s.leftOut node p]
  /-- Any other child is hung from its parent, last of all, and that is all that happens. -/
  hung : ¬ s.Barred w.store parent child →
    (∀ id, w'.store.subviews id =
      if id = parent then w.store.subviews parent ++ [child] else w.store.subviews id) ∧
    w'.journal = w.journal

/-- Wiring gives each node its turn, in the world that those before it have left.  What was hung
    or told in this turn stays. -/
structure TreeWired (s : Scene) (w : World) : Prop where
  placed : ∀ before node after, s.hierarchy.breadthFirst = before ++ node :: after →
    ∀ p, s.hierarchy.parent? node = some p →
    ∀ parent child, s.viewOf p = some parent → s.viewOf node = some child →
      s.Placed node p parent child (s.wireNodes before w) (s.wireNodes (before ++ [node]) w)
  /-- A node does nothing if its parent or itself has no view. -/
  idle : ∀ before node after, s.hierarchy.breadthFirst = before ++ node :: after →
    ∀ p, s.hierarchy.parent? node = some p → s.viewOf p = none ∨ s.viewOf node = none →
      s.wireNodes (before ++ [node]) w = s.wireNodes before w
  kept : ∀ before after, s.hierarchy.breadthFirst = before ++ after →
    (s.wireNodes before w).store.Extends (s.wire w).store ∧
      (s.wireNodes before w).journal <+: (s.wire w).journal

section
variable {s : Scene} {w : World}

theorem wireNodes_append (s : Scene) (before after : List Nat) (w : World) :
    s.wireNodes (before ++ after) w = s.wireNodes after (s.wireNodes before w) := by
  induction before generalizing w with
  | nil => rfl
  | cons node rest ih => exact ih (s.wireNode node w)

theorem wireNodes_append_single (s : Scene) (before : List Nat) (node : Nat) (w : World) :
    s.wireNodes (before ++ [node]) w = s.wireNode node (s.wireNodes before w) :=
  s.wireNodes_append before [node] w

/-- **The turn of a node that is to hang one view from another.** -/
theorem placed_wireNode (hs : s.Grounded w) {node p : Nat}
    (hlast : s.hierarchy.find? (s.hierarchy.nameOf node) = some node)
    (hp : s.hierarchy.parent? node = some p) {parent child : ViewId}
    (hparent : s.viewOf p = some parent) (hchild : s.viewOf node = some child) :
    s.Placed node p parent child w (s.wireNode node w) := by
  have hthere : w.store.Has parent := hs _ _ hparent
  have hturn : s.wireNode node w =
      if s.bound? rootName = some child ∨ w.store.holds child parent = true then
        w.tell [s.leftOut node p]
      else { w with store := w.store.attach parent child } := by
    unfold viewOf at hparent hchild
    unfold wireNode
    dsimp only
    rw [hp]
    dsimp only
    rw [if_neg (not_not_intro hlast), hparent, hchild]
    rfl
  constructor
  · intro hbarred
    rw [Barred] at hbarred
    rw [hturn, if_pos hbarred]
    exact ⟨rfl, rfl⟩
  · intro hfree
    rw [Barred] at hfree
    rw [hturn, if_neg hfree]
    exact ⟨fun id => ViewStore.subviews_attach hthere child id, rfl⟩

theorem wireNode_of_unbound {node p : Nat} (hp : s.hierarchy.parent? node = some p)
    (hnone : s.viewOf p = none ∨ s.viewOf node = none) (w : World) : s.wireNode node w = w := by
  have hlink : s.link? node = none := by
    rw [link?, hp]
    dsimp only
    split
    · split
      · rename_i hparent hchild
        rw [hparent, hchild] at hnone
        rcases hnone with h | h <;> cases h
      · rfl
    · rfl
  rcases s.wireNode_cases node w with ⟨-, h⟩ | ⟨parent, child, h, -⟩
  · exact h
  · rw [hlink] at h
    cases h

theorem journal_wireNodes (s : Scene) (nodes : List Nat) (w : World) :
    w.journal <+: (s.wireNodes nodes w).journal :=
  (wireNodes_rel TellsOn.runs s.tellsOn_wireNode nodes w).journal

/-- **Wiring gives each node its turn.** -/
theorem treeWired (hs : s.Grounded w) (hdistinct : s.hierarchy.names.Nodup) : s.TreeWired w where
  placed before node after hsplit p hp parent child hparent hchild := by
    have hnode : node ∈ s.hierarchy.breadthFirst := by
      rw [hsplit]
      exact List.mem_append_right _ List.mem_cons_self
    have hearlier : s.Grounded (s.wireNodes before w) :=
      hs.of_size (s.extends_wireNodes before w).size
    rw [wireNodes_append_single]
    exact placed_wireNode hearlier (Hierarchy.find?_nameOf hdistinct hnode) hp hparent hchild
  idle before node after _ p hp hnone := by
    rw [wireNodes_append_single]
    exact wireNode_of_unbound hp hnone _
  kept before after hsplit := by
    rw [wire, hsplit, wireNodes_append]
    exact ⟨s.extends_wireNodes after _, s.journal_wireNodes after _⟩

end

/-! ## The first attach call -/

/-- What comes about between two worlds when a container that has just been bound is settled for the
    first time.  In between lies the world in which the container has been configured. -/
structure Realized (s : Scene) (w w₁ w' : World) : Prop where
  /-- The properties of the root were all taken. -/
  configured : s.Turns w s.rootHandings (.ok ()) w₁
  wired : s.TreeWired w₁
  /-- With a look around, all properties of all declarations were taken, once the tree stood. -/
  applied : s.Turns (s.wire w₁)
    (s.dueFor s.order fun d => s.turnsOf .attached d d.setterKeys) (.ok ()) w'
  /-- What was told while the tree was wired has been told. -/
  told : (s.wire w₁).journal <+: w'.journal
  /-- What hangs then hangs on, unless a setter takes views out of lists. -/
  hanging : s.definition.catalogue.KeepsSubviews →
    ∀ id, w'.store.subviews id = (s.wire w₁).store.subviews id

/-- A container is settled for the first time between two worlds. -/
def Realizes (s : Scene) (w w' : World) : Prop := ∃ w₁, s.Realized w w₁ w'

theorem realizes_of_settle {s : Scene} {w w' : World} (hs : s.Grounded w)
    (hdoc : s.definition.document.Indexed) (hdistinct : s.hierarchy.names.Nodup)
    (h : s.settle true w = (.ok (), w')) : s.Realizes w w' := by
  have hsize := s.size_configureRoot w
  obtain ⟨xs, hroot, -, hxs⟩ := turns_configureRoot hdoc hs
  unfold settle at h
  split at h
  · cases h
  · rename_i w₁ hconfigured
    rw [hconfigured] at hsize hroot hxs
    rw [if_pos rfl] at h
    obtain rfl := hxs rfl
    have hwired := treeWired (hs.of_size hsize) hdistinct
    -- wiring takes no view away
    have hgrown : (s.wire w₁).store.size = w₁.store.size :=
      (s.extends_wireNodes s.hierarchy.breadthFirst w₁).size
    obtain ⟨ys, hpass, -, hys⟩ := turns_applyAll hdoc (hs.of_size (hgrown.trans hsize)) .attached
    have htold := s.tellsOn_applyEach .attached s.configured (s.wire w₁)
    rw [← applyAll] at htold
    rw [h] at hpass hys htold
    refine ⟨w₁, hroot, hwired, ?_, htold.journal, fun hkeeps => ?_⟩
    · rw [← allHandings_eq hdoc, ← hys rfl]
      exact hpass
    · have hsame := sameTree_applyEach hkeeps .attached s.configured (s.wire w₁)
      rw [← applyAll, h] at hsame
      exact hsame.2

end Scene

/-! ## How far a scene has come -/

/-- A call that attached a scene for the first time and succeeded. -/
def Record.Realizes (r : Record) : Prop :=
  ∃ container, r.call = .attach container ∧
    (r.before.scene.withContainer container).Realizes r.before.world r.after.world

/-- An attach call that has only exchanged the container, and handed the properties of the root to
    it, up to the first that is refused. -/
def Record.Reconfigures (r : Record) : Prop :=
  ∃ container xs w, r.call = .attach container ∧
    r.after.scene = r.before.scene.withContainer container ∧
    (r.before.scene.withContainer container).Turns r.before.world xs r.result w ∧
    xs <+: (r.before.scene.withContainer container).rootHandings ∧
    (r.result = .ok () → xs = (r.before.scene.withContainer container).rootHandings) ∧
    r.after.world.store = w.store

/-- How far a scene has come after some calls. -/
def Progress (past : List Record) (m : Moment) : Prop :=
  match past.find? (·.call.isAttach) with
  | none => m.scene.bound? rootName = none ∧ m.scene.state = .viewsConstructed
  | some first => (m.scene.bound? rootName).isSome ∧
    ((first.result = .ok () ∧ m.scene.state = .attached ∧ first.Realizes) ∨
      ((∃ e, first.result = .error e) ∧ m.scene.state = .viewsConstructed))

/-- The container is bound, even if the call fails. -/
theorem Scene.bound?_attach (s : Scene) (container : ViewId) (w : World) :
    (s.attach container w).2.1.bound? rootName = some container := by
  have hbound : (s.withContainer container).bound? rootName = some container := by
    rw [bound?_withContainer, isRootName]
    simp
  rcases s.attach_cases container w with ⟨w₁, -, h⟩ | ⟨e, w₁, events, -, h⟩
  · rw [h]
    exact hbound
  · rw [h]
    exact hbound

/-- A later attach call leaves the state as it is. -/
theorem Scene.state_attach_of_bound {s : Scene} (h : (s.bound? rootName).isSome)
    (container : ViewId) (w : World) : (s.attach container w).2.1.state = s.state := by
  have hlater : (s.bound? rootName).isNone = false := by
    rw [Option.isNone_eq_false_iff]
    exact h
  rcases s.attach_cases container w with ⟨w₁, -, heq⟩ | ⟨e, w₁, events, -, heq⟩
  · rw [heq, hlater]
    rfl
  · rw [heq]
    rfl

namespace Progress

variable {past : List Record} {m : Moment}

theorem create (h : Progress past m) (v : View) :
    Progress (past ++ [(Call.create v).record m]) ((Call.create v).run m).2 := by
  unfold Progress at h ⊢
  rw [List.find?_append]
  cases hfirst : past.find? (·.call.isAttach) with
  | none =>
    rw [hfirst] at h
    exact h
  | some first =>
    rw [hfirst] at h
    exact h

theorem update (h : Progress past m) (change : DataBindings → DataBindings) :
    Progress (past ++ [(Call.update change).record m]) ((Call.update change).run m).2 := by
  unfold Progress at h ⊢
  rw [List.find?_append, Call.scene_run_update]
  cases hfirst : past.find? (·.call.isAttach) with
  | none =>
    rw [hfirst] at h
    exact h
  | some first =>
    rw [hfirst] at h
    exact h

theorem attach (h : Progress past m) (hm : m.scene.Grounded m.world)
    (hdoc : m.scene.definition.document.Indexed)
    (hdistinct : m.scene.hierarchy.names.Nodup) {container : ViewId}
    (allowed : (Call.attach container).Allowed m) :
    Progress (past ++ [(Call.attach container).record m]) ((Call.attach container).run m).2 := by
  have hbound := m.scene.bound?_attach container m.world
  unfold Progress at h ⊢
  rw [List.find?_append]
  cases hfirst : past.find? (·.call.isAttach) with
  | some first =>
    -- a container is bound already, so this call leaves the state alone
    rw [hfirst] at h
    obtain ⟨hthere, hcase⟩ := h
    have hstate := Scene.state_attach_of_bound hthere container m.world
    refine ⟨Option.isSome_of_eq_some hbound, ?_⟩
    show (_ ∧ (m.scene.attach container m.world).2.1.state = _ ∧ _) ∨
      (_ ∧ (m.scene.attach container m.world).2.1.state = _)
    rw [hstate]
    exact hcase
  | none =>
    -- this call is the first, and decides by what comes of it
    rw [hfirst] at h
    obtain ⟨hfree, hstate⟩ := h
    refine ⟨Option.isSome_of_eq_some hbound, ?_⟩
    rcases m.scene.attach_cases container m.world with ⟨w₁, hsettle, heq⟩ | ⟨e, w₁, events, -, heq⟩
    · rw [hfree] at hsettle heq
      have hrealizes := Scene.realizes_of_settle (Scene.grounded_withContainer hm allowed)
        hdoc hdistinct hsettle
      have hrun : (Call.attach container).run m = (.ok (), ⟨{ m.scene.withContainer container with
          state := .attached }, w₁⟩) := by
        rw [Call.run, heq]
        rfl
      refine Or.inl ⟨congrArg Prod.fst hrun, ?_, container, rfl, ?_⟩
      · rw [hrun]
      · show (m.scene.withContainer container).Realizes m.world
          ((Call.attach container).run m).2.world
        rw [hrun]
        exact hrealizes
    · have hrun : (Call.attach container).run m =
          (.error e, ⟨m.scene.withContainer container, w₁.tell events⟩) := by
        rw [Call.run, heq]
      refine Or.inr ⟨⟨e, congrArg Prod.fst hrun⟩, ?_⟩
      rw [hrun]
      exact hstate

end Progress

/-- **The first attach call decides how far a scene comes.** -/
theorem Session.progress {start : Moment} {past : List Record} {m : Moment}
    (h : Session start past m) (hground : start.scene.Grounded start.world)
    (hdoc : start.scene.definition.document.Indexed)
    (hdistinct : start.scene.hierarchy.names.Nodup) (hfree : start.scene.bound? rootName = none)
    (hstate : start.scene.state = .viewsConstructed) : Progress past m := by
  induction h with
  | start => exact ⟨hfree, hstate⟩
  | call hearlier c allowed ih =>
    cases c with
    | create v => exact ih.create v
    | update change => exact ih.update change
    | attach container =>
      refine ih.attach (hearlier.grounded hground) ?_ ?_ allowed
      · rw [hearlier.steady.definition]
        exact hdoc
      · rw [hearlier.steady.hierarchy]
        exact hdistinct

/-- Once there has been an attach call, a container is bound. -/
theorem Progress.isSome_bound? {past : List Record} {m : Moment} (h : Progress past m)
    (hattached : ∃ q ∈ past, q.call.isAttach = true) : (m.scene.bound? rootName).isSome := by
  unfold Progress at h
  split at h
  · rename_i hnone
    rw [List.find?_eq_none] at hnone
    obtain ⟨q, hq, hattach⟩ := hattached
    exact absurd hattach (hnone q hq)
  · exact h.1

/-- **A call that finds a container bound only hands the root's properties to the new one.** -/
theorem Call.reconfigures_record {m : Moment} (hm : m.scene.Grounded m.world)
    (hdoc : m.scene.definition.document.Indexed) (hbound : (m.scene.bound? rootName).isSome)
    {container : ViewId} (allowed : (Call.attach container).Allowed m) :
    ((Call.attach container).record m).Reconfigures := by
  have hlater : (m.scene.bound? rootName).isNone = false := by
    rw [Option.isNone_eq_false_iff]
    exact hbound
  obtain ⟨xs, hturns, hdue, hall⟩ :=
    Scene.turns_configureRoot (s := m.scene.withContainer container) hdoc
      (Scene.grounded_withContainer hm allowed)
  -- a container that is settled again is configured, and that is all
  have hsettle : (m.scene.withContainer container).settle false m.world =
      (m.scene.withContainer container).configureRoot m.world := by
    unfold Scene.settle
    rcases (m.scene.withContainer container).configureRoot m.world with ⟨e | ⟨⟩, w⟩ <;> rfl
  rw [← hsettle] at hturns hall
  unfold Record.Reconfigures Call.record Call.run
  rcases m.scene.attach_cases container m.world with
    ⟨w₁, hconfigured, heq⟩ | ⟨e, w₁, events, hconfigured, heq⟩
  · rw [hlater] at hconfigured heq
    rw [hconfigured] at hturns hall
    dsimp only
    rw [heq]
    exact ⟨container, xs, w₁, rfl, rfl, hturns, hdue, hall, rfl⟩
  · rw [hlater] at hconfigured
    rw [hconfigured] at hturns hall
    dsimp only
    rw [heq]
    exact ⟨container, xs, w₁, rfl, rfl, hturns, hdue, hall, rfl⟩

/-- **Every attach call but the first only hands the root's properties to its container.** -/
theorem Session.reconfigures {start : Moment} {past : List Record} {m : Moment}
    (h : Session start past m) (hground : start.scene.Grounded start.world)
    (hdoc : start.scene.definition.document.Indexed)
    (hdistinct : start.scene.hierarchy.names.Nodup) (hfree : start.scene.bound? rootName = none)
    (hstate : start.scene.state = .viewsConstructed) :
    ∀ earlier r later, past = earlier ++ r :: later → r.call.isAttach = true →
      (∃ q ∈ earlier, q.call.isAttach = true) → r.Reconfigures := by
  induction h with
  | start => exact fun earlier r later hsplit => absurd hsplit (by simp)
  | @call past m hearlier c allowed ih =>
    intro earlier r later hsplit hattach hbefore
    rcases List.eq_nil_or_concat later with rfl | ⟨more, last, rfl⟩
    · -- the call is the last one, and the container of an earlier one is bound
      obtain ⟨rfl, hlast⟩ := List.append_inj' hsplit rfl
      obtain rfl := (List.cons.inj hlast).1
      have hbound := (hearlier.progress hground hdoc hdistinct hfree hstate).isSome_bound? hbefore
      have hdocs : m.scene.definition.document.Indexed := by
        rw [hearlier.steady.definition]
        exact hdoc
      cases c with
      | create v => cases hattach
      | update change => cases hattach
      | attach container =>
        exact Call.reconfigures_record (hearlier.grounded hground) hdocs hbound allowed
    · rw [List.concat_eq_append, ← List.cons_append, ← List.append_assoc] at hsplit
      exact ih earlier r more (List.append_inj' hsplit rfl).1 hattach hbefore

/-- **After an attach call, a scene is attached, and its tree wired and configured, exactly if the
    first attach call succeeded.**  Every later one hands the root's properties to its container and
    does nothing else, whether it succeeds or not. -/
theorem attached_iff_first_succeeded {d : Definition} {root : String} {data : DataBindings}
    {views : List (String × ViewId)} {w₀ w₁ : World} {s : Scene} {past : List Record} {m : Moment}
    (hdoc : d.document.Reachable) (hviews : ∀ p ∈ views, w₀.store.Has p.2)
    (hload : Scene.load d root data views w₀ = (.ok s, w₁))
    (hdistinct : s.hierarchy.names.Nodup) (hsession : Session ⟨s, w₁⟩ past m) {first : Record}
    (hfirst : past.find? (·.call.isAttach) = some first) :
    (first.result = .ok () → m.scene.state = .attached ∧ first.Realizes) ∧
      (∀ e, first.result = .error e → m.scene.state = .viewsConstructed) ∧
      ∀ earlier r later, past = earlier ++ r :: later → r.call.isAttach = true →
        (∃ q ∈ earlier, q.call.isAttach = true) → r.Reconfigures := by
  have hloaded := Scene.loaded_of_load hviews hload
  have hfree : s.bound? rootName = none := hloaded.unattached rootName (by simp [Scene.isRootName])
  have hindexed : s.definition.document.Indexed := by
    rw [hloaded.definition]
    exact hdoc.indexed
  have hprogress := hsession.progress hloaded.grounded hindexed hdistinct hfree hloaded.state
  have hlater := hsession.reconfigures hloaded.grounded hindexed hdistinct hfree hloaded.state
  rw [Progress, hfirst] at hprogress
  rcases hprogress.2 with ⟨hok, hcase⟩ | ⟨⟨e, herror⟩, hcase⟩
  · refine ⟨fun _ => hcase, fun e herror => ?_, hlater⟩
    rw [hok] at herror
    cases herror
  · refine ⟨fun hok => ?_, fun _ _ => hcase, hlater⟩
    rw [herror] at hok
    cases hok

/-! ## A first call that succeeds -/

/-- Two views, of which the second is to match the size of the root, which is hidden. -/
def couple : Definition where
  document := (parseInto (.empty "sheet")
    "Main:\n  A\n  B\nB:\n  .matchSize = Main\nMain:\n  .hidden = yes\n").document
  catalogue := .stock
  listener := none

theorem isSome_loadCouple :
    (Moment.ofLoad? (Scene.load couple "Main" .empty [] .empty)).isSome = true := by
  decide +kernel

/-- The moment after the load. -/
def loadedCouple : Moment := Option.get _ isSome_loadCouple

/-- A host that makes a view of the sheet its container, and then moves the sheet to a new one. -/
def moveHouse : List Call := [.attach ⟨0⟩, .create (.stock (.container {})), .attach ⟨2⟩]

/-- The moment after all calls. -/
def moved : Moment := (Call.play moveHouse loadedCouple).2

theorem moved_computed : Call.allAllowed moveHouse loadedCouple = true ∧
    loadedCouple.scene.hierarchy.names = ["A", "B"] ∧
    ((Call.attach ⟨0⟩).run loadedCouple).1.isOk = true ∧
    moved.world.journal = [.warning "'A' already contains its parent '$root'; not attaching"] ∧
    moved.world.store.subviews ⟨0⟩ = [⟨1⟩] ∧ moved.world.store.subviews ⟨2⟩ = [] ∧
    moved.world.executions = loadedCouple.world.executions ++
      [⟨.construction, "Main", "hidden", "yes"⟩, ⟨.attached, "B", "matchSize", "Main"⟩,
        ⟨.attached, "Main", "hidden", "yes"⟩, ⟨.construction, "Main", "hidden", "yes"⟩] := by
  decide +kernel

/-- The first call succeeds.  It hangs the second view from the first, which is the container and
    is left out with a warning.  The other call hides the new container, and hangs nothing. -/
theorem attached_iff_first_succeeded_couple : ∃ first created last : Record,
    (Call.play moveHouse loadedCouple).1 = [first, created, last] ∧
      first.call = .attach ⟨0⟩ ∧ last.call = .attach ⟨2⟩ ∧
      first.result = .ok () ∧ moved.scene.state = .attached ∧ first.Realizes ∧
      last.Reconfigures ∧
      moved.world.journal = [.warning "'A' already contains its parent '$root'; not attaching"] ∧
      moved.world.store.subviews ⟨0⟩ = [⟨1⟩] ∧ moved.world.store.subviews ⟨2⟩ = [] ∧
      moved.world.executions = loadedCouple.world.executions ++
        [⟨.construction, "Main", "hidden", "yes"⟩, ⟨.attached, "B", "matchSize", "Main"⟩,
          ⟨.attached, "Main", "hidden", "yes"⟩, ⟨.construction, "Main", "hidden", "yes"⟩] := by
  obtain ⟨hallowed, hnames, hresult, hjournal, hfirst, hsecond, hexec⟩ := moved_computed
  have hload : Scene.load couple "Main" .empty [] .empty =
      (.ok loadedCouple.scene, loadedCouple.world) :=
    Moment.eq_of_ofLoad? (Option.some_get isSome_loadCouple).symm
  have hdistinct : loadedCouple.scene.hierarchy.names.Nodup := by
    rw [hnames]
    decide
  have hok := eq_ok_of_isOk hresult
  obtain ⟨hdone, -, hlater⟩ := attached_iff_first_succeeded (.parse (.empty "sheet") _)
    (List.forall_mem_nil _) hload hdistinct (Session.play hallowed) rfl
  obtain ⟨hstate, hrealizes⟩ := hdone hok
  refine ⟨_, _, _, rfl, rfl, rfl, hok, hstate, hrealizes, ?_, hjournal, hfirst, hsecond, hexec⟩
  exact hlater [_, _] _ [] rfl rfl ⟨_, List.mem_cons_self, rfl⟩

/-! ## Where the first call is not enough -/

/-- A view that is to match the size of another, which the data name. -/
def matching : Definition where
  document := (parseInto (.empty "sheet") "Main:\n  B\nB:\n  .matchSize = #\x7bsrc\x7d\n").document
  catalogue := .stock
  listener := none

/-- Loads the sheet with a view to match. -/
def loadMatching (target : String) : Except Error Scene × World :=
  Scene.load matching "Main" (.ofList [("src", target)]) [] .empty

theorem isSome_loadMatching_nowhere : (Moment.ofLoad? (loadMatching "Nowhere")).isSome = true := by
  decide +kernel

/-- The moment after the load. -/
def loadedNowhere : Moment := Option.get _ isSome_loadMatching_nowhere

theorem loadMatching_nowhere :
    loadMatching "Nowhere" = (.ok loadedNowhere.scene, loadedNowhere.world) :=
  Moment.eq_of_ofLoad? (Option.some_get isSome_loadMatching_nowhere).symm

/-- A host that names a view that is there once attaching has failed, and attaches anew. -/
def mendAndAttach : List Call :=
  [.create (.stock (.container {})), .attach ⟨1⟩, .update (·.set "src" "Main"),
    .create (.stock (.container {})), .attach ⟨2⟩]

/-- The moment after all calls. -/
def mended : Moment := (Call.play mendAndAttach loadedNowhere).2

theorem nowhere_computed : Call.allAllowed mendAndAttach loadedNowhere = true ∧
    loadedNowhere.scene.hierarchy.names = ["B"] ∧
    ((Call.play mendAndAttach loadedNowhere).1.getLast?.any fun r => r.result.isOk) = true ∧
    mended.scene.state = .viewsConstructed ∧ mended.world.store.subviews ⟨2⟩ = [] := by
  decide +kernel

/-- After the first attach call has failed, the next one succeeds and leaves the scene unattached
    and the container empty. -/
theorem exists_unattached_after_success : ∃ (s : Scene) (w : World) (past : List Record)
    (m : Moment) (r : Record),
      Scene.load matching "Main" (.ofList [("src", "Nowhere")]) [] .empty = (.ok s, w) ∧
      s.hierarchy.names = ["B"] ∧ Session ⟨s, w⟩ past m ∧ past.getLast? = some r ∧
      r.call = .attach ⟨2⟩ ∧ r.result = .ok () ∧ r.after = m ∧ m.scene.state ≠ .attached ∧
      m.world.store.subviews ⟨2⟩ = [] := by
  obtain ⟨hallowed, hnames, hresult, hstate, hempty⟩ := nowhere_computed
  refine ⟨_, _, _, mended, _, loadMatching_nowhere, hnames, Session.play hallowed, rfl, rfl, ?_,
    rfl, ?_, hempty⟩
  · exact eq_ok_of_isOk hresult
  · rw [hstate]
    exact SceneState.noConfusion

/-- A tree of one node. -/
def lone : Definition where
  document := (parseInto (.empty "sheet") "Main:\n  B\n").document
  catalogue := .stock
  listener := none

theorem isSome_loadLone :
    (Moment.ofLoad? (Scene.load lone "Main" .empty [] .empty)).isSome = true := by
  decide +kernel

/-- The moment after the load. -/
def loadedLone : Moment := Option.get _ isSome_loadLone

theorem lone_computed : loadedLone.scene.hierarchy.names = ["B"] ∧
    loadedLone.world.store.size = 1 ∧
    ((Call.attach ⟨0⟩).run loadedLone).1.isOk = true ∧
    ((Call.attach ⟨0⟩).run loadedLone).2.scene.hierarchy.parent? 1 = some 0 ∧
    ((Call.attach ⟨0⟩).run loadedLone).2.scene.viewOf 0 = some ⟨0⟩ ∧
    ((Call.attach ⟨0⟩).run loadedLone).2.scene.viewOf 1 = some ⟨0⟩ ∧
    ((Call.attach ⟨0⟩).run loadedLone).2.world.store.subviews ⟨0⟩ = [] := by
  decide +kernel

/-- A view of the tree that is made the container itself is not hung into itself. -/
theorem exists_child_left_out : ∃ (s : Scene) (w : World) (m : Moment) (r : Record),
    Scene.load lone "Main" .empty [] .empty = (.ok s, w) ∧ s.hierarchy.names = ["B"] ∧
      Session ⟨s, w⟩ [r] m ∧ r.call = .attach ⟨0⟩ ∧ r.result = .ok () ∧
      m.scene.hierarchy.parent? 1 = some 0 ∧ m.scene.viewOf 0 = some ⟨0⟩ ∧
      m.scene.viewOf 1 = some ⟨0⟩ ∧ ⟨0⟩ ∉ m.world.store.subviews ⟨0⟩ := by
  obtain ⟨hnames, hsize, hresult, hparent, hcontainer, hchild, hempty⟩ := lone_computed
  have hload : Scene.load lone "Main" .empty [] .empty =
      (.ok loadedLone.scene, loadedLone.world) :=
    Moment.eq_of_ofLoad? (Option.some_get isSome_loadLone).symm
  have hthere : loadedLone.world.store.Has ⟨0⟩ := by
    rw [ViewStore.Has, hsize]
    exact Nat.one_pos
  refine ⟨_, _, _, _, hload, hnames, .call .start (.attach ⟨0⟩) hthere, rfl, eq_ok_of_isOk hresult,
    hparent, hcontainer, hchild, ?_⟩
  rw [hempty]
  exact List.not_mem_nil

/-- **An attach call that succeeds need not leave the scene attached, or every child with its
    parent.** -/
theorem exists_success_without_tree :
    (∃ (s : Scene) (w : World) (past : List Record) (m : Moment) (r : Record),
      Scene.load matching "Main" (.ofList [("src", "Nowhere")]) [] .empty = (.ok s, w) ∧
      s.hierarchy.names = ["B"] ∧ Session ⟨s, w⟩ past m ∧ past.getLast? = some r ∧
      r.call = .attach ⟨2⟩ ∧ r.result = .ok () ∧ r.after = m ∧ m.scene.state ≠ .attached ∧
      m.world.store.subviews ⟨2⟩ = []) ∧
    ∃ (s : Scene) (w : World) (m : Moment) (r : Record),
      Scene.load lone "Main" .empty [] .empty = (.ok s, w) ∧ s.hierarchy.names = ["B"] ∧
      Session ⟨s, w⟩ [r] m ∧ r.call = .attach ⟨0⟩ ∧ r.result = .ok () ∧
      m.scene.hierarchy.parent? 1 = some 0 ∧ m.scene.viewOf 0 = some ⟨0⟩ ∧
      m.scene.viewOf 1 = some ⟨0⟩ ∧ ⟨0⟩ ∉ m.world.store.subviews ⟨0⟩ :=
  ⟨exists_unattached_after_success, exists_child_left_out⟩

end ViewSheet
