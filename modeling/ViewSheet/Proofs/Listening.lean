/-
  Listening: what a listener changes.

  1. **Specification**: `heard` is what a listener makes of a result: one event for an error, and
     none for a success.  The same workshop, definition or scene with another listener, or with
     none, is `heardBy` it.

  2. **Most of it asks no listener**: building and configuring views and hanging them up come to the
     same with any listener (the `_heardBy` lemmas that are plain equations).

  3. **The rest**: every call of a host comes to what it would come to if nobody listened, and then
     the listener hears of the result (`build_heardBy`, `load_heardBy`, `attach_heardBy` and so on).
     So no call forgets to report, reports twice, or reports before the last note is on the error.
-/
import ViewSheet.Proofs.Session
import ViewSheet.Scene.Lookup

namespace ViewSheet

/-! ## What is heard -/

/-- What a listener makes of a result. -/
def heard (o : Option Listener) {α : Type} : Except Error α → List Event
  | .error e => reportTo o e
  | .ok _ => []

theorem heard_none {α : Type} (r : Except Error α) : heard none r = [] := by
  cases r <;> rfl

theorem heard_map (o : Option Listener) {α β : Type} (f : α → β) (r : Except Error α) :
    heard o (r.map f) = heard o r := by
  cases r <;> rfl

theorem World.tell_nil (w : World) : w.tell [] = w := by
  rw [World.tell, List.append_nil]

theorem World.tell_tell (w : World) (events more : List Event) :
    (w.tell events).tell more = w.tell (events ++ more) := by
  rw [World.tell, World.tell, World.tell, List.append_assoc]

namespace Definition

/-- The definition with another listener. -/
def heardBy (d : Definition) (o : Option Listener) : Definition := { d with listener := o }

theorem reporting_eq (d : Definition) {α : Type} (r : Except Error α) (w : World) :
    d.reporting (r, w) = (r, w.tell (heard d.listener r)) := by
  cases r with
  | error e => rfl
  | ok _ => rw [heard, World.tell_nil]; rfl

end Definition

namespace Workshop

/-- The workshop with another listener. -/
def heardBy (w : Workshop) (o : Option Listener) : Workshop := { w with listener := o }

theorem reporting_eq (w : Workshop) {α : Type} (events : List Event) (r : Except Error α) :
    w.reporting (events, r) = (events ++ heard w.listener r, r) := by
  cases r with
  | error e => rfl
  | ok _ => rw [heard, List.append_nil]; rfl

end Workshop

namespace Scene

/-- The scene with another listener. -/
def heardBy (s : Scene) (o : Option Listener) : Scene :=
  { s with definition := s.definition.heardBy o }

/-! ## Passes -/

variable (s : Scene) (o : Option Listener)

theorem applyKey_heardBy (phase : Phase) (d : Declaration) (id : ViewId) (key : String)
    (w : World) : (s.heardBy o).applyKey phase d id key w = s.applyKey phase d id key w := by
  cases phase <;> rfl

theorem applyKeys_heardBy (phase : Phase) (d : Declaration) (id : ViewId) (keys : List String)
    (w : World) : (s.heardBy o).applyKeys phase d id keys w = s.applyKeys phase d id keys w := by
  induction keys generalizing w with
  | nil => rfl
  | cons key rest ih =>
    rw [applyKeys, applyKeys, applyKey_heardBy]
    split
    · rfl
    · exact ih _

theorem applyDeclaration_heardBy (phase : Phase) (d : Declaration) (keys : List String)
    (w : World) :
    (s.heardBy o).applyDeclaration phase d keys w = s.applyDeclaration phase d keys w := by
  unfold applyDeclaration
  simp only [applyKeys_heardBy]
  rfl

theorem applyEach_heardBy (phase : Phase) (ds : List Declaration) (w : World) :
    (s.heardBy o).applyEach phase ds w = s.applyEach phase ds w := by
  induction ds generalizing w with
  | nil => rfl
  | cons d rest ih =>
    rw [applyEach, applyEach, applyDeclaration_heardBy]
    split
    · rfl
    · exact ih _

theorem reapplyKeys_heardBy (d : Declaration) (keys : List String) (w : World) :
    (s.heardBy o).reapplyKeys d keys w = s.reapplyKeys d keys w := by
  unfold reapplyKeys
  simp only [applyDeclaration_heardBy]
  rfl

theorem reapply_heardBy (changed : List String) (ds : List Declaration) (w : World) :
    (s.heardBy o).reapply changed ds w = s.reapply changed ds w := by
  induction ds generalizing w with
  | nil => rfl
  | cons d rest ih =>
    rw [reapply, reapply, reapplyKeys_heardBy]
    split
    · rfl
    · exact ih _

/-! ## Building and wiring -/

theorem buildAs_heardBy (name className : String) (w : World) :
    (s.heardBy o).buildAs name className w =
      ((s.buildAs name className w).1.heardBy o, (s.buildAs name className w).2) := by
  have hcatalogue : (s.heardBy o).definition.catalogue = s.definition.catalogue := rfl
  unfold buildAs
  rw [hcatalogue]
  rcases s.definition.catalogue.isSubclass className Catalogue.baseClass with ⟨events, _ | _⟩
  · rfl
  · cases s.definition.catalogue.instantiate? className with
    | none => rfl
    | some v => rfl

theorem buildName_heardBy (name : String) (w : World) : (s.heardBy o).buildName name w =
    ((s.buildName name w).1.heardBy o, (s.buildName name w).2) := by
  have hroot : (s.heardBy o).isRootName name = s.isRootName name := rfl
  have hbound : (s.heardBy o).bound? name = s.bound? name := rfl
  unfold buildName
  rw [hroot, hbound]
  split
  · rfl
  · split
    · rfl
    · exact s.buildAs_heardBy o name _ _

theorem buildNames_heardBy (names : List String) (w : World) :
    buildNames names (s.heardBy o) w =
      ((buildNames names s w).1.heardBy o, (buildNames names s w).2) := by
  induction names generalizing s w with
  | nil => rfl
  | cons name rest ih =>
    rw [buildNames, buildName_heardBy]
    exact ih _ _

theorem wireNodes_heardBy (nodes : List Nat) (w : World) :
    (s.heardBy o).wireNodes nodes w = s.wireNodes nodes w := by
  induction nodes generalizing w with
  | nil => rfl
  | cons node rest ih => exact ih _

theorem configureRoot_heardBy (w : World) :
    (s.heardBy o).configureRoot w = s.configureRoot w := by
  unfold configureRoot
  simp only [applyDeclaration_heardBy]
  rfl

theorem settle_heardBy (first : Bool) (w : World) :
    (s.heardBy o).settle first w = s.settle first w := by
  unfold settle applyAll wire
  simp only [configureRoot_heardBy, wireNodes_heardBy, applyEach_heardBy]
  rfl

/-- A mapping is not shown who listens. -/
theorem mapper_heardBy (w : World) : (s.heardBy o).mapper w = s.mapper w := rfl

/-! ## Calls on a scene -/

/-- Attaching a scene: it settles, and then the listener hears of the result. -/
theorem attach_eq (container : ViewId) (w : World) :
    s.attach container w =
      let (r, w') := (s.withContainer container).settle (s.bound? rootName).isNone w
      (r, if r.isOk ∧ (s.bound? rootName).isNone then
          { s.withContainer container with state := .attached } else s.withContainer container,
        w'.tell (heard s.definition.listener r)) := by
  unfold attach
  dsimp only
  rcases (s.withContainer container).settle (s.bound? rootName).isNone w with ⟨e | ⟨⟩, w'⟩
  · rfl
  · rw [Definition.reporting_eq]
    cases (s.bound? rootName).isNone <;> rfl

/-- **A call to attach is heard of when it fails**, and else the listener makes no difference. -/
theorem attach_heardBy (container : ViewId) (w : World) :
    (s.heardBy o).attach container w =
      let (r, quiet, w') := (s.heardBy none).attach container w
      (r, quiet.heardBy o, w'.tell (heard o r)) := by
  have hbound : ∀ p, (s.heardBy p).bound? rootName = s.bound? rootName := fun _ => rfl
  have hsettle : ∀ p first, ((s.heardBy p).withContainer container).settle first w =
      (s.withContainer container).settle first w :=
    fun p first => (s.withContainer container).settle_heardBy p first w
  rw [attach_eq, attach_eq, hbound, hbound, hsettle, hsettle]
  rcases (s.withContainer container).settle (s.bound? rootName).isNone w with ⟨r, w'⟩
  dsimp only
  split
  · rw [show (s.heardBy none).definition.listener = none from rfl, heard_none, World.tell_nil]
    rfl
  · rw [show (s.heardBy none).definition.listener = none from rfl, heard_none, World.tell_nil]
    rfl

/-- What an update notes when it fails. -/
def updating (r : Except Error Unit) : Except Error Unit :=
  match r with
  | .error e => .error (e.during "while updating data bindings")
  | .ok () => .ok ()

/-- Updating a scene: if any binding has changed, properties are handed over again, and then the
    listener hears of the result with its last note. -/
theorem update_eq (change : DataBindings → DataBindings) (w : World) :
    s.update change w =
      if (s.data.changedKeys (change s.data)).isEmpty then
        (.ok (), s.withData (change s.data), w)
      else
        let (r, w') := (s.withData (change s.data)).reapply (s.data.changedKeys (change s.data))
          s.configured w
        (updating r, s.withData (change s.data),
          w'.tell (heard s.definition.listener (updating r))) := by
  unfold update
  dsimp only
  split
  · rfl
  · rw [Definition.reporting_eq]
    rfl

/-- **An update is heard of when it fails**, and else the listener makes no difference. -/
theorem update_heardBy (change : DataBindings → DataBindings) (w : World) :
    (s.heardBy o).update change w =
      let (r, quiet, w') := (s.heardBy none).update change w
      (r, quiet.heardBy o, w'.tell (heard o r)) := by
  have hreapply : ∀ p changed, ((s.heardBy p).withData (change s.data)).reapply changed
      s.configured w = (s.withData (change s.data)).reapply changed s.configured w :=
    fun p changed => (s.withData (change s.data)).reapply_heardBy p changed s.configured w
  have hdata : ∀ p, (s.heardBy p).data = s.data := fun _ => rfl
  have hconfigured : ∀ p, (s.heardBy p).configured = s.configured := fun _ => rfl
  rw [update_eq, update_eq, hdata, hdata, hconfigured, hconfigured, hreapply, hreapply]
  split
  · dsimp only
    rw [heard, World.tell_nil]
    rfl
  · rcases (s.withData (change s.data)).reapply (s.data.changedKeys (change s.data)) s.configured w
      with ⟨r, w'⟩
    dsimp only
    rw [show (s.heardBy none).definition.listener = none from rfl, heard_none, World.tell_nil]
    rfl

/-! ## Loading -/

theorem load_heardBy (d : Definition) (root : String) (data : DataBindings)
    (views : List (String × ViewId)) (w : World) : load (d.heardBy o) root data views w =
      ((load d root data views w).1.map (heardBy · o), (load d root data views w).2) := by
  cases hfound : (d.document.get? root).bind (·.hierarchy) with
  | none =>
    have hfoundToo : ((d.heardBy o).document.get? root).bind (·.hierarchy) = none := hfound
    unfold load
    rw [hfoundToo, hfound]
    rfl
  | some hierarchy =>
    have hfoundToo : ((d.heardBy o).document.get? root).bind (·.hierarchy) = some hierarchy :=
      hfound
    rcases hbuilt : buildNames (bare d root hierarchy data views).nodeNames
      (bare d root hierarchy data views) w with ⟨t, w₁⟩
    have hbuiltToo : buildNames (bare (d.heardBy o) root hierarchy data views).nodeNames
        (bare (d.heardBy o) root hierarchy data views) w = (t.heardBy o, w₁) := by
      have h := (bare d root hierarchy data views).buildNames_heardBy o
        (bare d root hierarchy data views).nodeNames w
      rw [hbuilt] at h
      exact h
    have hpass : (t.heardBy o).applyAll .construction w₁ = t.applyAll .construction w₁ :=
      t.applyEach_heardBy o .construction t.configured w₁
    rw [load_eq hfound data views w hbuilt, load_eq hfoundToo data views w hbuiltToo, hpass]
    split
    · rfl
    · rfl

end Scene

namespace Definition

variable (d : Definition) (o : Option Listener)

/-- **A call to load is heard of when it fails**, and else the listener makes no difference. -/
theorem loadTemplated_heardBy (root : String) (data : DataBindings) (w : World) :
    (d.heardBy o).loadTemplated root data w =
      let (r, w') := (d.heardBy none).loadTemplated root data w
      (r.map (Scene.heardBy · o), w'.tell (heard o r)) := by
  unfold loadTemplated
  rw [Scene.load_heardBy o, Scene.load_heardBy none, reporting_eq, reporting_eq]
  dsimp only
  rw [show (d.heardBy none).listener = none from rfl, show (d.heardBy o).listener = o from rfl,
    heard_none, World.tell_nil, heard_map, heard_map]
  cases (Scene.load d root data [] w).1 with
  | error e => rfl
  | ok s => rfl

theorem load_heardBy (root : String) (w : World) :
    (d.heardBy o).load root w =
      let (r, w') := (d.heardBy none).load root w
      (r.map (Scene.heardBy · o), w'.tell (heard o r)) :=
  d.loadTemplated_heardBy o root .empty w

/-- **Loading and mapping** is heard of once, whether the load fails or the mapping does. -/
theorem loadWith_heardBy {M : Type} (root : String) (mapping : Mapper → Except Error M)
    (w : World) :
    (d.heardBy o).loadWith root mapping w =
      let (r, w') := (d.heardBy none).loadWith root mapping w
      (r.map fun p => (p.1.heardBy o, p.2), w'.tell (heard o r)) := by
  unfold loadWith
  rw [load_heardBy]
  rcases (d.heardBy none).load root w with ⟨e | s, w'⟩
  · rfl
  · dsimp only [Except.map]
    rw [heard, World.tell_nil, reporting_eq, reporting_eq, Scene.mapper_heardBy,
      show (d.heardBy none).listener = none from rfl, show (d.heardBy o).listener = o from rfl,
      heard_none, World.tell_nil]
    cases mapping (s.mapper w') with
    | error e => rfl
    | ok mapped => rfl

end Definition

namespace Workshop

variable (x : Workshop) (o : Option Listener)

theorem reporting_heardBy (events : List Event) (r : Except Error Definition) :
    (x.heardBy o).reporting (events, r.map (·.heardBy o)) =
      let (told, quiet) := (x.heardBy none).reporting (events, r.map (·.heardBy none))
      (told ++ heard o quiet, quiet.map (·.heardBy o)) := by
  rw [reporting_eq, reporting_eq]
  dsimp only
  rw [show (x.heardBy none).listener = none from rfl, show (x.heardBy o).listener = o from rfl,
    heard_none, List.append_nil, heard_map, heard_map]
  cases r with
  | error e => rfl
  | ok d => rfl

theorem compile_heardBy (source identifier : String) : (x.heardBy o).compile source identifier =
    ((x.compile source identifier).1, (x.compile source identifier).2.map (·.heardBy o)) := by
  unfold compile
  rcases parse source identifier with ⟨events, e | document⟩
  · rfl
  · rfl

theorem compileBytes_heardBy (bytes : List UInt8) (identifier : String) :
    (x.heardBy o).compileBytes bytes identifier =
      ((x.compileBytes bytes identifier).1,
        (x.compileBytes bytes identifier).2.map (·.heardBy o)) := by
  unfold compileBytes
  split
  · rfl
  · exact x.compile_heardBy o _ identifier

/-- **A call to build is heard of when it fails**, and else the listener makes no difference. -/
theorem build_heardBy (source identifier : String) :
    (x.heardBy o).build source identifier =
      let (events, r) := (x.heardBy none).build source identifier
      (events ++ heard o r, r.map (·.heardBy o)) := by
  unfold build
  rw [compile_heardBy, x.compile_heardBy none]
  exact x.reporting_heardBy o _ _

theorem buildBytes_heardBy (bytes : List UInt8) (identifier : String) :
    (x.heardBy o).buildBytes bytes identifier =
      let (events, r) := (x.heardBy none).buildBytes bytes identifier
      (events ++ heard o r, r.map (·.heardBy o)) := by
  unfold buildBytes
  rw [compileBytes_heardBy, x.compileBytes_heardBy none]
  exact x.reporting_heardBy o _ _

/-- **Building from a file** is heard of once, whether the file cannot be read or makes no sense. -/
theorem buildFile_heardBy (path : String) (content : FileContent) :
    (x.heardBy o).buildFile path content =
      let (events, r) := (x.heardBy none).buildFile path content
      (events ++ heard o r, r.map (·.heardBy o)) := by
  cases content with
  | bytes bytes => exact x.buildBytes_heardBy o bytes _
  | missing => exact x.reporting_heardBy o [] (.error _)
  | unreadable why => exact x.reporting_heardBy o [] (.error _)

end Workshop

end ViewSheet
