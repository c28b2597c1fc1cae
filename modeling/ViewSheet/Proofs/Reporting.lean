/-
  Reporting: every error reaches the listener once.

  1. **Program**: a host has a workshop, makes definitions with it, loads scenes from these, and
     attaches and updates the scenes, in any order.  `Dealings` keeps a record of all its orders and
     of what came of them.

  2. **Specification**: beside the host there is the one that makes the same order with nobody
     listening (`Shop.heardBy none`).

  3. **One order**: the order comes to the same in both, and then the listener hears of the result
     (`Order.run_heardBy`).  All definitions and scenes have the listener and the catalogue of the
     workshop (`Shop.Uniform`), and keep them (`Shop.Uniform.run`).

  4. **Result** (`heard_once`).
-/
import ViewSheet.Proofs.Listening
import ViewSheet.Proofs.Telling

namespace ViewSheet

/-! ## Orders -/

/-- A workshop, what was made with it, and the world that all scenes share. -/
structure Shop where
  workshop : Workshop
  definitions : List Definition
  scenes : List Scene
  world : World

namespace Shop

/-- Keeps a definition that has been made. -/
def keepDefinition (x : Shop) (made : List Event × Except Error Definition) :
    Except Error Unit × Shop :=
  match made with
  | (events, .error e) => (.error e, { x with world := x.world.tell events })
  | (events, .ok d) =>
    (.ok (), { x with definitions := x.definitions ++ [d], world := x.world.tell events })

/-- Keeps a scene that has been loaded. -/
def keepScene (x : Shop) (loaded : Except Error Scene × World) : Except Error Unit × Shop :=
  match loaded with
  | (.error e, w) => (.error e, { x with world := w })
  | (.ok s, w) => (.ok (), { x with scenes := x.scenes ++ [s], world := w })

/-- Exchanges a scene for what has become of it. -/
def exchange (x : Shop) (i : Nat) (called : Except Error Unit × Scene × World) :
    Except Error Unit × Shop :=
  (called.1, { x with scenes := x.scenes.set i called.2.1, world := called.2.2 })

/-- Loads from one of the definitions, if there is such a one. -/
def loading (x : Shop) (k : Nat) (load : Definition → World → Except Error Scene × World) :
    Except Error Unit × Shop :=
  match x.definitions[k]? with
  | some d => x.keepScene (load d x.world)
  | none => (.ok (), x)

/-- Calls one of the scenes, if there is such a one. -/
def calling (x : Shop) (i : Nat) (call : Scene → World → Except Error Unit × Scene × World) :
    Except Error Unit × Shop :=
  match x.scenes[i]? with
  | some s => x.exchange i (call s x.world)
  | none => (.ok (), x)

end Shop

/-- Loads a hierarchy and maps it.  Only the scene is kept. -/
def Definition.loadMapped {M : Type} (d : Definition) (root : String)
    (mapping : Mapper → Except Error M) (w : World) : Except Error Scene × World :=
  ((d.loadWith root mapping w).1.map (·.1), (d.loadWith root mapping w).2)

/-- What a host orders. -/
inductive Order : Type 1 where
  | build (source identifier : String)
  | buildBytes (bytes : List UInt8) (identifier : String)
  /-- The file at the path is read, with this outcome. -/
  | buildFile (path : String) (content : FileContent)
  | load (k : Nat) (root : String)
  | loadTemplated (k : Nat) (root : String) (data : DataBindings)
  /-- The mapping is any of the host's, and may fail with any error. -/
  | loadWith {M : Type} (k : Nat) (root : String) (mapping : Mapper → Except Error M)
  /-- The host makes a view of its own. -/
  | create (v : View)
  | attach (i : Nat) (container : ViewId)
  | update (i : Nat) (change : DataBindings → DataBindings)

/-- What comes of an order. -/
def Order.run (order : Order) (x : Shop) : Except Error Unit × Shop :=
  match order with
  | build source identifier => x.keepDefinition (x.workshop.build source identifier)
  | buildBytes bytes identifier => x.keepDefinition (x.workshop.buildBytes bytes identifier)
  | buildFile path content => x.keepDefinition (x.workshop.buildFile path content)
  | load k root => x.loading k fun d w => d.load root w
  | loadTemplated k root data => x.loading k fun d w => d.loadTemplated root data w
  | loadWith k root mapping => x.loading k fun d w => d.loadMapped root mapping w
  | create v => (.ok (), { x with world := x.world.addView v })
  | attach i container => x.calling i fun s w => s.attach container w
  | update i change => x.calling i fun s w => s.update change w

/-- An order and the shop before it. -/
structure Deal where
  before : Shop
  order : Order

namespace Deal

def result (deal : Deal) : Except Error Unit := (deal.order.run deal.before).1

def after (deal : Deal) : Shop := (deal.order.run deal.before).2

/-- The report of the error that the order has returned, if it has. -/
def report? (deal : Deal) : Option String :=
  match deal.result with
  | .error e => some e.report
  | .ok () => none

end Deal

/-- All orders of a host from some moment on, and the shop after them. -/
inductive Dealings (start : Shop) : List Deal → Shop → Prop where
  | start : Dealings start [] start
  | deal {past : List Deal} {x : Shop} (hpast : Dealings start past x) (order : Order) :
      Dealings start (past ++ [⟨x, order⟩]) (order.run x).2

/-! ## With another listener -/

namespace Shop

/-- The shop with another listener. -/
def heardBy (x : Shop) (o : Option Listener) : Shop :=
  ⟨x.workshop.heardBy o, x.definitions.map (·.heardBy o), x.scenes.map (·.heardBy o), x.world⟩

/-- What comes of an order if it is heard of, from what comes of it otherwise. -/
def hear (o : Option Listener) (quiet : Except Error Unit × Shop) : Except Error Unit × Shop :=
  (quiet.1, ⟨quiet.2.workshop.heardBy o, quiet.2.definitions.map (·.heardBy o),
    quiet.2.scenes.map (·.heardBy o), quiet.2.world.tell (heard o quiet.1)⟩)

theorem eq_hear {o : Option Listener} {loud quiet : Except Error Unit × Shop}
    (hresult : loud.1 = quiet.1) (hworkshop : loud.2.workshop = quiet.2.workshop.heardBy o)
    (hdefinitions : loud.2.definitions = quiet.2.definitions.map (·.heardBy o))
    (hscenes : loud.2.scenes = quiet.2.scenes.map (·.heardBy o))
    (hworld : loud.2.world = quiet.2.world.tell (heard o quiet.1)) : loud = hear o quiet := by
  obtain ⟨r, workshop, definitions, scenes, world⟩ := loud
  dsimp only at hresult hworkshop hdefinitions hscenes hworld
  subst hresult hworkshop hdefinitions hscenes hworld
  rfl

variable (x : Shop) (o : Option Listener)

theorem definitions_heardBy : (x.heardBy o).definitions =
    (x.heardBy none).definitions.map (·.heardBy o) := by
  show x.definitions.map _ = (x.definitions.map _).map _
  rw [List.map_map]
  rfl

theorem scenes_heardBy : (x.heardBy o).scenes = (x.heardBy none).scenes.map (·.heardBy o) := by
  show x.scenes.map _ = (x.scenes.map _).map _
  rw [List.map_map]
  rfl

/-- Keeping a definition: the listener has heard of the result when it is made. -/
theorem keepDefinition_heardBy (events : List Event) (r : Except Error Definition) :
    (x.heardBy o).keepDefinition (events ++ heard o r, r.map (·.heardBy o)) =
      hear o ((x.heardBy none).keepDefinition (events, r)) := by
  cases r with
  | error e =>
    exact eq_hear rfl rfl (x.definitions_heardBy o) (x.scenes_heardBy o)
      (World.tell_tell _ _ _).symm
  | ok d =>
    refine eq_hear rfl rfl ?_ (x.scenes_heardBy o) (World.tell_tell _ _ _).symm
    show (x.heardBy o).definitions ++ [d.heardBy o] =
      List.map _ ((x.heardBy none).definitions ++ [d])
    rw [List.map_append, x.definitions_heardBy o]
    rfl

theorem keepScene_heardBy (r : Except Error Scene) (w : World) :
    (x.heardBy o).keepScene (r.map (·.heardBy o), w.tell (heard o r)) =
      hear o ((x.heardBy none).keepScene (r, w)) := by
  cases r with
  | error e => exact eq_hear rfl rfl (x.definitions_heardBy o) (x.scenes_heardBy o) rfl
  | ok s =>
    refine eq_hear rfl rfl (x.definitions_heardBy o) ?_ rfl
    show (x.heardBy o).scenes ++ [s.heardBy o] = List.map _ ((x.heardBy none).scenes ++ [s])
    rw [List.map_append, x.scenes_heardBy o]
    rfl

/-- Loading, by any way of loading that is heard of when it fails. -/
theorem loading_heardBy (k : Nat) {load : Definition → World → Except Error Scene × World}
    (hload : ∀ (d : Definition) (w : World), load (d.heardBy o) w =
      ((load (d.heardBy none) w).1.map (·.heardBy o),
        (load (d.heardBy none) w).2.tell (heard o (load (d.heardBy none) w).1))) :
    (x.heardBy o).loading k load = hear o ((x.heardBy none).loading k load) := by
  have hget : ∀ p, (x.heardBy p).definitions[k]? = (x.definitions[k]?).map (·.heardBy p) :=
    fun _ => List.getElem?_map
  unfold loading
  rw [hget, hget]
  cases x.definitions[k]? with
  | none =>
    exact eq_hear rfl rfl (x.definitions_heardBy o) (x.scenes_heardBy o) (World.tell_nil _).symm
  | some d =>
    show (x.heardBy o).keepScene (load (d.heardBy o) x.world) = _
    rw [hload]
    exact x.keepScene_heardBy o _ _

/-- Calling a scene, by any call that is heard of when it fails. -/
theorem calling_heardBy (i : Nat) {call : Scene → World → Except Error Unit × Scene × World}
    (hcall : ∀ (s : Scene) (w : World), call (s.heardBy o) w =
      ((call (s.heardBy none) w).1, (call (s.heardBy none) w).2.1.heardBy o,
        (call (s.heardBy none) w).2.2.tell (heard o (call (s.heardBy none) w).1))) :
    (x.heardBy o).calling i call = hear o ((x.heardBy none).calling i call) := by
  have hget : ∀ p, (x.heardBy p).scenes[i]? = (x.scenes[i]?).map (·.heardBy p) :=
    fun _ => List.getElem?_map
  unfold calling
  rw [hget, hget]
  cases x.scenes[i]? with
  | none =>
    exact eq_hear rfl rfl (x.definitions_heardBy o) (x.scenes_heardBy o) (World.tell_nil _).symm
  | some s =>
    show (x.heardBy o).exchange i (call (s.heardBy o) x.world) = _
    rw [hcall]
    refine eq_hear rfl rfl (x.definitions_heardBy o) ?_ rfl
    show (x.heardBy o).scenes.set i _ = List.map _ ((x.heardBy none).scenes.set i _)
    rw [List.map_set, x.scenes_heardBy o]
    rfl

end Shop

theorem Definition.loadMapped_heardBy {M : Type} (d : Definition) (o : Option Listener)
    (root : String) (mapping : Mapper → Except Error M) (w : World) :
    (d.heardBy o).loadMapped root mapping w =
      (((d.heardBy none).loadMapped root mapping w).1.map (·.heardBy o),
        ((d.heardBy none).loadMapped root mapping w).2.tell
          (heard o ((d.heardBy none).loadMapped root mapping w).1)) := by
  unfold loadMapped
  rw [loadWith_heardBy]
  rcases (d.heardBy none).loadWith root mapping w with ⟨e | mapped, w'⟩
  · rfl
  · rfl

/-- **An order comes to what it comes to if nobody listens, and then the listener hears of it.** -/
theorem Order.run_heardBy (order : Order) (x : Shop) (o : Option Listener) :
    order.run (x.heardBy o) = Shop.hear o (order.run (x.heardBy none)) := by
  cases order with
  | build source identifier =>
    show (x.heardBy o).keepDefinition ((x.workshop.heardBy o).build source identifier) = _
    rw [Workshop.build_heardBy]
    exact x.keepDefinition_heardBy o _ _
  | buildBytes bytes identifier =>
    show (x.heardBy o).keepDefinition ((x.workshop.heardBy o).buildBytes bytes identifier) = _
    rw [Workshop.buildBytes_heardBy]
    exact x.keepDefinition_heardBy o _ _
  | buildFile path content =>
    show (x.heardBy o).keepDefinition ((x.workshop.heardBy o).buildFile path content) = _
    rw [Workshop.buildFile_heardBy]
    exact x.keepDefinition_heardBy o _ _
  | load k root => exact x.loading_heardBy o k fun d w => d.load_heardBy o root w
  | loadTemplated k root data =>
    exact x.loading_heardBy o k fun d w => d.loadTemplated_heardBy o root data w
  | loadWith k root mapping =>
    exact x.loading_heardBy o k fun d w => d.loadMapped_heardBy o root mapping w
  | create v =>
    exact Shop.eq_hear rfl rfl (x.definitions_heardBy o) (x.scenes_heardBy o)
      (World.tell_nil _).symm
  | attach i container => exact x.calling_heardBy o i fun s w => s.attach_heardBy o container w
  | update i change => exact x.calling_heardBy o i fun s w => s.update_heardBy o change w

/-! ## With nobody listening -/

namespace Workshop

variable (x : Workshop)

theorem catalogue_compile {source identifier : String} {d : Definition}
    (h : (x.compile source identifier).2 = .ok d) :
    d.catalogue = x.catalogue ∧ d.listener = x.listener := by
  unfold compile at h
  split at h
  · cases h
  · rw [Except.ok.injEq] at h
    rw [← h]
    exact ⟨rfl, rfl⟩

theorem reportsIn_compile (source identifier : String) :
    reportsIn (x.compile source identifier).1 = [] := by
  have hparse := reportsIn_parse source identifier
  unfold compile
  split
  · rename_i h
    rw [h] at hparse
    exact hparse
  · rename_i h
    rw [h] at hparse
    exact hparse

/-- What is made has the workshop's catalogue and listener, and the making reports nothing. -/
structure Makes (made : List Event × Except Error Definition) : Prop where
  definition : ∀ d, made.2 = .ok d → d.catalogue = x.catalogue ∧ d.listener = x.listener
  reports : reportsIn made.1 = []

theorem makes_error (e : Error) : x.Makes ([], .error e) := by
  refine ⟨fun d hd => ?_, rfl⟩
  cases hd

theorem makes_compile (source identifier : String) : x.Makes (x.compile source identifier) :=
  ⟨fun _ hd => x.catalogue_compile hd, x.reportsIn_compile source identifier⟩

theorem makes_compileBytes (bytes : List UInt8) (identifier : String) :
    x.Makes (x.compileBytes bytes identifier) := by
  unfold compileBytes
  split
  · exact x.makes_error _
  · exact x.makes_compile _ identifier

variable {x} in
theorem Makes.reporting {made : List Event × Except Error Definition} (h : x.Makes made)
    (hquiet : x.listener = none) : x.Makes (x.reporting made) := by
  obtain ⟨events, r⟩ := made
  rw [reporting_eq, hquiet, heard_none, List.append_nil]
  exact h

end Workshop

namespace Definition

variable {d : Definition} (hquiet : d.listener = none)
include hquiet

theorem loadTemplated_of_quiet (root : String) (data : DataBindings) (w : World) :
    d.loadTemplated root data w = Scene.load d root data [] w := by
  unfold loadTemplated
  rcases Scene.load d root data [] w with ⟨r, w'⟩
  rw [reporting_eq, hquiet, heard_none, World.tell_nil]

theorem tellsOn_loadTemplated (root : String) (data : DataBindings) (w : World) :
    TellsOn d.catalogue w (d.loadTemplated root data w).2 ∧
      ∀ s, (d.loadTemplated root data w).1 = .ok s → s.definition = d := by
  rw [loadTemplated_of_quiet hquiet]
  refine ⟨Scene.tellsOn_load d root data [] w, fun s hs => ?_⟩
  rcases hload : Scene.load d root data [] w with ⟨r, w'⟩
  rw [hload] at hs
  obtain rfl : r = .ok s := hs
  exact (Scene.loaded_of_load (List.forall_mem_nil _) hload).definition

theorem tellsOn_loadMapped {M : Type} (root : String) (mapping : Mapper → Except Error M)
    (w : World) : TellsOn d.catalogue w (d.loadMapped root mapping w).2 ∧
      ∀ s, (d.loadMapped root mapping w).1 = .ok s → s.definition = d := by
  obtain ⟨htells, hdefinition⟩ := tellsOn_loadTemplated hquiet root .empty w
  unfold loadMapped loadWith load
  rcases hload : d.loadTemplated root .empty w with ⟨e | s, w'⟩
  · rw [hload] at htells
    exact ⟨htells, fun s hs => by cases hs⟩
  · rw [hload] at htells hdefinition
    dsimp only
    rw [reporting_eq, hquiet, heard_none, World.tell_nil]
    refine ⟨htells, fun s' hs' => ?_⟩
    cases hmapped : mapping (s.mapper w') with
    | error e =>
      rw [hmapped] at hs'
      cases hs'
    | ok mapped =>
      rw [hmapped] at hs'
      obtain rfl : s = s' := Except.ok.inj hs'
      exact hdefinition s rfl

end Definition

namespace Scene

variable {s : Scene} (hquiet : s.definition.listener = none)
include hquiet

theorem tellsOn_attach (container : ViewId) (w : World) :
    TellsOn s.definition.catalogue w (s.attach container w).2.2 ∧
      (s.attach container w).2.1.definition = s.definition := by
  have hsettle := (s.withContainer container).tellsOn_settle (s.bound? rootName).isNone w
  rw [attach_eq, hquiet]
  rcases h : (s.withContainer container).settle (s.bound? rootName).isNone w with ⟨r, w'⟩
  rw [h] at hsettle
  dsimp only
  rw [heard_none, World.tell_nil]
  refine ⟨hsettle, ?_⟩
  split <;> rfl

theorem tellsOn_update (change : DataBindings → DataBindings) (w : World) :
    TellsOn s.definition.catalogue w (s.update change w).2.2 ∧
      (s.update change w).2.1.definition = s.definition := by
  have hreapply := (s.withData (change s.data)).tellsOn_reapply
    (s.data.changedKeys (change s.data)) s.configured w
  rw [update_eq, hquiet]
  split
  · exact ⟨.refl w, rfl⟩
  · rcases h : (s.withData (change s.data)).reapply (s.data.changedKeys (change s.data))
      s.configured w with ⟨r, w'⟩
    rw [h] at hreapply
    dsimp only
    rw [heard_none, World.tell_nil]
    exact ⟨hreapply, rfl⟩

end Scene

/-- Definitions and scenes have the catalogue and the listener of the workshop. -/
structure Shop.Uniform (c : Catalogue) (o : Option Listener) (x : Shop) : Prop where
  workshop : x.workshop = ⟨c, o⟩
  definitions : ∀ d ∈ x.definitions, d.catalogue = c ∧ d.listener = o
  scenes : ∀ s ∈ x.scenes, s.definition.catalogue = c ∧ s.definition.listener = o

namespace Shop.Uniform

variable {c : Catalogue} {o : Option Listener} {x : Shop}

theorem heardBy (hx : x.Uniform c o) (p : Option Listener) : (x.heardBy p).Uniform c p where
  workshop := by
    show x.workshop.heardBy p = _
    rw [hx.workshop]
    rfl
  definitions := by
    intro d hd
    obtain ⟨d', hd', rfl⟩ := List.mem_map.mp hd
    exact ⟨(hx.definitions d' hd').1, rfl⟩
  scenes := by
    intro s hs
    obtain ⟨s', hs', rfl⟩ := List.mem_map.mp hs
    exact ⟨(hx.scenes s' hs').1, rfl⟩

/-- The listener that all have already changes nothing. -/
theorem heardBy_eq (hx : x.Uniform c o) : x.heardBy o = x := by
  have hdefinition : ∀ d : Definition, d.listener = o → d.heardBy o = d := by
    rintro d rfl
    rfl
  obtain ⟨workshop, definitions, scenes, world⟩ := x
  obtain rfl : workshop = ⟨c, o⟩ := hx.workshop
  have hscene : ∀ s : Scene, s.definition.listener = o → s.heardBy o = s := by
    rintro s rfl
    rfl
  have hdefinitions : definitions.map (·.heardBy o) = definitions.map id :=
    List.map_congr_left fun d hd => hdefinition d (hx.definitions d hd).2
  have hscenes : scenes.map (·.heardBy o) = scenes.map id :=
    List.map_congr_left fun s hs => hscene s (hx.scenes s hs).2
  rw [List.map_id] at hdefinitions hscenes
  rw [Shop.heardBy, hdefinitions, hscenes]
  rfl

/-- An order that is heard of leaves what it leaves if it is not. -/
theorem hear {quiet : Except Error Unit × Shop} (h : quiet.2.Uniform c none)
    (p : Option Listener) : (Shop.hear p quiet).2.Uniform c p :=
  ⟨(h.heardBy p).workshop, (h.heardBy p).definitions, (h.heardBy p).scenes⟩

theorem keepDefinition (hx : x.Uniform c none) {made : List Event × Except Error Definition}
    (hmade : x.workshop.Makes made) :
    (x.keepDefinition made).2.Uniform c none ∧
      TellsOn c x.world (x.keepDefinition made).2.world := by
  obtain ⟨hdefinition, hreports⟩ := hmade
  rw [hx.workshop] at hdefinition
  obtain ⟨events, e | d⟩ := made
  · exact ⟨⟨hx.workshop, hx.definitions, hx.scenes⟩, (TellsOn.refl _).tell fun _ => hreports⟩
  · refine ⟨⟨hx.workshop, fun d' hd' => ?_, hx.scenes⟩, (TellsOn.refl _).tell fun _ => hreports⟩
    rcases List.mem_append.mp hd' with hold | hnew
    · exact hx.definitions d' hold
    · exact hdefinition d' (List.mem_singleton.mp hnew ▸ rfl)

theorem loading (hx : x.Uniform c none) (k : Nat)
    {load : Definition → World → Except Error Scene × World}
    (hload : ∀ d w, d.listener = none → TellsOn d.catalogue w (load d w).2 ∧
      ∀ s, (load d w).1 = .ok s → s.definition = d) :
    (x.loading k load).2.Uniform c none ∧ TellsOn c x.world (x.loading k load).2.world := by
  unfold Shop.loading
  split
  · rename_i d hd
    obtain ⟨hcatalogue, hlistener⟩ := hx.definitions d (List.mem_of_getElem? hd)
    obtain ⟨htells, hdefinition⟩ := hload d x.world hlistener
    rw [hcatalogue] at htells
    rcases hl : load d x.world with ⟨e | s, w⟩
    · rw [hl] at htells
      exact ⟨⟨hx.workshop, hx.definitions, hx.scenes⟩, htells⟩
    · rw [hl] at htells hdefinition
      refine ⟨⟨hx.workshop, hx.definitions, fun s' hs' => ?_⟩, htells⟩
      rcases List.mem_append.mp hs' with hold | hnew
      · exact hx.scenes s' hold
      · rw [List.mem_singleton.mp hnew, hdefinition s rfl]
        exact ⟨hcatalogue, hlistener⟩
  · exact ⟨hx, .refl _⟩

theorem calling (hx : x.Uniform c none) (i : Nat)
    {call : Scene → World → Except Error Unit × Scene × World}
    (hcall : ∀ s w, s.definition.listener = none →
      TellsOn s.definition.catalogue w (call s w).2.2 ∧ (call s w).2.1.definition = s.definition) :
    (x.calling i call).2.Uniform c none ∧ TellsOn c x.world (x.calling i call).2.world := by
  unfold Shop.calling
  split
  · rename_i s hs
    have hscene := hx.scenes s (List.mem_of_getElem? hs)
    obtain ⟨htells, hdefinition⟩ := hcall s x.world hscene.2
    rw [hscene.1] at htells
    refine ⟨⟨hx.workshop, hx.definitions, fun s' hs' => ?_⟩, htells⟩
    rcases List.mem_or_eq_of_mem_set hs' with hold | rfl
    · exact hx.scenes s' hold
    · rw [hdefinition]
      exact hscene
  · exact ⟨hx, .refl _⟩

/-- **An order with nobody listening** reports nothing, unless a setter does, and all that it makes
    has the catalogue of the workshop and no listener either. -/
theorem run_of_quiet (hx : x.Uniform c none) (order : Order) :
    (order.run x).2.Uniform c none ∧ TellsOn c x.world (order.run x).2.world := by
  have hquiet : x.workshop.listener = none := by rw [hx.workshop]
  cases order with
  | build source identifier =>
    exact hx.keepDefinition ((x.workshop.makes_compile source identifier).reporting hquiet)
  | buildBytes bytes identifier =>
    exact hx.keepDefinition ((x.workshop.makes_compileBytes bytes identifier).reporting hquiet)
  | buildFile path content =>
    refine hx.keepDefinition ?_
    cases content with
    | bytes bytes => exact (x.workshop.makes_compileBytes bytes _).reporting hquiet
    | missing => exact (x.workshop.makes_error _).reporting hquiet
    | unreadable why => exact (x.workshop.makes_error _).reporting hquiet
  | load k root =>
    exact hx.loading k fun d w hd => Definition.tellsOn_loadTemplated hd root .empty w
  | loadTemplated k root data =>
    exact hx.loading k fun d w hd => Definition.tellsOn_loadTemplated hd root data w
  | loadWith k root mapping =>
    exact hx.loading k fun d w hd => Definition.tellsOn_loadMapped hd root mapping w
  | create v => exact ⟨⟨hx.workshop, hx.definitions, hx.scenes⟩, (TellsOn.refl _).of_journal rfl⟩
  | attach i container =>
    exact hx.calling i fun s w hs => Scene.tellsOn_attach hs container w
  | update i change => exact hx.calling i fun s w hs => Scene.tellsOn_update hs change w

/-- **What comes of an order**, told from what comes of it with nobody listening. -/
theorem run_eq (hx : x.Uniform c o) (order : Order) :
    order.run x = Shop.hear o (order.run (x.heardBy none)) := by
  have h := order.run_heardBy x o
  rw [hx.heardBy_eq] at h
  exact h

/-- Whatever is ordered, all has the catalogue and the listener of the workshop. -/
theorem run (hx : x.Uniform c o) (order : Order) : (order.run x).2.Uniform c o := by
  rw [hx.run_eq]
  exact ((hx.heardBy none).run_of_quiet order).1.hear o

end Shop.Uniform

/-! ## The result -/

namespace Deal

/-- What an order adds to the journal: what it tells if nobody listens, and then what the listener
    makes of its result. -/
def HeardOnce (l : Listener) (deal : Deal) (own : List Event) : Prop :=
  deal.after.world.journal = deal.before.world.journal ++ own ++ heard (some l) deal.result ∧
    (deal.order.run (deal.before.heardBy none)).1 = deal.result ∧
    (deal.order.run (deal.before.heardBy none)).2.world.journal =
      deal.before.world.journal ++ own

/-- **One order.** -/
theorem exists_heardOnce {c : Catalogue} {l : Listener} (deal : Deal)
    (hbefore : deal.before.Uniform c (some l)) :
    ∃ own, deal.HeardOnce l own ∧ (c.Mute → reportsIn own = []) := by
  obtain ⟨-, own, htold, hmute⟩ := (hbefore.heardBy none).run_of_quiet deal.order
  have hrun := hbefore.run_eq deal.order
  refine ⟨own, ⟨?_, ?_, htold⟩, hmute⟩
  · unfold after result
    rw [hrun]
    show (World.tell _ _).journal = _
    rw [World.tell, htold]
    rfl
  · rw [result, hrun]
    rfl

/-- A listener that keeps reports keeps that of the error which the order has returned. -/
theorem reportsIn_heard (deal : Deal) :
    reportsIn (heard (some .memory) deal.result) = deal.report?.toList := by
  unfold report?
  cases deal.result with
  | error e => rfl
  | ok _ => rfl

end Deal

theorem Dealings.uniform {c : Catalogue} {o : Option Listener} {x₀ x : Shop} {past : List Deal}
    (hpast : Dealings x₀ past x) (hstart : x₀.Uniform c o) :
    x.Uniform c o ∧ ∀ deal ∈ past, deal.before.Uniform c o := by
  induction hpast with
  | start => exact ⟨hstart, List.forall_mem_nil _⟩
  | deal hearlier order ih =>
    obtain ⟨hx, hall⟩ := ih
    refine ⟨hx.run order, fun deal hdeal => ?_⟩
    rcases List.mem_append.mp hdeal with hold | hnew
    · exact hall deal hold
    · rw [List.mem_singleton.mp hnew]
      exact hx

/-- **Every error reaches the listener exactly once.**  Of each order the listener hears in the end
    what it makes of its result, and nothing else that it would not tell anyway.  A listener that
    keeps reports has kept, after any orders, those of the errors that were returned, in their
    order, unless a setter of the host tells of reports by itself. -/
theorem heard_once {l : Listener} {x₀ x : Shop} {past : List Deal} (hpast : Dealings x₀ past x)
    (hlistener : x₀.workshop.listener = some l) (hdefinitions : x₀.definitions = [])
    (hscenes : x₀.scenes = []) :
    (∀ deal ∈ past, ∃ own, deal.HeardOnce l own ∧
      (x₀.workshop.catalogue.Mute → reportsIn own = [])) ∧
    (l = .memory → x₀.workshop.catalogue.Mute →
      reportsIn x.world.journal = reportsIn x₀.world.journal ++ past.filterMap Deal.report?) := by
  have hstart : x₀.Uniform x₀.workshop.catalogue (some l) := by
    refine ⟨by rw [← hlistener], ?_, ?_⟩
    · rw [hdefinitions]
      exact List.forall_mem_nil _
    · rw [hscenes]
      exact List.forall_mem_nil _
  refine ⟨fun deal hdeal => deal.exists_heardOnce ((hpast.uniform hstart).2 deal hdeal), ?_⟩
  rintro rfl hmute
  induction hpast with
  | start => exact (List.append_nil _).symm
  | deal hearlier order ih =>
    rename_i earlier y
    -- the last order adds its own report and no other
    obtain ⟨own, ⟨hjournal, -, -⟩, hown⟩ :=
      Deal.exists_heardOnce ⟨y, order⟩ (hearlier.uniform hstart).1
    have hreport := Deal.reportsIn_heard ⟨y, order⟩
    have hlast : [(⟨y, order⟩ : Deal)].filterMap Deal.report? =
        (Deal.report? ⟨y, order⟩).toList := by
      rw [List.filterMap_cons, List.filterMap_nil]
      cases Deal.report? ⟨y, order⟩ <;> rfl
    rw [Deal.after] at hjournal
    rw [hjournal, reportsIn_append, reportsIn_append, hown hmute, hreport, ih, List.append_nil,
      List.filterMap_append, hlast, List.append_assoc]

/-! ## A row of failures -/

/-- Makes orders one after the other: the record of them, and the shop after them. -/
def Order.play : List Order → Shop → List Deal × Shop
  | [], x => ([], x)
  | order :: rest, x =>
    let (past, last) := play rest (order.run x).2
    (⟨x, order⟩ :: past, last)

theorem Dealings.cons {x y : Shop} {order : Order} {past : List Deal}
    (h : Dealings (order.run x).2 past y) : Dealings x (⟨x, order⟩ :: past) y := by
  induction h with
  | start => exact .deal .start order
  | deal _ last ih => exact .deal ih last

/-- Orders that are played make dealings. -/
theorem Dealings.play (orders : List Order) (x : Shop) :
    Dealings x (Order.play orders x).1 (Order.play orders x).2 := by
  induction orders generalizing x with
  | nil => exact .start
  | cons order rest ih => exact (ih (order.run x).2).cons

/-- A shop in which nothing has been made, and whose listener keeps reports. -/
def newShop : Shop := ⟨⟨.stock, some .memory⟩, [], [], .empty⟩

/-- A text that makes no sense and a file that is not there; then a sheet that does make sense, a
    view that is not in it, data that are missing at first and then no number, and data that are. -/
def unlucky : List Order :=
  [.build "stray" "a", .buildFile "sheets/b" .missing,
    .build "Main:\n  B\nMain:\n  .alpha = #\x7bx\x7d\n" "c", .load 0 "Main",
    .loadWith 0 "Main" fun m => m.view "C", .create (.stock (.container {})), .attach 0 ⟨1⟩,
    .update 0 fun _ => .ofList [("x", "wide")], .update 0 fun _ => .ofList [("x", "0")]]

theorem unlucky_computed : reportsIn newShop.world.journal = [] ∧
    (Order.play unlucky newShop).1.filterMap Deal.report? =
      ["line 1: Unrecognized plain text 'stray'. Add ':' to the end to make a declaration"
        ++ "\n  ...while parsing a\n  ...while building definition",
      "resource 'sheets/b' not available: no such file",
      "unknown view: Unknown view C in view hierarchy",
      "line 4: Expected number but saw '#\x7bx\x7d'\n  ...while setting properties for Main",
      "line 4: Expected number but saw 'wide'\n  ...while setting properties for Main"
        ++ "\n  ...while updating data bindings"] := by
  decide +kernel

/-- Five of the orders fail, and the listener has kept five reports. -/
theorem heard_once_unlucky : reportsIn (Order.play unlucky newShop).2.world.journal =
      ["line 1: Unrecognized plain text 'stray'. Add ':' to the end to make a declaration"
        ++ "\n  ...while parsing a\n  ...while building definition",
      "resource 'sheets/b' not available: no such file",
      "unknown view: Unknown view C in view hierarchy",
      "line 4: Expected number but saw '#\x7bx\x7d'\n  ...while setting properties for Main",
      "line 4: Expected number but saw 'wide'\n  ...while setting properties for Main"
        ++ "\n  ...while updating data bindings"] ∧
    ∀ deal ∈ (Order.play unlucky newShop).1, ∃ own, deal.HeardOnce .memory own ∧
      reportsIn own = [] := by
  obtain ⟨hstart, hreports⟩ := unlucky_computed
  obtain ⟨hall, hkept⟩ := heard_once (Dealings.play unlucky newShop) rfl rfl rfl
  refine ⟨?_, fun deal hdeal => ?_⟩
  · rw [hkept rfl Catalogue.mute_stock, hstart, hreports, List.nil_append]
  · obtain ⟨own, hheard, hmute⟩ := hall deal hdeal
    exact ⟨own, hheard, hmute Catalogue.mute_stock⟩

end ViewSheet
