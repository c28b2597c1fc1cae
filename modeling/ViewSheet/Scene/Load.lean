/-
  Loading: building the views of a hierarchy.

  1. **Program**: `load` goes through the names of the hierarchy, level by level, and builds one
     view for each name that has none yet and is not a name of the root.  The class is the declared
     one if it is registered, and the base class otherwise.  A class that does not descend from the
     base class, or that is abstract, is refused with a log line; the name then stays without a
     view, and loading goes on.  Then the properties are handed over for the first time.

  2. **Initial views**: a host can hand in views for some of the names.  For the names of the root
     such views count for nothing.
-/
import ViewSheet.Scene.Configure

namespace ViewSheet

namespace Scene

/-! ## Building -/

/-- The class to build for a name, and a warning if it is not the declared one. -/
def classFor (s : Scene) (name : String) : List Event × String :=
  match (s.definition.document.get? name).bind (·.className?) with
  | none => ([], Catalogue.baseClass)
  | some declared =>
    if s.definition.catalogue.hasClass declared then ([], declared)
    else ([.warning (s!"unable to use class '{declared}' for view '{name}'; "
      ++ s!"using {Catalogue.baseClass}")], Catalogue.baseClass)

/-- Builds the view for a name, unless the class is refused. -/
def buildAs (s : Scene) (name className : String) (w : World) : Scene × World :=
  let (events, descends) := s.definition.catalogue.isSubclass className Catalogue.baseClass
  let w := w.tell events
  if !descends then
    (s, w.tell [.log .error (s!"only classes descending from {Catalogue.baseClass} can be built; "
      ++ s!"refusing to build '{name}' as {className}")])
  else match s.definition.catalogue.instantiate? className with
    | none => (s, w.tell [.log .error
        s!"class {className} cannot be instantiated; refusing to build '{name}'"])
    | some v => ({ s with bindings := s.bindings.insert name (some w.store.fresh) }, w.addView v)

/-- Builds the view for a name, unless it has one or names the root. -/
def buildName (s : Scene) (name : String) (w : World) : Scene × World :=
  if s.isRootName name then
    (s, w.tell [.warning s!"'{name}' names the root of '{s.root}'; not building it as a child"])
  else match s.bound? name with
    | some _ => (s, w)
    | none =>
      let (events, className) := s.classFor name
      s.buildAs name className (w.tell events)

/-- Builds the views for names, one after the other. -/
def buildNames : List String → Scene → World → Scene × World
  | [], s, w => (s, w)
  | name :: rest, s, w =>
    let (s', w') := s.buildName name w
    buildNames rest s' w'

/-! ## Loading -/

/-- The names that are bound before any view is built: those with initial views, and those of the
    root, which wait for a container. -/
def initialBindings (root : String) (views : List (String × ViewId)) : ViewBindings :=
  ((NameMap.ofList (views.map fun (name, id) => (name, some id))).insert rootName none).insert
    root none

/-- Loads a hierarchy, with views for some of the names.  Errors are not reported. -/
def load (d : Definition) (root : String) (data : DataBindings) (views : List (String × ViewId))
    (w : World) : Except Error Scene × World :=
  match (d.document.get? root).bind (·.hierarchy) with
  | none => (.error (.of (.unknownHierarchy
      s!"Attempt to load unknown view hierarchy: {root}")), w)
  | some hierarchy =>
    let bare : Scene := ⟨d, root, hierarchy, data, initialBindings root views, .viewsConstructed⟩
    let (s, w) := buildNames bare.nodeNames bare w
    match s.applyAll .construction w with
    | (.error e, w) => (.error (e.during "while building views"), w)
    | (.ok (), w) => (.ok s, w)

end Scene

namespace Definition

/-- Passes an error on to the listener. -/
def reporting (d : Definition) {α : Type} (outcome : Except Error α × World) :
    Except Error α × World :=
  match outcome with
  | (.error e, w) => (.error e, w.tell (reportTo d.listener e))
  | ok => ok

/-- Loads a hierarchy with data bound from the start. -/
def loadTemplated (d : Definition) (root : String) (data : DataBindings) (w : World) :
    Except Error Scene × World :=
  d.reporting (Scene.load d root data [] w)

/-- Loads a hierarchy. -/
def load (d : Definition) (root : String) (w : World) : Except Error Scene × World :=
  d.loadTemplated root .empty w

end Definition

end ViewSheet
