/-
  The studio: compiles a file, realizes one of its hierarchies, and prints the tree.

  1. **Program**: `run` is the whole program but for reading the file and writing the output.  It
     builds the definition, loads the hierarchy with the bindings given, hangs it into a container,
     prints it, and prints it once more after the rebindings, if there are any.  The first failure
     ends the run; what was printed before stays.

  2. **Streams**: the log and the complaint at the end go to the same stream.  A log message of
     several lines is indented from its second line on, a complaint's cause throughout.  Control
     sequences are taken out of the log, line by line with the break at its end, but stay in the
     complaint and in what is printed.
-/
import ViewSheet.Studio.Arguments
import ViewSheet.Studio.Tree

namespace ViewSheet.Studio

open Text

/-! ## The log -/

/-- What a log level given on the command line lets through. -/
inductive Threshold where
  | off
  | error
  | warn
  | info
deriving DecidableEq, Repr

namespace Threshold

/-- Reads a level; its case and blanks around it do not matter.  Nothing at all means errors alone.
    Any other text is taken for the name of something else that logs, so that nothing of this
    program is let through. -/
def parse (s : String) : Threshold :=
  let word := (trim s.toList).map Char.toLower
  if word = "error".toList ∨ word = [] then error
  else if word = "warn".toList then warn
  else if ["info".toList, "debug".toList, "trace".toList].contains word then info
  else off

/-- Whether a line of a level is let through. -/
def shows : Threshold → Level → Bool
  | off, _ => false
  | error, level => level = .error
  | warn, level => level ≠ .info
  | info, _ => true

end Threshold

/-- The log lines among events. -/
def logLines : List Event → List (Level × String)
  | [] => []
  | .log level message :: rest => (level, message) :: logLines rest
  | _ :: rest => logLines rest

/-- Every line of a text behind four spaces. -/
def indented (s : String) : String :=
  String.ofList ("    ".toList ++ replaceAll ['\n'] "\n    ".toList s.toList)

/-- A message as it is written behind the header of its log line. -/
def logText (message : String) : String :=
  String.ofList (visibleInStream (replaceAll ['\n'] "\n    ".toList message.toList ++ ['\n']))

/-! ## A run -/

/-- What a run leaves: an exit status, what it printed, what it logged, and a complaint. -/
structure Outcome where
  status : Nat
  stdout : String
  log : List (Level × String)
  complaint : String
deriving DecidableEq, Repr

/-- The complaint about an error: what was being done, and what came of it. -/
def complaintOf (doing : String) (e : Error) : String :=
  s!"Error: {doing}\n\nCaused by:\n" ++ indented e.report ++ "\n"

namespace Outcome

/-- The end of a run in success: what it printed, and what it logged as far as that is let
    through. -/
def success (printed : String) (w : World) (threshold : Threshold) : Outcome :=
  ⟨0, printed, (logLines w.journal).filter (threshold.shows ·.1), ""⟩

/-- The end of a run in failure. -/
def failure (printed : String) (w : World) (threshold : Threshold) (doing : String) (e : Error) :
    Outcome :=
  { success printed w threshold with status := 1, complaint := complaintOf doing e }

/-- What goes to the standard error: the log, every line behind its header, and the complaint. -/
def stderr (o : Outcome) (header : Level → String) : String :=
  String.join (o.log.map fun (level, message) => header level ++ logText message) ++ o.complaint

end Outcome

/-- Says what was compiled. -/
def compiledMessage (d : Definition) : String :=
  s!"compiled {d.document.size} declaration(s); hierarchies: "
    ++ ", ".intercalate d.document.hierarchyNames

/-- Changes the bindings of an attached scene, and prints it again. -/
def runRebindings (a : Arguments) (threshold : Threshold) (s : Scene) (w : World) : Outcome :=
  let printed := tree s w
  if a.rebindings.isEmpty then Outcome.success printed w threshold
  else
    let change := fun (d : DataBindings) => a.rebindings.foldl (fun d (k, v) => d.set k v) d
    match s.update change w with
    | (.error e, _, w) => Outcome.failure printed w threshold "applying rebindings" e
    | (.ok (), s, w) => Outcome.success (printed ++ "\n" ++ tree s w) w threshold

/-- Realizes a hierarchy of a definition, and prints it. -/
def runDefinition (a : Arguments) (threshold : Threshold) (d : Definition) (w : World) : Outcome :=
  match d.loadTemplated a.hierarchy (.ofList a.bindings) w with
  | (.error e, w) => Outcome.failure "" w threshold s!"loading '{a.hierarchy}'" e
  | (.ok s, w) =>
    let container := w.store.fresh
    match s.attach container (w.addView ViewClass.container.blank) with
    | (.error e, _, w) => Outcome.failure "" w threshold "attaching to the root container" e
    | (.ok (), s, w) => runRebindings a threshold s w

/-- Runs the program on a file of which `content` was read. -/
def runArguments (a : Arguments) (content : FileContent) : Outcome :=
  let threshold := Threshold.parse a.logLevel
  let workshop : Workshop := { Workshop.stock with listener := none }
  let (events, result) := workshop.buildFile a.input content
  let w := World.empty.tell events
  match result with
  | .error e => Outcome.failure "" w threshold s!"compiling {a.input}" e
  | .ok d => runDefinition a threshold d (w.tell [.log .info (compiledMessage d)])

/-- What a command line comes to that holds no arguments to run on. -/
def runStop (s : Stop) : Outcome :=
  let told := String.ofList (visibleInStream s.styled.toList)
  if s.isAnswer then ⟨0, told, [], ""⟩ else ⟨2, "", [], told⟩

/-- Runs the program, with a way to read files. -/
def run (argv : List String) (read : String → FileContent) : Outcome :=
  match parseArguments argv with
  | .error stop => runStop stop
  | .ok a => runArguments a (read a.input)

end ViewSheet.Studio
