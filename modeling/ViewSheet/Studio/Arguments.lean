/-
  Arguments: what the command line says.

  1. **Program**: arguments are read from left to right.  A word after two dashes is an option by
     its long name, with its value after an equals sign or in the next argument; a letter after one
     dash is an option by its short name, with its value right behind it, perhaps after an equals
     sign, or in the next argument.  Two dashes alone end the options.  Every other argument is the
     input, of which there is one.  The next argument counts as a value only if it is no option
     itself.

  2. **Which fault is told**: a value is checked when the next option or the input comes, or at the
     end.  So a faulty value is told before a missing one behind it, but an argument that nobody
     knows is told first, whatever the value in front of it.

  3. **How it is told**: what the user typed is emphasised, and then all control sequences are
     taken out, those that mark the emphasis and those that the user typed.
-/
import ViewSheet.Text.Lines
import ViewSheet.Text.Visible

namespace ViewSheet.Studio

open Text

/-! ## Data bindings -/

/-- Reads a key and a text with an equals sign between them.  The text may hold further ones. -/
def parseBinding (s : String) : Except String (String × String) :=
  match cutAt? ['='] s.toList with
  | none => .error s!"expected KEY=VALUE, got '{s}'"
  | some (key, value) =>
    if (trim key).isEmpty then .error s!"empty key in '{s}'"
    else .ok (String.ofList (trim key), String.ofList value)

/-! ## Options and faults -/

/-- An option with a value. -/
inductive ValueOption where
  | hierarchy
  | bind
  | rebind
  | logLevel
deriving DecidableEq, Repr

namespace ValueOption

/-- The option with what it takes. -/
def shown : ValueOption → String
  | hierarchy => "--hierarchy <HIERARCHY>"
  | bind => "--bind <KEY=VALUE>"
  | rebind => "--rebind <KEY=VALUE>"
  | logLevel => "--log-level <LOG_LEVEL>"

/-- The option with a long name. -/
def ofLong? (name : String) : Option ValueOption :=
  if name = "hierarchy" then some hierarchy
  else if name = "bind" then some bind
  else if name = "rebind" then some rebind
  else if name = "log-level" then some logLevel
  else none

/-- The option with a short name. -/
def ofShort? (name : Char) : Option ValueOption :=
  if name = 'H' then some hierarchy
  else if name = 'b' then some bind
  else if name = 'r' then some rebind
  else none

end ValueOption

/-- Why no arguments come of a command line. -/
inductive Stop where
  /-- The version is asked for. -/
  | version
  /-- Help is asked for. -/
  | help
  | unknownArgument (argument : String)
  | missingValue (option : String)
  | surplusValue (value option : String)
  | invalidValue (value option why : String)
  | repeated (option : String)
  | missingInput
deriving DecidableEq, Repr

namespace Stop

/-- A text between the control sequences that begin and end emphasis.  They also end whatever
    sequence the text leaves open. -/
def emphasised (s : String) : String := "\x1b[1m" ++ s ++ "\x1b[0m"

/-- What the user is told first. -/
def message : Stop → String
  | version => "stage-studio 0.1.0"
  | help => "Compile a stage definition, realize one hierarchy, and print the tree"
  | unknownArgument argument => s!"error: unexpected argument '{emphasised argument}' found"
  | missingValue option => s!"error: a value is required for '{option}' but none was supplied"
  | surplusValue value option =>
    s!"error: unexpected value '{emphasised value}' for '{option}' found; no more were expected"
  | invalidValue value option why =>
    s!"error: invalid value '{emphasised value}' for '{option}': {why}"
  | repeated option => s!"error: the argument '{option}' cannot be used multiple times"
  | missingInput => "error: the following required arguments were not provided:\n  <INPUT>"

/-- Whether the user asked for what is told. -/
def isAnswer : Stop → Bool
  | version => true
  | help => true
  | _ => false

/-- What follows the message. -/
def advice (s : Stop) : String :=
  if s.isAnswer then "\n"
  else "\n\nFor more information, try '" ++ emphasised "--help" ++ "'.\n"

/-- All that is told, with the emphasis. -/
def styled (s : Stop) : String := s.message ++ s.advice

/-- The first line that is left to see. -/
def firstLine (s : Stop) : String :=
  String.ofList ((fedLines (visible s.styled.toList)).headD [])

end Stop

/-! ## Reading -/

/-- What the command line says. -/
structure Arguments where
  input : String
  hierarchy : String
  bindings : List (String × String)
  rebindings : List (String × String)
  logLevel : String
deriving DecidableEq, Repr

/-- A value that has been seen but not checked, or is still to come. -/
inductive Pending where
  | nothing
  | awaiting (option : ValueOption)
  | value (option : ValueOption) (text : String)
  | input (text : String)
deriving DecidableEq, Repr

/-- What is known in the middle of a command line. -/
structure Progress where
  pending : Pending := .nothing
  inputSeen : Bool := false
  optionsEnded : Bool := false
  input : Option String := none
  hierarchy : Option String := none
  logLevel : Option String := none
  bindings : List (String × String) := []
  rebindings : List (String × String) := []
deriving DecidableEq, Repr

namespace Progress

/-- Reads a binding given to an option. -/
def bindingFor (option : ValueOption) (text : String) : Except Stop (String × String) :=
  match parseBinding text with
  | .ok binding => .ok binding
  | .error why => .error (.invalidValue text option.shown why)

/-- Takes the value of an option. -/
def accept (p : Progress) (option : ValueOption) (text : String) : Except Stop Progress :=
  match option with
  | .hierarchy =>
    if p.hierarchy.isSome then .error (.repeated option.shown)
    else .ok { p with hierarchy := some text }
  | .logLevel =>
    if p.logLevel.isSome then .error (.repeated option.shown)
    else .ok { p with logLevel := some text }
  | .bind => (bindingFor option text).map fun b => { p with bindings := p.bindings ++ [b] }
  | .rebind => (bindingFor option text).map fun b => { p with rebindings := p.rebindings ++ [b] }

/-- Checks what is pending. -/
def settle (p : Progress) : Except Stop Progress :=
  let p' := { p with pending := .nothing }
  match p.pending with
  | .nothing => .ok p'
  | .awaiting option => .error (.missingValue option.shown)
  | .value option text => p'.accept option text
  | .input text =>
    if text.isEmpty then .error (.missingValue "<INPUT>") else .ok { p' with input := some text }

/-- Starts an option, with its value if that is attached to it. -/
def startOption (p : Progress) (option : ValueOption) (attached : Option String) :
    Except Stop Progress :=
  match p.settle with
  | .error stop => .error stop
  | .ok p => match attached with
    | some text => p.accept option text
    | none => .ok { p with pending := .awaiting option }

/-- Stops for something that the user asks for, if nothing before it is at fault. -/
def answer (p : Progress) (what : Stop) : Except Stop Progress :=
  match p.settle with
  | .error stop => .error stop
  | .ok _ => .error what

/-- Takes the input. -/
def positional (p : Progress) (text : String) : Except Stop Progress :=
  if p.inputSeen then .error (.unknownArgument text)
  else p.settle.map fun p => { p with pending := .input text, inputSeen := true }

/-- An argument that is no option: the value that is waited for, or the input. -/
def plain (p : Progress) (text : String) : Except Stop Progress :=
  match p.pending with
  | .awaiting option => .ok { p with pending := .value option text }
  | _ => p.positional text

/-- Asks for help or the version, which take no value. -/
def flag (p : Progress) (name : String) (what : Stop) (attached : Option String) :
    Except Stop Progress :=
  match attached with
  | some text => .error (.surplusValue text ("--" ++ name))
  | none => p.answer what

/-- An argument after two dashes. -/
def long (p : Progress) (body : List Char) : Except Stop Progress :=
  let (name, attached) := match cutAt? ['='] body with
    | some (name, value) => (String.ofList name, some (String.ofList value))
    | none => (String.ofList body, none)
  match ValueOption.ofLong? name with
  | some option => p.startOption option attached
  | none =>
    if name = "version" then p.flag name .version attached
    else if name = "help" then p.flag name .help attached
    else .error (.unknownArgument ("--" ++ name))

/-- An argument after one dash. -/
def short (p : Progress) (name : Char) (after : List Char) : Except Stop Progress :=
  match ValueOption.ofShort? name with
  | some option =>
    let attached := match after with
      | [] => none
      | '=' :: value => some (String.ofList value)
      | value => some (String.ofList value)
    p.startOption option attached
  | none =>
    if name = 'V' then p.answer .version
    else if name = 'h' then p.answer .help
    else .error (.unknownArgument (String.ofList ['-', name]))

/-- One argument. -/
def step (p : Progress) (argument : String) : Except Stop Progress :=
  if p.optionsEnded then p.positional argument
  else match argument.toList with
    | ['-', '-'] => .ok { p with optionsEnded := true }
    | '-' :: '-' :: body => p.long body
    | '-' :: name :: after => p.short name after
    | _ => p.plain argument

/-- Arguments one after the other. -/
def steps : Progress → List String → Except Stop Progress
  | p, [] => p.settle
  | p, argument :: rest => match p.step argument with
    | .error stop => .error stop
    | .ok p' => steps p' rest

end Progress

/-- Reads the arguments of a command line. -/
def parseArguments (argv : List String) : Except Stop Arguments :=
  match Progress.steps {} argv with
  | .error stop => .error stop
  | .ok p => match p.input with
    | none => .error .missingInput
    | some input => .ok ⟨input, p.hierarchy.getD "Main", p.bindings, p.rebindings,
        p.logLevel.getD "info"⟩

end ViewSheet.Studio
