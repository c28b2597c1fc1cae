/-
  Bodies: what the lines under a header say.

  1. **Program**: the first line decides.  If it starts with a point, the body is a list of property
     setters, `.key = value`, where a line without a point goes on with the value above it.
     Otherwise it is a hierarchy, one view name a line, and a node's parent is the nearest line
     above it that is indented less.  `Body.read` reads one of the two, or blames the first line
     that fits neither.

  2. **Order of effects**: a body is read as a whole before anything is stated with it, so a
     malformed body states nothing.  Warnings about repeated view names come while it is read.
-/
import ViewSheet.Error
import ViewSheet.Sheet.Document
import ViewSheet.Text.Alphanumeric
import ViewSheet.Text.Lines

namespace ViewSheet

open Text

/-! ## Property setters -/

/-- A property that a body sets.  The value is gathered line by line and trimmed when it is
    stored. -/
structure Assignment where
  key : String
  value : List Char
  line : Nat
deriving DecidableEq, Repr

namespace Assignment

/-- Whether a line states a new property. -/
def opens (l : Line) : Bool := (trimStart l.text).head? == some '.'

/-- The complaint about a line that states no property where one is due. -/
def expected (l : Line) : Error :=
  .unrecognized
    s!"Expected a property setter statement, saw '{String.ofList (trim l.text)}'" l.number

/-- Reads `.key = value`: a point, letters and numbers, an equals sign, and the rest. -/
def read (l : Line) : Except Error Assignment :=
  match stripStart? ['.'] (trimStart l.text) with
  | none => .error (expected l)
  | some afterPoint =>
    let key := (trimStart afterPoint).takeWhile isAlphanumeric
    let afterKey := (trimStart afterPoint).dropWhile isAlphanumeric
    if key.isEmpty then .error (expected l)
    else match stripStart? ['='] (trimStart afterKey) with
      | none => .error (expected l)
      | some value => .ok ⟨String.ofList key, trim value, l.number⟩

/-- Goes on with the value on a new line. -/
def continueWith (a : Assignment) (l : Line) : Assignment :=
  { a with value := a.value ++ '\n' :: trim l.text }

/-- The assignments of a body, `pending` being the one that the next line may go on with. -/
def readAll : Option Assignment → List Line → Except Error (List Assignment)
  | pending, [] => .ok pending.toList
  | pending, l :: rest =>
    if opens l then
      match read l with
      | .error e => .error e
      | .ok a => (readAll (some a) rest).map (pending.toList ++ ·)
    else match pending with
      | some a => readAll (some (a.continueWith l)) rest
      | none => .error (expected l)

/-- Stores the value. -/
def apply (d : Declaration) (a : Assignment) : List Event × Declaration :=
  d.setProperty a.key (String.ofList (trim a.value)) a.line

/-- Stores values one after the other. -/
def applyAll : Declaration → List Assignment → List Event × Declaration
  | d, [] => ([], d)
  | d, a :: rest =>
    let (events, d') := a.apply d
    let (more, final) := applyAll d' rest
    (events ++ more, final)

end Assignment

/-! ## Hierarchies -/

/-- A hierarchy while it is read: the nodes so far, and the indents and numbers of those that a
    further line may still hang from, innermost first. -/
structure Growth where
  hierarchy : Hierarchy
  openNodes : List (Nat × Nat)
deriving DecidableEq, Repr

namespace Growth

/-- Nothing read yet. -/
def start : Growth := ⟨.empty, []⟩

/-- Hangs a name from the nearest open node that is indented less. -/
def place (g : Growth) (name : String) (indent : Nat) : Growth :=
  let parents := g.openNodes.dropWhile fun (parentIndent, _) => indent ≤ parentIndent
  let parent := match parents with
    | [] => 0
    | (_, p) :: _ => p
  ⟨g.hierarchy.add parent name indent, (indent, g.hierarchy.size) :: parents⟩

/-- Reads one view name a line. -/
def readAll : Growth → List Line → List Event × Except Error Hierarchy
  | g, [] => ([], .ok g.hierarchy)
  | g, l :: rest =>
    let chars := trim l.text
    let name := String.ofList chars
    if chars.isEmpty then readAll g rest
    else if chars.any isBlank then
      ([], .error (.unrecognized s!"Expected a single view name, saw '{name}'" l.number))
    else
      let warnings :=
        if g.hierarchy.mentions name then
          [Event.warning (s!"view name '{name}' on line {l.number} already appears in this "
            ++ "hierarchy; clobbering")]
        else []
      let (more, result) := readAll (g.place name (indentOf l.text)) rest
      (warnings ++ more, result)

end Growth

/-! ## Either shape -/

/-- What a body says. -/
inductive Body where
  | setters (assignments : List Assignment)
  | hierarchy (h : Hierarchy)
deriving DecidableEq, Repr

namespace Body

/-- Reads the lines of a body in the shape that its first line shows. -/
def read (lines : List Line) : List Event × Except Error Body :=
  let isSetters := match lines with
    | [] => false
    | first :: _ => Assignment.opens first
  if isSetters then ([], (Assignment.readAll none lines).map .setters)
  else
    let (events, result) := Growth.start.readAll lines
    (events, result.map .hierarchy)

/-- States in a declaration what the body says. -/
def apply (d : Declaration) : Body → List Event × Declaration
  | setters assignments => Assignment.applyAll d assignments
  | hierarchy h => d.setHierarchy h

end Body

end ViewSheet
