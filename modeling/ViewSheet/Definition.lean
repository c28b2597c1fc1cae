/-
  Definitions: a document with the catalogue that its properties are looked up in.

  1. **Program**: a `Workshop` makes definitions from texts, bytes or files.  Both a workshop and
     the definitions that it makes pass every error they return to their listener, once.

  2. **Files**: reading a file is left to the caller, who hands in what came of it; the document is
     named after the last part of the path.
-/
import ViewSheet.Catalogue.Stock
import ViewSheet.Sheet.Block
import ViewSheet.Text.Quoted
import ViewSheet.Text.Utf8

namespace ViewSheet

open Text

/-! ## Definitions -/

/-- Where errors are reported: to the log, or to a list kept for the host. -/
inductive Listener where
  | log
  | memory
deriving DecidableEq, Repr

namespace Listener

/-- What reporting an error causes. -/
def hear (e : Error) : Listener → Event
  | log => .log .error e.report
  | memory => .report e.report

end Listener

/-- What reporting an error causes, if anyone listens. -/
def reportTo (listener : Option Listener) (e : Error) : List Event :=
  match listener with
  | some l => [l.hear e]
  | none => []

/-- A document, the classes and setters for it, and a listener. -/
structure Definition where
  document : Document
  catalogue : Catalogue
  listener : Option Listener

namespace Definition

/-- Parses a source.  Nobody listens to the definition. -/
def compile (catalogue : Catalogue) (source identifier : String) :
    List Event × Except Error Definition :=
  let (events, result) := parse source identifier
  (events, result.map fun document => ⟨document, catalogue, none⟩)

/-- Sets a property of a declaration. -/
def setProperty (d : Definition) (name key value : String) (line : Nat) :
    List Event × Definition :=
  let (events, document) := d.document.amend name fun decl => decl.setProperty key value line
  (events, { d with document })

/-- The definition with its parts by name. -/
def debugText (d : Definition) : String :=
  "Definition \x7b identifier: " ++ quoted d.document.identifier
    ++ ", declarations: " ++ quotedList d.document.names
    ++ ", listener: " ++ toString d.listener.isSome ++ " \x7d"

end Definition

/-! ## Paths and files -/

/-- What came of reading a file. -/
inductive FileContent where
  | bytes (content : List UInt8)
  | missing
  | unreadable (why : String)
deriving DecidableEq, Repr

/-- The last part of a path, if that is a name.  Empty parts and single points at the end do not
    count. -/
def fileName? (path : String) : Option String :=
  let parts := (pieces '/' path.toList).reverse.dropWhile fun p => p = [] ∨ p = ['.']
  match parts with
  | [] => none
  | p :: _ => if p = ['.', '.'] then none else some (String.ofList p)

/-! ## Workshops -/

/-- Makes definitions that share a catalogue and a listener. -/
structure Workshop where
  catalogue : Catalogue
  listener : Option Listener

namespace Workshop

/-- The stock classes; errors are logged. -/
def stock : Workshop := ⟨.stock, some .log⟩

/-- Makes a definition from a text, without reporting. -/
def compile (w : Workshop) (source identifier : String) : List Event × Except Error Definition :=
  match parse source identifier with
  | (events, .error e) => (events, .error (e.during "while building definition"))
  | (events, .ok document) => (events, .ok ⟨document, w.catalogue, w.listener⟩)

/-- Makes a definition from bytes, without reporting. -/
def compileBytes (w : Workshop) (bytes : List UInt8) (identifier : String) :
    List Event × Except Error Definition :=
  match decodeUtf8 bytes with
  | .error fault => ([], .error (.of (.invalidEncoding
      s!"{identifier} is not valid UTF-8 ({fault.message})")))
  | .ok cs => w.compile (String.ofList cs) identifier

/-- Passes an error on to the listener. -/
def reporting (w : Workshop) {α : Type} (outcome : List Event × Except Error α) :
    List Event × Except Error α :=
  match outcome with
  | (events, .error e) => (events ++ reportTo w.listener e, .error e)
  | ok => ok

/-- Makes a definition from a text. -/
def build (w : Workshop) (source identifier : String) : List Event × Except Error Definition :=
  w.reporting (w.compile source identifier)

/-- Makes a definition from bytes. -/
def buildBytes (w : Workshop) (bytes : List UInt8) (identifier : String) :
    List Event × Except Error Definition :=
  w.reporting (w.compileBytes bytes identifier)

/-- Makes a definition from the file at a path, of which `content` was read. -/
def buildFile (w : Workshop) (path : String) (content : FileContent) :
    List Event × Except Error Definition :=
  match content with
  | .bytes bytes => w.buildBytes bytes ((fileName? path).getD path)
  | .missing => w.reporting ([], .error (.of (.resourceNotAvailable path "no such file")))
  | .unreadable why => w.reporting ([], .error (.of (.resourceNotAvailable path why)))

end Workshop

end ViewSheet
