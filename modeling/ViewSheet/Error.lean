/-
  Errors: what went wrong, and what was being done.

  1. **Fault**: one constructor for each kind of failure, with the line it is blamed on where there
     is one.  `Fault.message` holds all the wording that depends on the kind.

  2. **Error**: a fault with its trail.  Each caller that passes a failure on may add what it was
     doing; the trail runs from the innermost such note outwards, and `report` writes one note a
     line.  Notes never change the fault (`fault_during`).
-/

namespace ViewSheet

/-! ## Faults -/

/-- What went wrong, wherever it was noticed. -/
inductive Fault where
  /-- Source bytes are not a text. -/
  | invalidEncoding (detail : String)
  /-- A view is not of the class asked for. -/
  | invalidViewType (detail : String)
  /-- A file or the like cannot be read. -/
  | resourceNotAvailable (name detail : String)
  /-- No class of the view's chain has a setter for the property. -/
  | unhandledProperty (detail : String) (line : Nat)
  /-- No view goes by the name. -/
  | unknownView (detail : String)
  /-- The declaration asked for owns no hierarchy. -/
  | unknownHierarchy (detail : String)
  /-- A text that makes no sense where it stands. -/
  | unrecognized (detail : String) (line : Nat)
deriving DecidableEq, Repr

namespace Fault

/-- The fault in words. -/
def message : Fault → String
  | invalidEncoding detail => s!"invalid data encoding: {detail}"
  | invalidViewType detail => s!"invalid view type: {detail}"
  | resourceNotAvailable name detail => s!"resource '{name}' not available: {detail}"
  | unhandledProperty detail line => s!"line {line}: {detail}"
  | unknownView detail => s!"unknown view: {detail}"
  | unknownHierarchy detail => s!"unknown view hierarchy: {detail}"
  | unrecognized detail line => s!"line {line}: {detail}"

/-- The source line that is blamed, for the kinds that have one. -/
def line? : Fault → Option Nat
  | unhandledProperty _ line => some line
  | unrecognized _ line => some line
  | _ => none

end Fault

/-! ## Errors with their trail -/

/-- A fault and what was being done, innermost first. -/
structure Error where
  fault : Fault
  trail : List String
deriving DecidableEq, Repr

namespace Error

/-- An error that nobody has passed on yet. -/
def of (fault : Fault) : Error := ⟨fault, []⟩

/-- Text that makes no sense, blamed on a line. -/
def unrecognized (detail : String) (line : Nat) : Error := of (.unrecognized detail line)

/-- Notes what was being done when the error passed by. -/
def during (e : Error) (doing : String) : Error := { e with trail := e.trail ++ [doing] }

/-- The fault in words. -/
def message (e : Error) : String := e.fault.message

/-- The source line that is blamed. -/
def line? (e : Error) : Option Nat := e.fault.line?

/-- The message, and a line for each note of the trail. -/
def report (e : Error) : String :=
  e.message ++ String.join (e.trail.map fun doing => "\n  ..." ++ doing)

@[simp] theorem fault_during (e : Error) (doing : String) : (e.during doing).fault = e.fault := rfl

@[simp] theorem trail_during (e : Error) (doing : String) :
    (e.during doing).trail = e.trail ++ [doing] := rfl

end Error

end ViewSheet
