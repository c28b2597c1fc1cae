/-
  Classes of views: how a view is seen as one class of its chain.

  A `ViewClass` has a name, perhaps a superclass, a view to start from, and a pair of functions that
  look at the part of a view that belongs to the class and put a changed part back.
-/
import ViewSheet.View.Basic

namespace ViewSheet

/-- A class of views whose part of a view is of type `V`. -/
structure ViewClass (V : Type) where
  name : String
  superclass : Option String
  blank : View
  get? : View → Option V
  set : View → V → View

namespace ViewClass

/-- A class whose part is found in the view of a stock class that a view is, or embeds. -/
def ofCore {V : Type} (name : String) (superclass : Option String) (blank : StockView)
    (get? : StockView → Option V) (set : StockView → V → StockView) : ViewClass V where
  name := name
  superclass := superclass
  blank := .stock blank
  get? v := get? v.core
  set v part := v.withCore (set v.core part)

section
variable {V : Type} (name : String) (superclass : Option String) (blank : StockView)
  (get? : StockView → Option V) (set : StockView → V → StockView)

@[simp] theorem get?_ofCore (v : View) :
    (ofCore name superclass blank get? set).get? v = get? v.core := rfl

@[simp] theorem set_ofCore (v : View) (part : V) :
    (ofCore name superclass blank get? set).set v part = v.withCore (set v.core part) := rfl

end

/-! ## The stock classes -/

/-- The base of all views. -/
def container : ViewClass Container :=
  .ofCore "Container" none (.container {}) (fun v => some v.base) StockView.withBase

/-- Views that a user can act on. -/
def control : ViewClass Control :=
  .ofCore "Control" (some "Container") (.control {})
    (fun
      | .control c => some c
      | .textField t => some t.control
      | _ => none)
    (fun v c => match v with
      | .control _ => .control c
      | .textField t => .textField { t with control := c }
      | other => other)

/-- Texts to read. -/
def label : ViewClass Label :=
  .ofCore "Label" (some "Container") (.label {})
    (fun
      | .label l => some l
      | .button b => some b.label
      | _ => none)
    (fun v l => match v with
      | .label _ => .label l
      | .button b => .button { b with label := l }
      | other => other)

/-- Labels to press. -/
def button : ViewClass Button :=
  .ofCore "Button" (some "Label") (.button {})
    (fun
      | .button b => some b
      | _ => none)
    (fun v b => match v with
      | .button _ => .button b
      | other => other)

/-- Views in a line. -/
def stack : ViewClass Stack :=
  .ofCore "Stack" (some "Container") (.stack {})
    (fun
      | .stack s => some s
      | _ => none)
    (fun v s => match v with
      | .stack _ => .stack s
      | other => other)

/-- Texts to edit. -/
def textField : ViewClass TextField :=
  .ofCore "TextField" (some "Control") (.textField {})
    (fun
      | .textField t => some t
      | _ => none)
    (fun v t => match v with
      | .textField _ => .textField t
      | other => other)

/-! ## Classes of the host -/

/-- A class of the host, with the view of a stock class that a new view of it embeds, and with the
    fields that it has. -/
def host (name : String) (superclass : Option String) (core : StockView)
    (fields : NameMap Value) : ViewClass HostView where
  name := name
  superclass := superclass
  blank := .host { className := name, core, fields }
  get?
    | .host h => if h.className = name then some h else none
    | _ => none
  set v h := match v with
    | .host _ => .host h
    | other => other

end ViewClass

end ViewSheet
