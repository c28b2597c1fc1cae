/-
  Views: what a sheet builds and configures.

  Every class of view embeds a view of its superclass: a button holds a label, which holds a
  container.  `View` is of one of the stock classes or of a class of the host, which embeds a view
  of a stock class (`core`) and has fields of its own.  `isA` says as which classes a view can be
  seen: its own, and those it embeds.
-/
import ViewSheet.NameMap
import ViewSheet.Value

namespace ViewSheet

/-- The identity of a view.  Two views of equal state are still two. -/
structure ViewId where
  index : Nat
deriving DecidableEq, Repr

/-! ## The stock classes -/

/-- The base of all views: a frame, the appearance that all share, and the views attached to it. -/
structure Container where
  frame : Rect := .zero
  padding : Edges := .zero
  background : Option Color := none
  tint : Option Color := none
  borderColor : Option Color := none
  borderWidth : Single := .zero
  cornerRadius : Single := .zero
  alpha : Single := .one
  hidden : Bool := false
  clipsToBounds : Bool := false
  interactive : Bool := true
  subviews : List ViewId := []
deriving DecidableEq, Repr

/-- What views share that a user can act on. -/
structure Control where
  base : Container := {}
  enabled : Bool := true
  selected : Bool := false
deriving DecidableEq, Repr

/-- A text to read.  A number of lines of 0 means that there is no limit. -/
structure Label where
  base : Container := {}
  text : String := ""
  font : Font := .standard
  textColor : Color := .black
  alignment : TextAlignment := .natural
  numberOfLines : Int := 1
deriving DecidableEq, Repr

/-- A label with titles and colours for its states.  The label shows the title of the normal
    state. -/
structure Button where
  label : Label := {}
  title : String := ""
  highlightTitle : Option String := none
  highlightTextColor : Option Color := none
  highlightBackground : Option Color := none
  contentInsets : Edges := .zero
  underline : Bool := false
deriving DecidableEq, Repr

/-- A container that lines its views up.  Where they go is left to the host. -/
structure Stack where
  base : Container := {}
  direction : StackDirection := .vertical
  alignment : StackAlignment := .both
  spacing : Single := .zero
  contentInset : Edges := .zero
deriving DecidableEq, Repr

/-- One line of text to edit.  The accessory is the name of the view above the keyboard. -/
structure TextField where
  control : Control := {}
  text : String := ""
  placeholder : String := ""
  font : Font := .standard
  textColor : Color := .black
  alignment : TextAlignment := .natural
  secure : Bool := false
  clearsOnBeginEditing : Bool := false
  accessory : Option String := none
deriving DecidableEq, Repr

/-- A view of one of the stock classes. -/
inductive StockView where
  | container (c : Container)
  | control (c : Control)
  | label (l : Label)
  | button (b : Button)
  | stack (s : Stack)
  | textField (t : TextField)
deriving DecidableEq, Repr

namespace StockView

/-- The class of the view itself. -/
def className : StockView → String
  | container _ => "Container"
  | control _ => "Control"
  | label _ => "Label"
  | button _ => "Button"
  | stack _ => "Stack"
  | textField _ => "TextField"

/-- The classes that the view embeds, itself first. -/
def embedded : StockView → List String
  | container _ => ["Container"]
  | control _ => ["Control", "Container"]
  | label _ => ["Label", "Container"]
  | button _ => ["Button", "Label", "Container"]
  | stack _ => ["Stack", "Container"]
  | textField _ => ["TextField", "Control", "Container"]

/-- The container in the view. -/
def base : StockView → Container
  | container c => c
  | control c => c.base
  | label l => l.base
  | button b => b.label.base
  | stack s => s.base
  | textField t => t.control.base

/-- Changes the container in the view. -/
def withBase (v : StockView) (base : Container) : StockView :=
  match v with
  | container _ => container base
  | control c => control { c with base }
  | label l => label { l with base }
  | button b => button { b with label := { b.label with base } }
  | stack s => stack { s with base }
  | textField t => textField { t with control := { t.control with base } }

@[simp] theorem base_withBase (v : StockView) (base : Container) :
    (v.withBase base).base = base := by
  cases v <;> rfl

@[simp] theorem withBase_base (v : StockView) : v.withBase v.base = v := by
  cases v <;> rfl

@[simp] theorem className_withBase (v : StockView) (base : Container) :
    (v.withBase base).className = v.className := by
  cases v <;> rfl

end StockView

/-! ## Views of any class -/

/-- A view of a class that the host brings along.  It embeds a view of a stock class. -/
structure HostView where
  className : String
  core : StockView := .container {}
  fields : NameMap Value := .empty
deriving DecidableEq, Repr

/-- A view. -/
inductive View where
  | stock (v : StockView)
  | host (h : HostView)
deriving DecidableEq, Repr

namespace View

/-- The class of the view itself. -/
def className : View → String
  | stock v => v.className
  | host h => h.className

/-- The view of a stock class that the view is, or embeds. -/
def core : View → StockView
  | stock v => v
  | host h => h.core

/-- Changes the view of a stock class that the view is, or embeds. -/
def withCore (v : View) (core : StockView) : View :=
  match v with
  | stock _ => stock core
  | host h => host { h with core }

/-- The classes that the view embeds, itself first. -/
def embedded : View → List String
  | stock v => v.embedded
  | host h => h.className :: h.core.embedded

/-- Whether the view can be seen as this class. -/
def isA (v : View) (className : String) : Bool := v.embedded.contains className

/-- The container in the view. -/
def base (v : View) : Container := v.core.base

/-- Changes the container in the view. -/
def withBase (v : View) (base : Container) : View := v.withCore (v.core.withBase base)

/-- The views attached to the view, in the order in which they were attached. -/
def subviews (v : View) : List ViewId := v.base.subviews

/-- Attaches one more view. -/
def addSubview (v : View) (child : ViewId) : View :=
  v.withBase { v.base with subviews := v.base.subviews ++ [child] }

/-! ## What is embedded is there and can be exchanged -/

@[simp] theorem core_stock (v : StockView) : (stock v).core = v := rfl

@[simp] theorem core_host (h : HostView) : (host h).core = h.core := rfl

@[simp] theorem withCore_stock (v core : StockView) : (stock v).withCore core = stock core := rfl

@[simp] theorem withCore_host (h : HostView) (core : StockView) :
    (host h).withCore core = host { h with core } := rfl

@[simp] theorem core_withCore (v : View) (core : StockView) : (v.withCore core).core = core := by
  cases v <;> rfl

@[simp] theorem withCore_core (v : View) : v.withCore v.core = v := by
  cases v <;> rfl

@[simp] theorem withCore_withCore (v : View) (core core' : StockView) :
    (v.withCore core).withCore core' = v.withCore core' := by
  cases v <;> rfl

/-- The class of a view is that of its core or that of the host. -/
theorem className_withCore {v : View} {core : StockView} (h : core.className = v.core.className) :
    (v.withCore core).className = v.className := by
  cases v with
  | stock _ => exact h
  | host _ => rfl

@[simp] theorem base_withBase (v : View) (base : Container) : (v.withBase base).base = base := by
  simp [View.base, withBase]

@[simp] theorem withBase_base (v : View) : v.withBase v.base = v := by
  simp [base, withBase]

@[simp] theorem className_withBase (v : View) (base : Container) :
    (v.withBase base).className = v.className :=
  className_withCore (v.core.className_withBase base)

@[simp] theorem subviews_addSubview (v : View) (child : ViewId) :
    (v.addSubview child).subviews = v.subviews ++ [child] := by
  simp [subviews, addSubview]

@[simp] theorem className_addSubview (v : View) (child : ViewId) :
    (v.addSubview child).className = v.className := by
  simp [addSubview]

end View

end ViewSheet
