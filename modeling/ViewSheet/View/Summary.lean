/-
  Summaries: the state of a view on one line.

  A summary gives the frame and then what differs from a plain view, in a fixed order.  Texts are
  quoted, numbers are written with the fewest digits.  The text of a secure field shows as one
  bullet for each character.
-/
import ViewSheet.Text.Quoted
import ViewSheet.View.Basic

namespace ViewSheet

open Text

/-- Four numbers between parentheses. -/
def fourNumbers (a b c d : Single) : String := s!"({a.text}, {b.text}, {c.text}, {d.text})"

/-- A part of a summary that is there on a condition. -/
def partIf (present : Bool) (part : String) : List String := if present then [part] else []

/-- A part of a summary that is there with a colour. -/
def colorPart (label : String) : Option Color → List String
  | some c => [label ++ c.hex]
  | none => []

namespace Container

/-- The parts of the summary. -/
def parts (c : Container) : List String :=
  ["frame=" ++ fourNumbers c.frame.origin.x c.frame.origin.y c.frame.size.x c.frame.size.y]
    ++ colorPart "background=" c.background
    ++ colorPart "tint=" c.tint
    ++ colorPart s!"border={c.borderWidth.text} " c.borderColor
    ++ partIf (Binary.zero.lt c.cornerRadius) ("radius=" ++ c.cornerRadius.text)
    ++ partIf (!c.padding.eq .zero)
        ("padding=" ++ fourNumbers c.padding.top c.padding.left c.padding.bottom c.padding.right)
    ++ partIf (c.alpha.lt .one) ("alpha=" ++ c.alpha.text)
    ++ partIf c.hidden "hidden"
    ++ partIf c.clipsToBounds "clips"
    ++ partIf (!c.interactive) "non-interactive"

/-- The state of a container. -/
def summary (c : Container) : String := " ".intercalate c.parts

end Container

namespace Control

/-- The state of a control. -/
def summary (c : Control) : String :=
  " ".intercalate (c.base.parts ++ partIf (!c.enabled) "disabled" ++ partIf c.selected "selected")

end Control

namespace Label

/-- The state of a label. -/
def summary (l : Label) : String :=
  s!"{l.base.summary} text={quoted l.text} font=\"{l.font.text}\" color={l.textColor.hex}"

end Label

namespace Button

/-- The state of a button. -/
def summary (b : Button) : String :=
  let highlight := match b.highlightTitle with
    | some t => ["highlight=" ++ quoted t]
    | none => []
  " ".intercalate
    (b.label.base.parts ++ ["title=" ++ quoted b.title] ++ highlight
      ++ partIf b.underline "underline")

end Button

namespace Stack

/-- The state of a stack. -/
def summary (s : Stack) : String :=
  s!"{s.base.summary} {s.direction.name} spacing={s.spacing.text} align={s.alignment.name}"

end Stack

namespace TextField

/-- The text as it may be seen. -/
def shown (t : TextField) : String :=
  if t.secure then String.ofList (t.text.toList.map fun _ => '•') else t.text

/-- The state of a text field. -/
def summary (t : TextField) : String :=
  let accessory := match t.accessory with
    | some name => " accessory=" ++ name
    | none => ""
  s!"{t.control.summary} text={quoted t.shown} placeholder={quoted t.placeholder}{accessory}"

end TextField

namespace StockView

/-- The state of a view of a stock class. -/
def summary : StockView → String
  | container c => c.summary
  | control c => c.summary
  | label l => l.summary
  | button b => b.summary
  | stack s => s.summary
  | textField t => t.summary

end StockView

namespace View

/-- The state of a view.  Of a view of the host it is that of the container. -/
def summary : View → String
  | stock v => v.summary
  | host h => h.core.base.summary

/-- The class with the state. -/
def debugText (v : View) : String := s!"{v.className}({v.summary})"

end View

end ViewSheet
