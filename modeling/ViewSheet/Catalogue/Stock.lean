/-
  The stock classes: containers, controls, labels, buttons, stacks and text fields, with the
  properties that a sheet can set on them.

  Superclasses are registered first.  A class overrides a property of its superclass by having a
  setter of the same name: a label's text trims the whole text, a text field's trims line by line,
  and a button's also sets the title.
-/
import ViewSheet.Catalogue.Basic

namespace ViewSheet

/-- A property of a class, as it is registered. -/
structure Registration where
  property : String
  scan : Scan Value
  hooks : List Hook

namespace ViewClass

variable {V α : Type}

/-- A property that is set at construction. -/
def property (cls : ViewClass V) (name : String) (kind : Kind α) (change : V → α → V) :
    Registration :=
  ⟨name, kind.scanValue, [cls.onConstruction kind change]⟩

/-- A property that is set once the tree stands. -/
def attachedProperty (cls : ViewClass V) (name : String) (kind : Kind α)
    (change : Surroundings → V → α → List Event × Except Error Unit × V) : Registration :=
  ⟨name, kind.scanValue, [cls.onAttached kind change]⟩

end ViewClass

namespace Catalogue

/-- Registers properties of a class. -/
def registerAll (c : Catalogue) (className : String) (properties : List Registration) : Catalogue :=
  properties.foldl (fun c p => c.register className p.property p.scan p.hooks)
    (c.openTable className)

end Catalogue

/-! ## Containers -/

/-- Takes over the size of the named view.  The view itself, under any name, is passed over. -/
def matchSize (around : Surroundings) (c : Container) (name : String) :
    List Event × Except Error Unit × Container :=
  match around.lookup name with
  | .error e => ([], .error e, c)
  | .ok id => match around.inspect id with
    | some other => ([], .ok (), { c with frame := c.frame.withSize other.base.frame.size })
    | none =>
      ([.warning s!"matchSize: '{name}' is the view being configured; ignoring"], .ok (), c)

/-- The properties of containers. -/
def containerProperties : List Registration :=
  let cls := ViewClass.container
  [ cls.property "alpha" .number fun c v => { c with alpha := v.clamp .zero .one },
    cls.property "opacity" .number fun c v => { c with alpha := v.clamp .zero .one },
    cls.property "backgroundColor" .color fun c v => { c with background := some v },
    cls.property "tintColor" .color fun c v => { c with tint := some v },
    cls.property "borderColor" .color fun c v => { c with borderColor := some v },
    cls.property "borderRadius" .number fun c v => { c with cornerRadius := v.atLeast .zero },
    cls.property "borderWidth" .number fun c v => { c with borderWidth := v.atLeast .zero },
    cls.property "clipsToBounds" .flag fun c v => { c with clipsToBounds := v },
    cls.property "hidden" .flag fun c v => { c with hidden := v },
    cls.property "userInteractionEnabled" .flag fun c v => { c with interactive := v },
    cls.property "frame" .rect fun c v => { c with frame := v },
    cls.property "origin" .point fun c v => { c with frame := { c.frame with origin := v } },
    cls.property "size" .size fun c v => { c with frame := c.frame.withSize v },
    cls.property "padding" .edges fun c v => { c with padding := v },
    cls.attachedProperty "matchSize" .identifier matchSize ]

/-! ## Controls, labels and buttons -/

/-- The properties of controls. -/
def controlProperties : List Registration :=
  let cls := ViewClass.control
  [ cls.property "enabled" .flag fun c v => { c with enabled := v },
    cls.property "selected" .flag fun c v => { c with selected := v } ]

/-- The properties of labels. -/
def labelProperties : List Registration :=
  let cls := ViewClass.label
  [ cls.property "text" .text fun l v => { l with text := v },
    cls.property "font" .font fun l v => { l with font := v },
    cls.property "textColor" .color fun l v => { l with textColor := v },
    cls.property "textAlignment" .textAlignment fun l v => { l with alignment := v },
    cls.property "numberOfLines" .whole fun l v => { l with numberOfLines := max v 0 } ]

/-- Sets the title of the normal state, which the label shows. -/
def Button.withTitle (b : Button) (title : String) : Button :=
  { b with title, label := { b.label with text := title } }

/-- The properties of buttons. -/
def buttonProperties : List Registration :=
  let cls := ViewClass.button
  [ cls.property "text" .text Button.withTitle,
    cls.property "highlightText" .text fun b v => { b with highlightTitle := some v },
    cls.property "highlightTextColor" .color fun b v => { b with highlightTextColor := some v },
    cls.property "highlightBackgroundColor" .color fun b v =>
      { b with highlightBackground := some v },
    cls.property "contentEdgeInsets" .edges fun b v => { b with contentInsets := v },
    cls.property "underlineText" .flag fun b v => { b with underline := v } ]

/-! ## Stacks and text fields -/

/-- The properties of stacks. -/
def stackProperties : List Registration :=
  let cls := ViewClass.stack
  [ cls.property "contentInset" .edges fun s v => { s with contentInset := v },
    cls.property "spacing" .number fun s v => { s with spacing := v.atLeast .zero },
    cls.property "stackingAlignment" .stackAlignment fun s v => { s with alignment := v },
    cls.property "stackingDirection" .stackDirection fun s v => { s with direction := v } ]

/-- Notes the name of the accessory view, if there is such a view. -/
def attachAccessory (around : Surroundings) (t : TextField) (name : String) :
    List Event × Except Error Unit × TextField :=
  match around.lookup name with
  | .ok _ => ([], .ok (), { t with accessory := some name })
  | .error _ =>
    ([.warning s!"inputAccessoryView: no view named '{name}'; leaving it unset"], .ok (), t)

/-- The properties of text fields. -/
def textFieldProperties : List Registration :=
  let cls := ViewClass.textField
  [ cls.property "text" .lines fun t v => { t with text := v },
    cls.property "placeholder" .lines fun t v => { t with placeholder := v },
    cls.property "font" .font fun t v => { t with font := v },
    cls.property "textColor" .color fun t v => { t with textColor := v },
    cls.property "textAlignment" .textAlignment fun t v => { t with alignment := v },
    cls.property "secureTextEntry" .flag fun t v => { t with secure := v },
    cls.property "clearsOnBeginEditing" .flag fun t v => { t with clearsOnBeginEditing := v },
    cls.attachedProperty "inputAccessoryView" .identifier attachAccessory ]

/-! ## All together -/

namespace Catalogue

/-- Adds the stock classes and their properties. -/
def withStock (c : Catalogue) : Catalogue :=
  let c := c.registerAll "Container" containerProperties
  let c := (c.registerAbstract "Control" (some "Container")).registerAll "Control" controlProperties
  let c := (c.registerClass ViewClass.label).registerAll "Label" labelProperties
  let c := (c.registerClass ViewClass.button).registerAll "Button" buttonProperties
  let c := (c.registerClass ViewClass.stack).registerAll "Stack" stackProperties
  (c.registerClass ViewClass.textField).registerAll "TextField" textFieldProperties

/-- The stock classes and nothing else. -/
def stock : Catalogue := empty.withStock

end Catalogue

end ViewSheet
