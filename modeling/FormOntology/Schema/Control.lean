import FormOntology.Text.Blank
import FormOntology.Declaration.Range

/-!
# Controls

The control by which a field is filled in.  A declaration may name it; otherwise it follows from
the number of options, the value range and the identifier.

## Main definitions

* `Control` — the controls.
* `Control.parse` — the control of a name.
* `Control.infer` — the control of a declaration that names none.
-/

namespace FormOntology

/-- The controls. -/
inductive Control where
  /-- A line of text. -/
  | text
  /-- A mail address. -/
  | email
  /-- A telephone number. -/
  | tel
  /-- A calendar date. -/
  | date
  /-- One of a few options, all in view. -/
  | radio
  /-- One of many options, from a list. -/
  | select
  /-- Several lines of text. -/
  | textarea
  deriving DecidableEq, Repr, Inhabited

/-- The name, without the blanks around it, of a control that does not exist. -/
structure UnknownControl where
  /-- The name. -/
  name : String
  deriving DecidableEq, Repr, Inhabited

/-- The text of the error. -/
def UnknownControl.message (e : UnknownControl) : String :=
  "unknown control type `" ++ e.name ++ "`"

namespace Control

/-- The name of a control. -/
def name : Control → String
  | text => "text"
  | email => "email"
  | tel => "tel"
  | date => "date"
  | radio => "radio"
  | select => "select"
  | textarea => "textarea"

/-- The controls. -/
def all : List Control := [text, email, tel, date, radio, select, textarea]

/-- Whether a control restricts the value to the options of the field. -/
def isChoice : Control → Bool
  | radio => true
  | select => true
  | _ => false

/-- The control of a name, in either case and with blanks around it. -/
def parse (name : String) : Except UnknownControl Control :=
  let wanted := Text.strip name
  match all.find? (·.name == Text.lower wanted) with
  | some c => .ok c
  | none => .error ⟨wanted⟩

/-- How many options are shown side by side; more of them make a list. -/
def maxRadioOptions : Nat := 3

/-- The control of a declaration that names none: the program's `infer_control`. -/
def infer (range : ValueRange) (identifier : String) (optionCount : Nat) : Control :=
  if 0 < optionCount then if optionCount ≤ maxRadioOptions then radio else select
  else
    match range with
    | .boolean => radio
    | .date => date
    | _ =>
      if Text.occursIn "email".toList identifier.toList then email
      else if Text.occursIn "phone".toList identifier.toList then tel
      else text

end Control

end FormOntology
