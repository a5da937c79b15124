import FormOntology.Calendar
import FormOntology.Decimal.Number
import FormOntology.Pattern.Library
import FormOntology.Submission.Basic
import FormOntology.Submission.Report

/-!
# The check of a submission

First the values that belong to no field are reported, in the order of their names, then the
fields in the order of the section, each with the first fault that is found.  A field that is
shown under a condition need not be filled in, as only the form can tell whether it is shown.

## Main definitions

* `Json.given` — what a value gives: nothing, several values or a text.
* `ValueRange.fits` — whether a value is of a kind.
* `isEmail` — whether a text has the form of a mail address.
* `Field.fault?` — the fault of a value for a field.
* `Schema.check` — the report on a submission.
-/

namespace FormOntology

/-! ### Values -/

/-- What a value gives. -/
inductive Given where
  /-- No value. -/
  | nothing
  /-- More than one value. -/
  | composite
  /-- One value with its text, without blanks around it. -/
  | text (chars : List Char)
  deriving DecidableEq, Repr, Inhabited

/-- What a value gives; a blank string gives nothing. -/
def Json.given : Json → Given
  | .null => .nothing
  | .bool b => .text (Json.bool b).compact
  | .number n => .text n.chars
  | .string s => if Text.isBlankString s then .nothing else .text (Text.trim s.toList)
  | .array _ => .composite
  | .object _ => .composite

/-- Whether a text is a year of four digits. -/
def isYear (text : List Char) : Bool := text.length == 4 && text.all Char.isDigit

/-- Whether a value with this text is of a kind.  A date is always written as a string; the other
kinds need not be. -/
def ValueRange.fits (range : ValueRange) (value : Json) (text : List Char) : Bool :=
  match range with
  | .string => true
  | .unspecified => true
  | .boolean => text == "true".toList || text == "false".toList
  | .date =>
    match value with
    | .string _ => (Date.parse? text).isSome
    | _ => false
  | .year => isYear text
  | .decimal =>
    match value with
    | .number _ => true
    | _ => isFiniteNumber text

/-- Whether a character can stand on either side of the `@` of a mail address. -/
def isEmailChar (c : Char) : Bool := c != '@' && !Text.isBlank c

/-- Whether a text has the form of a mail address: something, an `@`, something, a full stop and
something, where none of these has a blank or another `@`. -/
def isEmail (text : List Char) : Bool :=
  match text.dropWhile isEmailChar with
  | '@' :: domain =>
    text.head?.any isEmailChar && domain.all isEmailChar && (domain.drop 1).dropLast.contains '.'
  | _ => false

/-! ### Fields -/

namespace Field

/-- Whether a text is one of the options, when the control offers them. -/
def offers (f : Field) (text : List Char) : Bool :=
  !f.control.isChoice || f.options.isEmpty || f.options.any (·.value.toList == text)

variable [PatternLibrary]

/-- Whether a text matches the pattern of the field.  A pattern that does not compile between
anchors is not checked. -/
def matchesPattern (f : Field) (text : List Char) : Bool :=
  match f.validationPattern with
  | none => true
  | some pattern => (PatternLibrary.matchesWhole? pattern.toList text).getD true

/-- The fault of one value with its text. -/
def textFault? (f : Field) (value : Json) (text : List Char) : Option Fault :=
  if !f.valueType.fits value text then some (.wrongType f.label f.valueType)
  else if !f.offers text then some (.notAnOption f.label (String.ofList text))
  else if f.control = .email ∧ !isEmail text then some (.notAnEmail f.label)
  else if !f.matchesPattern text then some (.patternMismatch f.label)
  else none

/-- Whether a value must be given. -/
def mustBeGiven (f : Field) : Bool := f.required && f.conditionalDisplay.isNone

/-- The fault of a value for a field, if there is a fault: the program's `check_field`. -/
def fault? (f : Field) (value : Option Json) : Option Fault :=
  match value with
  | none => if f.mustBeGiven then some (.required f.label) else none
  | some value =>
    match value.given with
    | .nothing => if f.mustBeGiven then some (.required f.label) else none
    | .composite => some (.composite f.label)
    | .text text => f.textFault? value text

end Field

/-! ### Submissions -/

namespace Schema

/-- The errors for values that belong to no field. -/
def unknownFields (s : Schema) (sub : Submission) : List FieldError :=
  (sub.values.filter fun v => (s.field? sub.place v.1).isNone).map
    fun v => ⟨v.1, .unknownField sub.place⟩

variable [PatternLibrary]

/-- The errors of fields. -/
def fieldErrors (s : Schema) (sub : Submission) : List FieldError :=
  (s.fieldsOf sub.place).filterMap fun f => (f.fault? (sub.value? f.id)).map (⟨f.id, ·⟩)

/-- The report on a submission: the program's `validate_submission`. -/
def check (s : Schema) (sub : Submission) : Report :=
  ⟨s.unknownFields sub ++ s.fieldErrors sub⟩

end Schema

end FormOntology
