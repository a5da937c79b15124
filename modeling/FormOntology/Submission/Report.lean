import FormOntology.Schema.Basic

/-!
# Reports

The result of a check: a list of errors, each of one field.  A submission without an error is
valid.

## Main definitions

* `Fault`, `FieldError`, `Report` — reports.
* `Fault.code`, `FieldError.message` — how an error is named and told.
* `Report.toJson` — a report as a JSON value.
-/

namespace FormOntology

/-- What can be wrong with a value. -/
inductive Fault where
  /-- The section has no such field. -/
  | unknownField (place : FormSection)
  /-- A value must be given. -/
  | required (label : String)
  /-- The value is an array or an object. -/
  | composite (label : String)
  /-- The value is not of the kind it should be. -/
  | wrongType (label : String) (range : ValueRange)
  /-- The value is none of the options. -/
  | notAnOption (label : String) (text : String)
  /-- The value is no mail address. -/
  | notAnEmail (label : String)
  /-- The value does not match the pattern of the field. -/
  | patternMismatch (label : String)
  deriving DecidableEq, Repr, Inhabited

namespace Fault

/-- The code of a fault. -/
def code : Fault → String
  | unknownField _ => "unknown_field"
  | required _ => "required"
  | composite _ => "invalid_type"
  | wrongType _ _ => "invalid_type"
  | notAnOption _ _ => "not_an_option"
  | notAnEmail _ => "invalid_email"
  | patternMismatch _ => "pattern_mismatch"

end Fault

/-- A fault in the value of a field. -/
structure FieldError where
  /-- The identifier of the field. -/
  field : String
  /-- The fault. -/
  fault : Fault
  deriving DecidableEq, Repr, Inhabited

namespace FieldError

/-- How an error is told. -/
def message (e : FieldError) : String :=
  match e.fault with
  | .unknownField place => "`" ++ e.field ++ "` is not a field of section " ++ place.name
  | .required label => label ++ " is required"
  | .composite label => label ++ " must be a single value"
  | .wrongType label range => label ++ " must be a " ++ range.name ++ " value"
  | .notAnOption label text => "`" ++ text ++ "` is not an option of " ++ label
  | .notAnEmail label => label ++ " must be an email address"
  | .patternMismatch label => label ++ " does not match the required format"

/-- An error as a JSON value. -/
def toJson (e : FieldError) : Json :=
  .object
    [("field", .string e.field), ("code", .string e.fault.code), ("message", .string e.message)]

end FieldError

/-- The errors that were found. -/
structure Report where
  /-- The errors, in order. -/
  errors : List FieldError
  deriving DecidableEq, Repr, Inhabited

namespace Report

/-- Whether no error was found. -/
def valid (r : Report) : Bool := r.errors.isEmpty

/-- A report as a JSON value. -/
def toJson (r : Report) : Json :=
  .object [("valid", .bool r.valid), ("errors", .array (r.errors.map FieldError.toJson))]

end Report

end FormOntology
