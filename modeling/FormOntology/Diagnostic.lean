import FormOntology.Json.Basic
import FormOntology.Source.Basic

/-!
# Diagnostics

A defect of one declaration never ends a compile.  A property that cannot be placed in the schema
is dropped; one with a smaller defect is kept.  Either way a diagnostic tells what was found, in
which property and where.

## Main definitions

* `Defect` — what can be wrong with a declaration.
* `Diagnostic` — a defect, the property and the location.
* `Diagnostic.text`, `Diagnostic.toJson` — how a diagnostic is written.
-/

namespace FormOntology

/-- What can be wrong with a declaration. -/
inductive Defect where
  /-- It has no label. -/
  | missingLabel
  /-- It has no class. -/
  | missingDomain
  /-- No full stop ends it. -/
  | truncatedBlock
  /-- Its range word is not supported. -/
  | unrecognizedRange (range : String)
  /-- Its property was declared before. -/
  | duplicateProperty (first : Location)
  /-- Its validation pattern does not compile; the library tells why. -/
  | invalidPattern (pattern message : String)
  /-- The control it names is not known. -/
  | unknownFormType (formType : String)
  /-- Its class has no section. -/
  | unknownClass (name : String)
  deriving DecidableEq, Repr, Inhabited

namespace Defect

/-- The name of the kind of a defect. -/
def kind : Defect → String
  | missingLabel => "missing_label"
  | missingDomain => "missing_domain"
  | truncatedBlock => "truncated_block"
  | unrecognizedRange _ => "unrecognized_range"
  | duplicateProperty _ => "duplicate_property"
  | invalidPattern _ _ => "invalid_pattern"
  | unknownFormType _ => "unknown_form_type"
  | unknownClass _ => "unknown_class"

/-- Whether a property with the defect is left out of the schema. -/
def drops : Defect → Bool
  | missingLabel => true
  | missingDomain => true
  | duplicateProperty _ => true
  | unknownClass _ => true
  | _ => false

end Defect

/-- A defect of a declaration. -/
structure Diagnostic where
  /-- The defect. -/
  defect : Defect
  /-- The property that is declared. -/
  property : String
  /-- Where it is declared. -/
  location : Location
  deriving DecidableEq, Repr, Inhabited

namespace Diagnostic

/-- Whether the property is left out of the schema. -/
def drops (d : Diagnostic) : Bool := d.defect.drops

/-- How a diagnostic is told. -/
def text (d : Diagnostic) : String :=
  let subject := d.location.text ++ ": property `" ++ d.property ++ "` "
  match d.defect with
  | .missingLabel => subject ++ "has no rdfs:label; dropped"
  | .missingDomain => subject ++ "has no rdfs:domain; dropped"
  | .truncatedBlock =>
    d.location.text ++ ": declaration of `" ++ d.property ++ "` has no terminating `.`"
  | .unrecognizedRange range =>
    subject ++ "has unrecognized range `" ++ range ++ "`; treated as string"
  | .duplicateProperty first => subject ++ "already declared at " ++ first.text ++ "; dropped"
  | .invalidPattern pattern message =>
    subject ++ "has invalid validation pattern `" ++ pattern ++ "`: " ++ message
  | .unknownFormType formType => subject ++ "names unknown form type `" ++ formType ++ "`; ignored"
  | .unknownClass name => subject ++ "belongs to unclassified class `" ++ name ++ "`; dropped"

end Diagnostic

/-- A location as a JSON value. -/
def Location.toJson (l : Location) : Json :=
  .object [("document", .string l.document), ("line", .nat l.line)]

/-- A diagnostic as a JSON value. -/
def Diagnostic.toJson (d : Diagnostic) : Json :=
  let lead := [("kind", Json.string d.defect.kind), ("property", Json.string d.property)]
  let place := [("location", d.location.toJson)]
  .object <|
    match d.defect with
    | .missingLabel => lead ++ place
    | .missingDomain => lead ++ place
    | .truncatedBlock => lead ++ place
    | .unrecognizedRange range => lead ++ ("range", .string range) :: place
    | .duplicateProperty first => lead ++ place ++ [("first_declared_at", first.toJson)]
    | .invalidPattern pattern message =>
      lead ++ ("pattern", .string pattern) :: ("message", .string message) :: place
    | .unknownFormType formType => lead ++ ("form_type", .string formType) :: place
    | .unknownClass name => lead ++ ("class", .string name) :: place

end FormOntology
