import FormOntology.Diagnostic
import FormOntology.Schema.Control
import FormOntology.Schema.Section

/-!
# Schemas

A schema is what the form is drawn and checked by: for each section its fields in order.  The
fingerprint of a schema is the digest of its sections as JSON on one line.

## Main definitions

* `FieldOption`, `Field`, `SectionSchema`, `Schema` — schemas.
* `Schema.sectionsJson`, `Schema.fingerprint` — the canonical JSON and its digest.
* `Schema.toJson` — a schema as it is published.
-/

namespace FormOntology

/-- A value to choose, and how it is shown. -/
structure FieldOption where
  /-- The value. -/
  value : String
  /-- What is shown. -/
  label : String
  deriving DecidableEq, Repr, Inhabited

/-- An option that is shown as its value. -/
def FieldOption.ofValue (value : String) : FieldOption := ⟨value, value⟩

/-- A field of the form. -/
structure Field where
  /-- The identifier. -/
  id : String
  /-- The label. -/
  label : String
  /-- The control. -/
  control : Control
  /-- Whether a value must be given. -/
  required : Bool
  /-- The help text. -/
  helpText : Option String
  /-- The values to choose from. -/
  options : List FieldOption
  /-- The section. -/
  inSection : FormSection
  /-- The condition under which the field is shown. -/
  conditionalDisplay : Option String
  /-- The kind of value. -/
  valueType : ValueRange
  /-- The pattern that values match. -/
  validationPattern : Option String
  /-- The default value. -/
  defaultValue : Option String
  /-- Where the property is declared. -/
  source : Location
  deriving DecidableEq, Repr, Inhabited

/-- A section with its fields. -/
structure SectionSchema where
  /-- The section. -/
  id : FormSection
  /-- The title. -/
  title : String
  /-- The place in the form. -/
  order : Nat
  /-- The fields, in order. -/
  fields : List Field
  deriving DecidableEq, Repr, Inhabited

namespace SectionSchema

/-- A section with its own title and place. -/
def ofFields (s : FormSection) (fields : List Field) : SectionSchema :=
  ⟨s, s.title, s.order, fields⟩

/-- The first field with an identifier. -/
def field? (s : SectionSchema) (id : String) : Option Field := s.fields.find? (·.id = id)

end SectionSchema

/-- The sections of a form. -/
structure Schema where
  /-- The sections, where there is one. -/
  sections : PerSection (Option SectionSchema)
  deriving DecidableEq, Repr, Inhabited

namespace Schema

/-- The schema of all sections whose fields are given. -/
def ofFields (fields : FormSection → List Field) : Schema :=
  ⟨.ofFn fun s => some (.ofFields s (fields s))⟩

/-- The schema of all sections without a field. -/
def empty : Schema := ofFields fun _ => []

/-- The sections that there are, in order. -/
def sectionList (s : Schema) : List SectionSchema := s.sections.toList.filterMap id

/-- All fields, section by section. -/
def fields (s : Schema) : List Field := s.sectionList.flatMap (·.fields)

/-- The number of fields. -/
def fieldCount (s : Schema) : Nat := s.fields.length

/-- The fields of a section. -/
def fieldsOf (s : Schema) (place : FormSection) : List Field :=
  match s.sections.get place with
  | some part => part.fields
  | none => []

/-- A field by its section and identifier. -/
def field? (s : Schema) (place : FormSection) (id : String) : Option Field :=
  (s.fieldsOf place).find? (·.id = id)

end Schema

/-! ### JSON -/

/-- An option as a JSON value. -/
def FieldOption.toJson (o : FieldOption) : Json :=
  .object [("value", .string o.value), ("label", .string o.label)]

/-- A field as a JSON value. -/
def Field.toJson (f : Field) : Json :=
  .object <|
    [("id", .string f.id), ("label", .string f.label), ("type", .string f.control.name),
      ("required", .bool f.required)]
    ++ Json.optional "helpText" f.helpText
    ++ [("options", .array (f.options.map FieldOption.toJson)),
      ("section", .string f.inSection.name)]
    ++ Json.optional "conditionalDisplay" f.conditionalDisplay
    ++ [("valueType", .string f.valueType.name)]
    ++ Json.optional "validationPattern" f.validationPattern
    ++ Json.optional "defaultValue" f.defaultValue
    ++ [("source", f.source.toJson)]

/-- A section as a JSON value. -/
def SectionSchema.toJson (s : SectionSchema) : Json :=
  .object
    [("id", .string s.id.name), ("title", .string s.title), ("order", .nat s.order),
      ("fields", .array (s.fields.map Field.toJson))]

namespace Schema

/-- The sections as a JSON value, by their names. -/
def sectionsJson (s : Schema) : Json :=
  .object <| FormSection.all.filterMap fun place =>
    (s.sections.get place).map fun part => (place.name, part.toJson)

/-- The digest of the sections: the program's `sections_fingerprint`. -/
def fingerprint (s : Schema) : Digest := .ofString (String.ofList s.sectionsJson.compact)

/-- A schema as a JSON value. -/
def toJson (s : Schema) : Json :=
  .object [("sections", s.sectionsJson), ("fingerprint", .string s.fingerprint.text)]

end Schema

end FormOntology
