import FormOntology.Declaration.Basic
import FormOntology.Schema.Basic
import FormOntology.Schema.Classification

/-!
# Assembly of a schema

Declarations are placed into the sections of their classes, in order.  A declaration is dropped
when it has no label, no class or a class without a section, or when its property was kept before;
only kept declarations count as declared before.

## Main definitions

* `Placement`, `Placement.of` — where a declaration belongs, or why nowhere.
* `placements` — what becomes of each declaration of a list.
* `Placed.diagnostics`, `Placed.field?` — what a declaration adds to the diagnostics and to a
  section.
* `assemble` — the schema and the diagnostics of a list of declarations.
-/

namespace FormOntology

/-- Where a declaration belongs. -/
structure Placement where
  /-- The label. -/
  label : String
  /-- The sections. -/
  sections : List FormSection
  deriving DecidableEq, Repr, Inhabited

/-- Where a declaration belongs, or why it is dropped, when properties of earlier declarations
were kept. -/
def Placement.of (t : ClassTable) (kept : List (String × Location)) (d : Declaration) :
    Except Defect Placement :=
  match d.label.filter (!Text.isBlankString ·) with
  | none => .error .missingLabel
  | some label =>
    match d.domain with
    | none => .error .missingDomain
    | some className =>
      match t.classify? className with
      | none => .error (.unknownClass className)
      | some sections =>
        match kept.lookup d.identifier with
        | some first => .error (.duplicateProperty first)
        | none => .ok ⟨label, sections⟩

/-- A declaration and what becomes of it. -/
structure Placed where
  /-- The declaration. -/
  declaration : Declaration
  /-- Where it belongs, or why it is dropped. -/
  placement : Except Defect Placement

/-- What becomes of each declaration of a list, when properties of earlier declarations were
kept. -/
def placements (t : ClassTable) : (kept : List (String × Location)) → List Declaration →
    List Placed
  | _, [] => []
  | kept, d :: rest =>
    match Placement.of t kept d with
    | .error defect => ⟨d, .error defect⟩ :: placements t kept rest
    | .ok p => ⟨d, .ok p⟩ :: placements t ((d.identifier, d.location) :: kept) rest

namespace Placed

/-- The control of a declaration and the defect of the name it gives. -/
def controlOf (d : Declaration) : Control × Option Defect :=
  let inferred := Control.infer d.range d.identifier d.enumeration.length
  match d.formType with
  | none => (inferred, none)
  | some name =>
    match Control.parse name with
    | .ok control => (control, none)
    | .error _ => (inferred, some (.unknownFormType name))

/-- The defect that a declaration is reported for, if there is one. -/
def defect? (p : Placed) : Option Defect :=
  match p.placement with
  | .error defect => some defect
  | .ok _ => (controlOf p.declaration).2

/-- The diagnostics of a declaration. -/
def diagnostics (p : Placed) : List Diagnostic :=
  p.defect?.toList.map fun defect => ⟨defect, p.declaration.identifier, p.declaration.location⟩

/-- The field of a declaration with this label in a section. -/
def fieldOf (d : Declaration) (label : String) (s : FormSection) : Field :=
  { id := d.identifier
    label := label
    control := (controlOf d).1
    required := d.required
    helpText := d.helpText
    options := d.enumeration.map FieldOption.ofValue
    inSection := s
    conditionalDisplay := d.conditionalDisplay
    valueType := d.range
    validationPattern := d.validationPattern
    defaultValue := d.defaultValue
    source := d.location }

/-- The field that a declaration adds to a section. -/
def field? (p : Placed) (s : FormSection) : Option Field :=
  match p.placement with
  | .error _ => none
  | .ok place =>
    if place.sections.contains s then some (fieldOf p.declaration place.label s) else none

end Placed

/-- The schema and the diagnostics of a list of declarations: the program's
`SchemaAssembler::assemble`. -/
def assemble (t : ClassTable) (ds : List Declaration) : Schema × List Diagnostic :=
  let placed := placements t [] ds
  (.ofFields fun s => placed.filterMap (·.field? s), placed.flatMap Placed.diagnostics)

end FormOntology
