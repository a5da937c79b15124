import FormOntology.Declaration.Attributes
import FormOntology.Declaration.Block
import FormOntology.Declaration.Range
import FormOntology.Diagnostic
import FormOntology.Pattern.Library

/-!
# Declarations

A declaration is a block with its attributes resolved: its range word is mapped to a value range
and its validation pattern is kept only if it compiles.  What cannot be resolved is reported.

## Main definitions

* `Declaration`, `Declaration.resolve` — a declaration, and the one of a block with the defects
  that were found.
* `Combined.declarations` — the declarations of a source, in order, with their diagnostics.
-/

namespace FormOntology

/-- A property declaration. -/
structure Declaration where
  /-- The property. -/
  identifier : String
  /-- The class. -/
  domain : Option String
  /-- The value range. -/
  range : ValueRange
  /-- The label. -/
  label : Option String
  /-- Whether a value must be given. -/
  required : Bool
  /-- The help text. -/
  helpText : Option String
  /-- The values to choose from. -/
  enumeration : List String
  /-- The condition under which the property is shown. -/
  conditionalDisplay : Option String
  /-- The pattern that values match, if it compiles. -/
  validationPattern : Option String
  /-- The default value. -/
  defaultValue : Option String
  /-- The name of the control. -/
  formType : Option String
  /-- Where the declaration stands. -/
  location : Location
  /-- Whether a full stop ends the declaration. -/
  terminated : Bool
  deriving DecidableEq, Repr, Inhabited

/-- The range that a word names, and a defect if it names none. -/
def resolveRange : Option String → ValueRange × List Defect
  | none => (.unspecified, [])
  | some word =>
    match ValueRange.ofWord? word with
    | some range => (range, [])
    | none => (.unspecified, [.unrecognizedRange word])

variable [PatternLibrary]

/-- A pattern that compiles, and a defect if it does not. -/
def resolvePattern : Option String → Option String × List Defect
  | none => (none, [])
  | some pattern =>
    match PatternLibrary.compile pattern.toList with
    | .ok _ => (some pattern, [])
    | .error message => (none, [.invalidPattern pattern message])

/-- The declaration of a block with its attributes, and the diagnostics for it: the program's
`PropertyDeclaration::resolve`. -/
def Declaration.resolve (b : Block) (a : AttributeSet) (location : Location) :
    Declaration × List Diagnostic :=
  let terminated := b.termination == .terminated
  let (range, rangeDefects) := resolveRange a.range
  let (pattern, patternDefects) := resolvePattern a.validationPattern
  let defects := (if terminated then [] else [.truncatedBlock]) ++ rangeDefects ++ patternDefects
  ({ identifier := b.identifier
     domain := a.domain
     range := range
     label := a.label
     required := a.required
     helpText := a.helpText
     enumeration := a.enumeration
     conditionalDisplay := a.conditionalDisplay
     validationPattern := pattern
     defaultValue := a.defaultValue
     formType := a.formType
     location := location
     terminated := terminated },
   defects.map fun d => ⟨d, b.identifier, location⟩)

/-- Every declaration of a source with its diagnostics, when `extract` finds the attributes of a
block: the program's `DeclarationReader::read`. -/
def Combined.declarationsBy (s : Combined) (v : Vocabulary)
    (extract : List Char → AttributeSet) : List (Declaration × List Diagnostic) :=
  (blocks v s.text).map fun b =>
    Declaration.resolve b (extract b.text) (s.locate b.span.start)

/-- Every declaration of a source with its diagnostics. -/
def Combined.declarations (s : Combined) (v : Vocabulary) :
    List (Declaration × List Diagnostic) :=
  s.declarationsBy v (AttributeSet.extract v)

end FormOntology
