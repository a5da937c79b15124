import FormOntology.Declaration.Enumeration
import FormOntology.Declaration.Header
import FormOntology.Turtle.Comment
import FormOntology.Turtle.Literal

/-!
# Attributes of a declaration

Every attribute is looked for on its own in the whole block, with comments blanked out: the first
place where its term stands, at the beginning of a word, with blanks and a readable object behind
it.  The order of the clauses does therefore not matter.

## Main definitions

* `AttributeSet` — the attributes of a declaration as written.
* `firstObject?` — the first readable object of a term.
* `AttributeSet.extract` — the attributes of a block.
-/

namespace FormOntology

open Text Turtle

/-- The attributes of a declaration as written. -/
structure AttributeSet where
  /-- The label, not blank. -/
  label : Option String := none
  /-- The class, without its namespace if that is accepted. -/
  domain : Option String := none
  /-- The word that names the range. -/
  range : Option String := none
  /-- Whether a value must be given. -/
  required : Bool := false
  /-- The help text. -/
  helpText : Option String := none
  /-- The values to choose from. -/
  enumeration : List String := []
  /-- The condition under which the property is shown; it is not interpreted. -/
  conditionalDisplay : Option String := none
  /-- The pattern that values match. -/
  validationPattern : Option String := none
  /-- The default value. -/
  defaultValue : Option String := none
  /-- The name of the control. -/
  formType : Option String := none
  deriving DecidableEq, Repr, Inhabited

/-! ### Objects -/

/-- Whether a character can stand in a local name. -/
def isLocalChar (c : Char) : Bool := Unicode.isWord c || c == '-'

/-- The name at the start of a text: an IRI with its angle brackets, or a word that may have one
colon and a second word. -/
def name? : List Char → Option (List Char)
  | [] => none
  | c :: r =>
    if c = '<' then
      let body := r.takeWhile fun d => d ≠ '>' && !isBlank d
      if (r.drop body.length).head? = some '>' then some (c :: body ++ ['>']) else none
    else if isNameStart c then
      let word := r.takeWhile isLocalChar
      match r.drop word.length with
      | ':' :: rest => some (c :: word ++ ':' :: rest.takeWhile isLocalChar)
      | _ => some (c :: word)
    else none

/-- The truth value at the start of a text, with or without a quote in front of it. -/
def flag? (text : List Char) : Option Bool :=
  let text := if text.head? = some '"' then text.drop 1 else text
  match readWord? "true".toList text, readWord? "false".toList text with
  | some rest, _ => if startsOutsideWord rest then some true else none
  | none, some rest => if startsOutsideWord rest then some false else none
  | none, none => none

/-! ### The search -/

/-- The first object that `object?` reads behind the term `t`, where `inWord` tells whether a
character of words stands in front of the text. -/
def firstObject? {α : Type} (v : Vocabulary) (t : Term) (object? : List Char → Option α) :
    (inWord : Bool) → List Char → Option α
  | _, [] => none
  | inWord, c :: r =>
    match if inWord then none else ((t.read? v (c :: r)).bind readBlanks?).bind object? with
    | some a => some a
    | none => firstObject? v t object? (Unicode.isWord c) r

/-- The body of the first literal behind a term. -/
def literalOf? (v : Vocabulary) (t : Term) (text : List Char) : Option (List Char) :=
  firstObject? v t literalBody? false text

/-- The attributes of a text without comments. -/
def AttributeSet.ofMasked (v : Vocabulary) (text : List Char) : AttributeSet :=
  let plain (t : Term) : Option String := (literalOf? v t text).map String.ofList
  let unescaped (t : Term) : Option String :=
    (literalOf? v t text).map fun body => String.ofList (unescape body)
  let name (t : Term) : Option String := (firstObject? v t name? false text).map String.ofList
  { label := (unescaped .label).filter (!isBlankString ·)
    domain := (name .domain).map fun n => (v.localName? n).getD n
    range := name .range
    required := (firstObject? v .required flag? false text).getD false
    helpText := unescaped .helpText
    enumeration :=
      ((firstObject? v .enumeration listBody? false text).map splitEnumeration).getD []
    conditionalDisplay := plain .conditionalDisplay
    validationPattern := unescaped .validationPattern
    defaultValue := unescaped .defaultValue
    formType := (plain .formType).map strip }

/-- The attributes of a block: the program's `extract_attributes`. -/
def AttributeSet.extract (v : Vocabulary) (block : List Char) : AttributeSet :=
  .ofMasked v (maskComments block)

end FormOntology
