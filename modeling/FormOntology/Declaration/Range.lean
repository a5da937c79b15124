import FormOntology.Text.Blank

/-!
# Value ranges

What kind of value a property has.

## Main definitions

* `ValueRange` — the kinds of value.
* `ValueRange.ofWord?` — the kind that the local part of a range word names.
-/

namespace FormOntology

/-- The kinds of value. -/
inductive ValueRange where
  /-- Any text. -/
  | string
  /-- True or false. -/
  | boolean
  /-- A calendar date. -/
  | date
  /-- A year of four digits. -/
  | year
  /-- A number. -/
  | decimal
  /-- None was declared. -/
  | unspecified
  deriving DecidableEq, Repr, Inhabited

namespace ValueRange

/-- The name of a kind. -/
def name : ValueRange → String
  | string => "string"
  | boolean => "boolean"
  | date => "date"
  | year => "year"
  | decimal => "decimal"
  | unspecified => "unspecified"

/-- The kinds of value. -/
def all : List ValueRange := [string, boolean, date, year, decimal, unspecified]

/-- The data types of each kind, by their local names. -/
def ofLocalName? (name : String) : Option ValueRange :=
  if ["string", "normalizedString", "token", "anyURI"].contains name then some string
  else if name = "boolean" then some boolean
  else if name = "date" then some date
  else if name = "gYear" then some year
  else if ["decimal", "integer", "int", "long", "nonNegativeInteger", "positiveInteger", "double",
    "float"].contains name then some decimal
  else none

/-- A text without the angle brackets around it. -/
def stripBrackets (word : List Char) : List Char :=
  match word with
  | '<' :: r => if r.getLast? = some '>' then r.dropLast else word
  | _ => word

/-- The part of a word behind its last colon, number sign or slash. -/
def localPart (word : List Char) : List Char :=
  (word.reverse.takeWhile fun c => c ≠ ':' ∧ c ≠ '#' ∧ c ≠ '/').reverse

/-- The kind that a range word names, if it is one of those supported: the program's
`ValueRange::from_range_word`. -/
def ofWord? (word : String) : Option ValueRange :=
  ofLocalName? (String.ofList (localPart (stripBrackets (Text.trim word.toList))))

end ValueRange

end FormOntology
