import FormOntology.Vocabulary
import FormOntology.Unicode.Property
import FormOntology.Text.Offset

/-!
# Declaration headers

A declaration begins with its header, as in `ex:hasLicense a owl:DatatypeProperty`: an accepted
namespace name, a colon, an identifier, blanks, `a` or `rdf:type`, blanks, and the mark
`owl:DatatypeProperty`, which ends there as a word.  A header counts at the start of the text and
behind a blank, a full stop or a semicolon.

## Main definitions

* `Header`, `Header.read?` — a header, and reading one.
* `Anchor`, `anchors` — the places of a text where a header stands.  A text is searched from left
  to right and no header begins inside another.
-/

namespace FormOntology

open Text

/-- The text without the blanks at its start, of which there is at least one. -/
def readBlanks? : List Char → Option (List Char)
  | [] => none
  | c :: r => if isBlank c then some (trimStart r) else none

/-- An identifier at the start of a text, and what follows it. -/
def readIdentifier? : List Char → Option (List Char × List Char)
  | [] => none
  | c :: r =>
    if isNameStart c then some (c :: r.takeWhile isNameChar, r.dropWhile isNameChar) else none

/-- Whether a text does not begin with a character of words. -/
def startsOutsideWord : List Char → Bool
  | [] => true
  | c :: _ => !Unicode.isWord c

/-- The names in the header of a declaration. -/
structure Header where
  /-- The namespace name of the property. -/
  qualifier : List Char
  /-- The property. -/
  identifier : List Char
  deriving DecidableEq, Repr, Inhabited

/-- What stands in a header between the property and the mark. -/
def readTypeAssertion? (text : List Char) : Option (List Char) :=
  (readWord? ['a'] text).or (readWord? "rdf:type".toList text)

/-- Reads a header; gives its names and what follows it. -/
def Header.read? (v : Vocabulary) (text : List Char) : Option (Header × List Char) := do
  let (qualifier, r) ← v.read? text
  let (identifier, r) ← readIdentifier? r
  let r ← readBlanks? r
  let r ← readTypeAssertion? r
  let r ← readBlanks? r
  let r ← readWord? "owl:DatatypeProperty".toList r
  if startsOutsideWord r then some (⟨qualifier, identifier⟩, r) else none

/-- A header and where it stands. -/
structure Anchor where
  /-- The names of the header. -/
  header : Header
  /-- The offsets of the header. -/
  span : Span
  deriving DecidableEq, Repr, Inhabited

/-- Whether a header counts behind this character. -/
def isHeaderDelimiter (c : Char) : Bool := isBlank c || c == '.' || c == ';'

/-- The anchors of a text that begins at `offset`, when its first `skip` characters belong to a
header that was read before and `free` tells whether a header counts at the first character. -/
def anchorsFrom (v : Vocabulary) : (offset skip : Nat) → (free : Bool) → List Char → List Anchor
  | _, _, _, [] => []
  | offset, skip + 1, _, c :: r => anchorsFrom v (offset + c.utf8Size) skip false r
  | offset, 0, free, c :: r =>
    match if free then Header.read? v (c :: r) else none with
    | none => anchorsFrom v (offset + c.utf8Size) 0 (isHeaderDelimiter c) r
    | some (header, rest) =>
      ⟨header, offset, offset + (size (c :: r) - size rest)⟩
        :: anchorsFrom v (offset + c.utf8Size) (r.length - rest.length) false r

/-- The places of a text where a header stands, comments and literals not excepted. -/
def anchors (v : Vocabulary) (text : List Char) : List Anchor := anchorsFrom v 0 0 true text

end FormOntology
