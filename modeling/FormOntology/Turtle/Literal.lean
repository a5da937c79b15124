import FormOntology.Turtle.Inert

/-!
# Bodies of literals and lists

What stands between the quotes of a literal and between the parentheses of a list.  Bodies are
kept as written; what their escapes stand for is told by `unescape`.

A long literal ends at the first three quotes behind its opening ones.  If there are none, its
first two quotes are read as an empty short literal.  In a short literal a backslash hides the
character behind it, which is no line feed; a short literal that is not closed on its line is
none.

## Main definitions

* `literalBody?` — the body of the literal at the start of a text.
* `listBody?` — the body of the list at the start of a text.
-/

namespace FormOntology.Turtle

/-- The text in front of the first three quotes. -/
def longBody? : List Char → Option (List Char)
  | [] => none
  | c :: r => if startsTriple (c :: r) then some [] else (longBody? r).map (c :: ·)

/-- The text in front of the quote that closes a short literal. -/
def shortBody? : List Char → Option (List Char)
  | [] => none
  | c :: r =>
    if c = '"' then some []
    else if c = '\n' then none
    else if c = '\\' then
      match r with
      | [] => none
      | d :: r' => if d = '\n' then none else (shortBody? r').map (c :: d :: ·)
    else (shortBody? r).map (c :: ·)

/-- The body of the literal at the start of a text. -/
def literalBody? (text : List Char) : Option (List Char) :=
  match text with
  | [] => none
  | c :: r =>
    if c = '"' then
      match if startsTriple text then longBody? (r.drop 2) else none with
      | some body => some body
      | none => shortBody? r
    else none

/-- The text in front of the parenthesis that closes a list; one between quotes does not, and
`quoted` tells whether the text begins between quotes. -/
def listTail? : (quoted : Bool) → List Char → Option (List Char)
  | _, [] => none
  | false, c :: r => if c = ')' then some [] else (listTail? (c == '"') r).map (c :: ·)
  | true, c :: r =>
    if c = '"' then (listTail? false r).map (c :: ·)
    else if c = '\\' then
      match r with
      | [] => none
      | d :: r' => if d = '\n' then none else (listTail? true r').map (c :: d :: ·)
    else (listTail? true r).map (c :: ·)

/-- The body of the list at the start of a text. -/
def listBody? : List Char → Option (List Char)
  | [] => none
  | c :: r => if c = '(' then listTail? false r else none

end FormOntology.Turtle
