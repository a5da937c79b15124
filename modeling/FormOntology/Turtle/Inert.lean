import FormOntology.Span
import FormOntology.Text.Offset
import FormOntology.Text.Blank

/-!
# Inert runs: comments, literals and IRIs

Inside a `#` comment, a string literal or a `<…>` IRI nothing of the text counts as a token of a
declaration.  A text is cut into *segments*: plain characters and inert runs.

* A comment runs from `#` to in front of the next line feed.
* A long literal runs from `"""` to behind the next `"""` of its body; a short literal from `"` to
  behind the next `"` of its body, or to in front of a line feed if that comes first.  In both
  bodies a backslash hides the character behind it.
* An IRI runs from `<` to behind the next `>`; if an ASCII blank or the end of the text comes
  first, the `<` is plain.

A literal that is not closed, and a comment of the last line, run to the end of the text.

## Main definitions

* `Inert`, `Segment`, `segments` — the kinds of run, and a text cut into segments.
* `inertRanges` — the spans of the inert runs of a text, in order.
* `mark` — every character of a text, with whether it is inert.

## Main results

* `segments_flatten` — the segments of a text, put together, are the text.
-/

namespace FormOntology.Turtle

open Text

/-! ### How far a run reaches -/

/-- The kinds of inert run. -/
inductive Inert where
  /-- From `#` to the end of the line. -/
  | comment
  /-- A literal in triple quotes. -/
  | longLiteral
  /-- A literal in single quotes. -/
  | shortLiteral
  /-- A name in angle brackets. -/
  | iri
  deriving DecidableEq, Repr, Inhabited

/-- The number of characters of a comment behind its `#`, as the program's `memchr_newline` finds
its end. -/
def commentTail (r : List Char) : Nat := (r.takeWhile (· ≠ '\n')).length

/-- The number of characters of a short literal behind its opening quote, as the program's
`short_string_end` finds its end. -/
def shortTail : List Char → Nat
  | [] => 0
  | c :: r =>
    if c = '"' then 1
    else if c = '\n' then 0
    else if c = '\\' then
      match r with
      | [] => 1
      | _ :: r' => shortTail r' + 2
    else shortTail r + 1

/-- Whether a text begins with three quotes. -/
def startsTriple : List Char → Bool
  | a :: b :: c :: _ => a == '"' && b == '"' && c == '"'
  | _ => false

/-- The number of characters of a long literal behind its three opening quotes, as the program's
`long_string_end` finds its end. -/
def longTail : List Char → Nat
  | [] => 0
  | c :: r =>
    if c = '\\' then
      match r with
      | [] => 1
      | _ :: r' => longTail r' + 2
    else if startsTriple (c :: r) then 3
    else longTail r + 1

/-- The number of characters of an IRI behind its `<`, if it is one, as the program's `iri_end`
finds its end. -/
def iriTail? : List Char → Option Nat
  | [] => none
  | c :: r =>
    if c = '>' then some 1
    else if isAsciiBlank c then none
    else (iriTail? r).map (· + 1)

/-- The kind of the inert run that begins with `c`, and its number of characters behind `c`. -/
def opening (c : Char) (r : List Char) : Option (Inert × Nat) :=
  if c = '#' then some (.comment, commentTail r)
  else if c = '"' then
    if startsTriple (c :: r) then some (.longLiteral, longTail (r.drop 2) + 2)
    else some (.shortLiteral, shortTail r)
  else if c = '<' then (iriTail? r).map (.iri, ·)
  else none

/-! ### Segments -/

/-- A piece of a text: a plain character or an inert run. -/
inductive Segment where
  /-- A character outside comments, literals and IRIs. -/
  | plain (c : Char)
  /-- A whole comment, literal or IRI. -/
  | inert (kind : Inert) (text : List Char)
  deriving DecidableEq, Repr, Inhabited

namespace Segment

/-- The characters of a segment. -/
def text : Segment → List Char
  | plain c => [c]
  | inert _ t => t

/-- Whether a segment is a comment. -/
def isComment : Segment → Bool
  | inert .comment _ => true
  | _ => false

@[simp] theorem text_plain (c : Char) : (plain c).text = [c] := rfl

@[simp] theorem text_inert (k : Inert) (t : List Char) : (inert k t).text = t := rfl

end Segment

/-- A text cut into its segments. -/
def segments : List Char → List Segment
  | [] => []
  | c :: r =>
    match opening c r with
    | none => .plain c :: segments r
    | some (k, n) => .inert k (c :: r.take n) :: segments (r.drop n)
termination_by text => text.length

@[simp] theorem segments_nil : segments [] = [] := by rw [segments]

theorem segments_plain {c : Char} {r : List Char} (h : opening c r = none) :
    segments (c :: r) = .plain c :: segments r := by
  rw [segments, h]

theorem segments_inert {c : Char} {r : List Char} {k : Inert} {n : Nat}
    (h : opening c r = some (k, n)) :
    segments (c :: r) = .inert k (c :: r.take n) :: segments (r.drop n) := by
  rw [segments, h]

/-- Cutting into segments loses nothing. -/
theorem segments_flatten (text : List Char) : (segments text).flatMap Segment.text = text := by
  induction h : text.length using Nat.strongRecOn generalizing text with
  | ind len ih =>
    match text with
    | [] => simp
    | c :: r =>
      match ho : opening c r with
      | none =>
        rw [segments_plain ho, List.flatMap_cons, ih r.length (by simp at h; omega) r rfl]
        rfl
      | some (k, n) =>
        rw [segments_inert ho, List.flatMap_cons,
          ih (r.drop n).length (by simp at h ⊢; omega) (r.drop n) rfl]
        simp

/-! ### Ranges -/

/-- The spans of the inert segments, when the first segment begins at `offset`. -/
def rangesFrom (offset : Nat) : List Segment → List Span
  | [] => []
  | .plain c :: r => rangesFrom (offset + c.utf8Size) r
  | .inert _ t :: r => ⟨offset, offset + size t⟩ :: rangesFrom (offset + size t) r

/-- The spans of the comments, literals and IRIs of a text, in order: the program's
`InertRanges::scan`. -/
def inertRanges (text : List Char) : List Span := rangesFrom 0 (segments text)

/-! ### Marked text -/

/-- A character and whether it stands in an inert run. -/
structure Mark where
  /-- The character. -/
  char : Char
  /-- Whether it belongs to a comment, a literal or an IRI. -/
  inert : Bool
  deriving DecidableEq, Repr, Inhabited

/-- The characters of a text from `offset` on, marked by the spans of the whole text. -/
def markFrom (spans : Array Span) (offset : Nat) : List Char → List Mark
  | [] => []
  | c :: r => ⟨c, Spans.contains spans offset⟩ :: markFrom spans (offset + c.utf8Size) r

/-- Every character of a text, marked. -/
def mark (text : List Char) : List Mark := markFrom (inertRanges text).toArray 0 text

theorem map_char_markFrom (spans : Array Span) (offset : Nat) (text : List Char) :
    (markFrom spans offset text).map Mark.char = text := by
  induction text generalizing offset with
  | nil => rfl
  | cons c r ih => simp [markFrom, ih]

/-- Marking keeps the characters. -/
@[simp] theorem map_char_mark (text : List Char) : (mark text).map Mark.char = text :=
  map_char_markFrom _ _ _

end FormOntology.Turtle
