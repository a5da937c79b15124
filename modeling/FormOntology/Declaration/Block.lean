import FormOntology.Declaration.Header
import FormOntology.Turtle.Inert

/-!
# Declaration blocks

The block of a declaration reaches from its header to the first full stop that stands alone: one
outside comments, literals and IRIs, with an ASCII blank or the end of the text behind it.  A
header inside a comment, a literal or an IRI begins no block.  Where no full stop comes before the
next header or the end of the text, the block ends there.

## Main definitions

* `Termination`, `Block` — how a block ended, and a block.
* `terminator?` — the end of the first full stop that stands alone.
* `blocks` — the blocks of a text, in order.
-/

namespace FormOntology

open Text Turtle

/-- How a block ended. -/
inductive Termination where
  /-- At a full stop that stands alone. -/
  | terminated
  /-- In front of the next header. -/
  | truncatedAtNextAnchor
  /-- At the end of the text. -/
  | unterminatedAtEnd
  deriving DecidableEq, Repr, Inhabited

/-- The part of a text that declares one property. -/
structure Block where
  /-- The namespace name of the property. -/
  qualifier : String
  /-- The property. -/
  identifier : String
  /-- The text of the block, without blanks at its end. -/
  text : List Char
  /-- The offsets of the block. -/
  span : Span
  /-- How the block ended. -/
  termination : Termination
  deriving DecidableEq, Repr, Inhabited

/-- Whether a marked text is empty or begins with an ASCII blank. -/
def startsBlank : List Mark → Bool
  | [] => true
  | m :: _ => isAsciiBlank m.char

/-- The offset behind the first full stop that stands alone and begins in front of `limit`, in a
marked text that begins at `offset`: the program's `find_terminator`. -/
def terminator? (limit : Nat) : (offset : Nat) → List Mark → Option Nat
  | _, [] => none
  | offset, m :: r =>
    if limit ≤ offset then none
    else if m.char == '.' && !m.inert && startsBlank r then some (offset + 1)
    else terminator? limit (offset + m.char.utf8Size) r

/-- The marks from an offset on. -/
def dropMarks : Nat → List Mark → List Mark
  | _, [] => []
  | n, m :: r => if n = 0 then m :: r else dropMarks (n - m.char.utf8Size) r

/-- The block that begins at an anchor and ends in front of `limit` at the latest. -/
def blockAt (text : List Char) (marks : List Mark) (limit : Nat) (a : Anchor) : Block :=
  let (stop, termination) :=
    match terminator? limit a.span.stop (dropMarks a.span.stop marks) with
    | some stop => (stop, Termination.terminated)
    | none =>
      (limit, if limit < size text then .truncatedAtNextAnchor else .unterminatedAtEnd)
  { qualifier := String.ofList a.header.qualifier
    identifier := String.ofList a.header.identifier
    text := trimEnd (takeBytes (stop - a.span.start) (dropBytes a.span.start text))
    span := ⟨a.span.start, stop⟩
    termination := termination }

/-- The blocks of consecutive anchors; the last may reach to the end of the text. -/
def blocksAt (text : List Char) (marks : List Mark) : List Anchor → List Block
  | [] => []
  | [a] => [blockAt text marks (size text) a]
  | a :: b :: r => blockAt text marks b.span.start a :: blocksAt text marks (b :: r)

/-- The anchors of a text outside comments, literals and IRIs. -/
def liveAnchors (v : Vocabulary) (text : List Char) : List Anchor :=
  let inert := (inertRanges text).toArray
  (anchors v text).filter fun a => !Spans.contains inert a.span.start

/-- The blocks of a text, in order: what the program's `BlockExtractor::blocks` goes through. -/
def blocks (v : Vocabulary) (text : List Char) : List Block :=
  blocksAt text (mark text) (liveAnchors v text)

/-- One block for each anchor. -/
@[simp] theorem length_blocksAt (text : List Char) (marks : List Mark) (as : List Anchor) :
    (blocksAt text marks as).length = as.length := by
  induction as with
  | nil => rfl
  | cons a r ih =>
    match r with
    | [] => rfl
    | b :: r' => rw [blocksAt, List.length_cons, ih]; rfl

end FormOntology
