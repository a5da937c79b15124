import FormOntology.Turtle.Inert

/-!
# Masking comments

Every byte of a comment is replaced by a space, so what is left has the offsets and the lines of
the text it was made from.

## Main definitions

* `maskComments` — a text with its comments blanked out.
* `hasComment` — whether there is a comment to blank out.

## Main results

* `size_maskComments` — masking keeps the size of a text.
-/

namespace FormOntology.Turtle

open Text

/-- What a segment becomes when comments are blanked out. -/
def Segment.masked : Segment → List Char
  | .inert .comment t => List.replicate (size t) ' '
  | s => s.text

/-- A text with a space for every byte of its comments: the program's `mask_comments`. -/
def maskComments (text : List Char) : List Char := (segments text).flatMap Segment.masked

/-- Whether a text has a comment outside its literals and IRIs. -/
def hasComment (text : List Char) : Bool := (segments text).any Segment.isComment

theorem size_replicate_space (n : Nat) : size (List.replicate n ' ') = n := by
  induction n with
  | zero => rfl
  | succ n ih => rw [List.replicate_succ, size_cons, ih]; exact Nat.add_comm 1 n

theorem Segment.size_masked (s : Segment) : size s.masked = size s.text := by
  match s with
  | .plain _ => rfl
  | .inert .comment t => exact size_replicate_space (size t)
  | .inert .longLiteral _ => rfl
  | .inert .shortLiteral _ => rfl
  | .inert .iri _ => rfl

theorem size_maskComments (text : List Char) : size (maskComments text) = size text := by
  have h : ∀ l : List Segment, size (l.flatMap Segment.masked) = size (l.flatMap Segment.text) := by
    intro l
    induction l with
    | nil => rfl
    | cons s l ih => simp [ih, Segment.size_masked]
  rw [maskComments, h, segments_flatten]

/-- A text without comments is left as it is. -/
theorem maskComments_of_not_hasComment {text : List Char} (h : hasComment text = false) :
    maskComments text = text := by
  have key : ∀ s : Segment, s.isComment = false → s.masked = s.text := by
    intro s hs
    match s with
    | .plain _ => rfl
    | .inert .longLiteral _ => rfl
    | .inert .shortLiteral _ => rfl
    | .inert .iri _ => rfl
  have hl : ∀ l : List Segment, l.any Segment.isComment = false →
      l.flatMap Segment.masked = l.flatMap Segment.text := by
    intro l hl
    induction l with
    | nil => rfl
    | cons s l ih =>
      rw [List.any_cons, Bool.or_eq_false_iff] at hl
      rw [List.flatMap_cons, List.flatMap_cons, ih hl.2, key s hl.1]
  rw [maskComments, hl _ h, segments_flatten]

end FormOntology.Turtle
