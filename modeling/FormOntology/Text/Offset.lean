/-!
# Offsets in a text

Positions in a text are byte offsets of its UTF-8 encoding.  A text is a list of characters here,
so an offset is the encoded size of what stands in front of it and a valid offset is never inside
a character.

## Main definitions

* `size` — the number of bytes of a text.
* `takeBytes`, `dropBytes` — the text before and from an offset; an offset inside a character
  counts as the end of that character.
* `lineFeeds` — the number of line feeds of a text.
-/

namespace FormOntology.Text

/-- The number of bytes of the UTF-8 encoding of a text. -/
def size : List Char → Nat
  | [] => 0
  | c :: r => c.utf8Size + size r

@[simp] theorem size_nil : size [] = 0 := rfl

@[simp] theorem size_cons (c : Char) (r : List Char) : size (c :: r) = c.utf8Size + size r := rfl

@[simp] theorem size_append (a b : List Char) : size (a ++ b) = size a + size b := by
  induction a with
  | nil => simp
  | cons c r ih => simp [ih, Nat.add_assoc]

/-- The characters that begin before the offset `n`. -/
def takeBytes : Nat → List Char → List Char
  | _, [] => []
  | n, c :: r => if n = 0 then [] else c :: takeBytes (n - c.utf8Size) r

/-- The characters that begin at or behind the offset `n`. -/
def dropBytes : Nat → List Char → List Char
  | _, [] => []
  | n, c :: r => if n = 0 then c :: r else dropBytes (n - c.utf8Size) r

@[simp] theorem takeBytes_append_dropBytes (n : Nat) (text : List Char) :
    takeBytes n text ++ dropBytes n text = text := by
  induction text generalizing n with
  | nil => rfl
  | cons c r ih =>
    by_cases h : n = 0
    · simp [takeBytes, dropBytes, h]
    · simp [takeBytes, dropBytes, h, ih]

theorem takeBytes_size_append (a b : List Char) : takeBytes (size a) (a ++ b) = a := by
  induction a with
  | nil => cases b <;> simp [takeBytes]
  | cons c r ih =>
    have h : c.utf8Size + size r ≠ 0 := Nat.ne_of_gt (Nat.add_pos_left c.utf8Size_pos _)
    rw [size_cons, List.cons_append, takeBytes, if_neg h, Nat.add_sub_cancel_left, ih]

theorem dropBytes_size_append (a b : List Char) : dropBytes (size a) (a ++ b) = b := by
  have h := takeBytes_append_dropBytes (size a) (a ++ b)
  rw [takeBytes_size_append] at h
  exact List.append_cancel_left h

/-- The number of line feeds of a text. -/
def lineFeeds (text : List Char) : Nat := text.countP (· == '\n')

@[simp] theorem lineFeeds_append (a b : List Char) :
    lineFeeds (a ++ b) = lineFeeds a + lineFeeds b := List.countP_append

end FormOntology.Text
