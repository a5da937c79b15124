/-!
# Escapes in string literals

Inside a literal a backslash and one of `n`, `r`, `t`, `"`, `'` and the backslash itself stand for
one character.  A backslash in front of any other character stands for itself, so the escapes of a
validation pattern such as `\d` need no doubling.

## Main definitions

* `unescape` — the text that the body of a literal stands for.
* `escape` — a body that stands for a given text.

## Main results

* `unescape_escape` — reading what was written gives the text back.
-/

namespace FormOntology.Turtle

/-- The character that a backslash and `c` stand for together. -/
def unescapeChar? (c : Char) : Option Char :=
  if c = 'n' then some '\n'
  else if c = 'r' then some '\r'
  else if c = 't' then some '\t'
  else if c = '"' then some '"'
  else if c = '\'' then some '\''
  else if c = '\\' then some '\\'
  else none

/-- The text that the body of a literal stands for: the program's `unescape_turtle_string`. -/
def unescape : List Char → List Char
  | [] => []
  | c :: r =>
    if c = '\\' then
      match r with
      | [] => ['\\']
      | d :: r' =>
        match unescapeChar? d with
        | some e => e :: unescape r'
        | none => '\\' :: d :: unescape r'
    else c :: unescape r

/-- How a character is written in a short literal. -/
def escapeChar (c : Char) : List Char :=
  if c = '\\' then ['\\', '\\']
  else if c = '"' then ['\\', '"']
  else if c = '\n' then ['\\', 'n']
  else if c = '\r' then ['\\', 'r']
  else if c = '\t' then ['\\', 't']
  else [c]

/-- A body without quotes and line breaks of its own that stands for a text. -/
def escape (text : List Char) : List Char := text.flatMap escapeChar

@[simp] theorem unescape_nil : unescape [] = [] := rfl

@[simp] theorem escape_nil : escape [] = [] := rfl

@[simp] theorem escape_cons (c : Char) (r : List Char) :
    escape (c :: r) = escapeChar c ++ escape r := rfl

theorem unescape_of_ne {c : Char} (h : c ≠ '\\') (r : List Char) :
    unescape (c :: r) = c :: unescape r := by
  rw [unescape.eq_def]
  exact if_neg h

/-- One written character is read as itself. -/
theorem unescape_escapeChar_append (c : Char) (r : List Char) :
    unescape (escapeChar c ++ r) = c :: unescape r := by
  unfold escapeChar
  split
  · next h => subst h; rfl
  split
  · next h => subst h; rfl
  split
  · next h => subst h; rfl
  split
  · next h => subst h; rfl
  split
  · next h => subst h; rfl
  · next h _ _ _ _ => exact unescape_of_ne h r

theorem unescape_escape (text : List Char) : unescape (escape text) = text := by
  induction text with
  | nil => rfl
  | cons c r ih => rw [escape_cons, unescape_escapeChar_append, ih]

end FormOntology.Turtle
