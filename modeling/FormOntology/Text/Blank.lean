/-!
# White space, trimming and words

Two classes of white space are in use.  *Blank* characters are those with the Unicode property
`White_Space`; they separate the tokens of a declaration and are what trimming removes.  *ASCII
blank* characters are the five that end a statement or break an IRI.  Besides there are names that
people write in either case, and words inside longer ones.

## Main definitions

* `isBlank`, `isAsciiBlank` — the two classes.
* `trimStart`, `trimEnd`, `trim` — a text without the blanks at its ends.
* `strip` — `trim` on strings.
* `lower` — a string with its ASCII letters in lower case.
* `occursIn` — whether a word stands somewhere in a text.

## Main results

* `isBlank_of_isAsciiBlank` — every ASCII blank character is blank.
-/

namespace FormOntology.Text

/-! ### The two classes -/

/-- The characters with the Unicode property `White_Space`. -/
def isBlank (c : Char) : Bool :=
  let n := c.toNat
  (9 ≤ n && n ≤ 13) || n == 0x20 || n == 0x85 || n == 0xA0 || n == 0x1680
    || (0x2000 ≤ n && n ≤ 0x200A) || n == 0x2028 || n == 0x2029 || n == 0x202F
    || n == 0x205F || n == 0x3000

/-- Tab, line feed, form feed, carriage return and space. -/
def isAsciiBlank (c : Char) : Bool :=
  let n := c.toNat
  n == 9 || n == 10 || n == 12 || n == 13 || n == 32

theorem isBlank_of_isAsciiBlank {c : Char} (h : isAsciiBlank c = true) : isBlank c = true := by
  simp only [isAsciiBlank, Bool.or_eq_true, beq_iff_eq] at h
  rcases h with (((h | h) | h) | h) | h <;> simp [isBlank, h]

/-! ### Trimming -/

/-- The text from its first character that is not blank. -/
def trimStart (text : List Char) : List Char := text.dropWhile isBlank

/-- The text up to its last character that is not blank. -/
def trimEnd (text : List Char) : List Char := (trimStart text.reverse).reverse

/-- The text between its first and its last character that is not blank. -/
def trim (text : List Char) : List Char := trimEnd (trimStart text)

/-- `trim` on strings. -/
def strip (s : String) : String := String.ofList (trim s.toList)

/-- Whether a string has blanks only. -/
def isBlankString (s : String) : Bool := s.toList.all isBlank

@[simp] theorem trimStart_nil : trimStart [] = [] := rfl

@[simp] theorem trimEnd_nil : trimEnd [] = [] := rfl

theorem trimStart_cons (c : Char) (r : List Char) :
    trimStart (c :: r) = if isBlank c then trimStart r else c :: r := by
  simp [trimStart, List.dropWhile_cons]

@[simp] theorem toList_strip (s : String) : (strip s).toList = trim s.toList :=
  String.toList_ofList

/-! ### Words -/

/-- A string with its ASCII letters in lower case. -/
def lower (s : String) : String := String.ofList (s.toList.map Char.toLower)

/-- Whether a word stands somewhere in a text. -/
def occursIn (word : List Char) : List Char → Bool
  | [] => word.isEmpty
  | c :: r => word.isPrefixOf (c :: r) || occursIn word r

end FormOntology.Text
