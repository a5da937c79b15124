import FormOntology.Decimal.Dyadic

/-!
# JSON values and their text

JSON values, and how the program writes them: on one line, or with two blanks of indentation for
each level.  The members of an object are written in the order they are listed.

## Main definitions

* `JsonNumber`, `Json` — the values.
* `Json.quote` — a string in quotes.
* `Json.compact`, `Json.pretty` — the two forms of text.
-/

namespace FormOntology

/-- A number: an integer of 64 bits, with or without a sign, or a number of double precision. -/
inductive JsonNumber where
  /-- An integer. -/
  | int (n : Int)
  /-- Any other number. -/
  | double (x : Double)
  deriving DecidableEq, Repr, Inhabited

/-- How a number is written. -/
def JsonNumber.chars : JsonNumber → List Char
  | int n => (toString n).toList
  | double x => x.chars

/-- A JSON value. -/
inductive Json where
  /-- `null` -/
  | null
  /-- `true` or `false` -/
  | bool (b : Bool)
  /-- A number. -/
  | number (n : JsonNumber)
  /-- A string. -/
  | string (s : String)
  /-- An array. -/
  | array (items : List Json)
  /-- An object; the members are in the order they are written. -/
  | object (members : List (String × Json))
  deriving Inhabited

namespace Json

/-- A natural number as a value. -/
def nat (n : Nat) : Json := .number (.int n)

/-- The members of an optional one. -/
def optional (name : String) : Option String → List (String × Json)
  | none => []
  | some s => [(name, .string s)]

/-! ### Strings -/

/-- How a character is written inside quotes. -/
def quoteChar (c : Char) : List Char :=
  if c = '"' then ['\\', '"']
  else if c = '\\' then ['\\', '\\']
  else if c = '\x08' then ['\\', 'b']
  else if c = '\x0c' then ['\\', 'f']
  else if c = '\n' then ['\\', 'n']
  else if c = '\r' then ['\\', 'r']
  else if c = '\t' then ['\\', 't']
  else if c.toNat < 32 then
    ['\\', 'u', '0', '0', (c.toNat / 16).digitChar, (c.toNat % 16).digitChar]
  else [c]

/-- A text in quotes. -/
def quote (text : List Char) : List Char := '"' :: text.flatMap quoteChar ++ ['"']

/-! ### One line -/

mutual

/-- A value on one line. -/
def compact : Json → List Char
  | .null => "null".toList
  | .bool true => "true".toList
  | .bool false => "false".toList
  | .number n => n.chars
  | .string s => quote s.toList
  | .array items => '[' :: compactItems items ++ [']']
  | .object members => '\x7b' :: compactMembers members ++ ['\x7d']
termination_by structural j => j

/-- Values with commas between them. -/
def compactItems : List Json → List Char
  | [] => []
  | [j] => j.compact
  | j :: r => j.compact ++ ',' :: compactItems r
termination_by structural l => l

/-- Members with commas between them. -/
def compactMembers : List (String × Json) → List Char
  | [] => []
  | [(k, j)] => quote k.toList ++ ':' :: j.compact
  | (k, j) :: r => quote k.toList ++ ':' :: j.compact ++ ',' :: compactMembers r
termination_by structural l => l

end

/-! ### Several lines -/

/-- A line feed and the blanks of a level. -/
def newLine (level : Nat) : List Char := '\n' :: List.replicate (2 * level) ' '

mutual

/-- A value over several lines, when it stands at a level of indentation. -/
def prettyAt (level : Nat) : Json → List Char
  | .null => "null".toList
  | .bool true => "true".toList
  | .bool false => "false".toList
  | .number n => n.chars
  | .string s => quote s.toList
  | .array [] => ['[', ']']
  | .array (j :: r) => '[' :: prettyItems (level + 1) (j :: r) ++ newLine level ++ [']']
  | .object [] => ['\x7b', '\x7d']
  | .object (m :: r) =>
    '\x7b' :: prettyMembers (level + 1) (m :: r) ++ newLine level ++ ['\x7d']
termination_by structural j => j

/-- Values, each on a line of its own. -/
def prettyItems (level : Nat) : List Json → List Char
  | [] => []
  | [j] => newLine level ++ prettyAt level j
  | j :: r => newLine level ++ prettyAt level j ++ ',' :: prettyItems level r
termination_by structural l => l

/-- Members, each on a line of its own. -/
def prettyMembers (level : Nat) : List (String × Json) → List Char
  | [] => []
  | [(k, j)] => newLine level ++ quote k.toList ++ ':' :: ' ' :: prettyAt level j
  | (k, j) :: r =>
    newLine level ++ quote k.toList ++ ':' :: ' ' :: prettyAt level j
      ++ ',' :: prettyMembers level r
termination_by structural l => l

end

/-- A value over several lines. -/
def pretty (j : Json) : List Char := prettyAt 0 j

end Json

end FormOntology
