/-!
# JSON texts

The grammar of JSON, without what its numbers and strings stand for.  A text is read into a tree
that keeps numbers and escapes as written, so a part of a text that nobody asks for need only be
well formed: its numbers may be too large, its escapes may be halves of a character, and it may be
nested to any depth.

## Main definitions

* `StringUnit`, `NumberText`, `JsonTree` — written strings, numbers and values.
* `JsonTree.parse?` — the tree of a text.
-/

namespace FormOntology

/-- A part of a written string. -/
inductive StringUnit where
  /-- A character. -/
  | char (c : Char)
  /-- A UTF-16 code unit, written as an escape of four hexadecimal digits. -/
  | code (n : Nat)
  deriving DecidableEq, Repr, Inhabited

/-- A written number. -/
structure NumberText where
  /-- Whether it begins with a minus. -/
  negative : Bool
  /-- The digits in front of the decimal point. -/
  whole : List Char
  /-- The digits behind the decimal point, if there is one. -/
  fraction : Option (List Char)
  /-- The sign and the digits of the exponent, if there is one. -/
  exponent : Option (Bool × List Char)
  deriving DecidableEq, Repr, Inhabited

/-- A written value. -/
inductive JsonTree where
  /-- `null` -/
  | null
  /-- `true` or `false` -/
  | bool (b : Bool)
  /-- A number. -/
  | number (n : NumberText)
  /-- A string. -/
  | string (s : List StringUnit)
  /-- An array. -/
  | array (items : List JsonTree)
  /-- An object. -/
  | object (members : List (List StringUnit × JsonTree))
  deriving Inhabited

namespace JsonTree

/-! ### Blanks, strings and numbers -/

/-- A text without the blanks at its start. -/
def skipBlanks (text : List Char) : List Char :=
  text.dropWhile fun c => c == ' ' || c == '\n' || c == '\t' || c == '\r'

/-- The value of a hexadecimal digit. -/
def hexDigit? (c : Char) : Option Nat :=
  if c.isDigit then some (c.toNat - 48)
  else if 'a' ≤ c ∧ c ≤ 'f' then some (c.toNat - 87)
  else if 'A' ≤ c ∧ c ≤ 'F' then some (c.toNat - 55)
  else none

/-- The value of four hexadecimal digits. -/
def hexUnit? (a b c d : Char) : Option Nat := do
  return 4096 * (← hexDigit? a) + 256 * (← hexDigit? b) + 16 * (← hexDigit? c) + (← hexDigit? d)

/-- The character that a backslash and another character stand for. -/
def escapeOf? (c : Char) : Option Char :=
  if c = '"' ∨ c = '\\' ∨ c = '/' then some c
  else if c = 'b' then some '\x08'
  else if c = 'f' then some '\x0c'
  else if c = 'n' then some '\n'
  else if c = 'r' then some '\r'
  else if c = 't' then some '\t'
  else none

/-- The parts of a string in front of the quote that closes it, and what follows that. -/
def stringTail? : List Char → Option (List StringUnit × List Char)
  | [] => none
  | c :: r =>
    if c = '"' then some ([], r)
    else if c.toNat < 32 then none
    else if c = '\\' then
      match r with
      | [] => none
      | e :: r =>
        if e = 'u' then
          match r with
          | a :: b :: c :: d :: r =>
            match hexUnit? a b c d with
            | some n => (stringTail? r).map fun (s, rest) => (.code n :: s, rest)
            | none => none
          | _ => none
        else
          match escapeOf? e with
          | some d => (stringTail? r).map fun (s, rest) => (.char d :: s, rest)
          | none => none
    else (stringTail? r).map fun (s, rest) => (.char c :: s, rest)

/-- Reads digits, at least one. -/
def digits? (text : List Char) : Option (List Char × List Char) :=
  let ds := text.takeWhile Char.isDigit
  if ds.isEmpty then none else some (ds, text.dropWhile Char.isDigit)

/-- Reads the digits behind a decimal point, if there is one. -/
def fraction? : List Char → Option (Option (List Char) × List Char)
  | '.' :: r => (digits? r).map fun (ds, rest) => (some ds, rest)
  | text => some (none, text)

/-- Reads an exponent, if there is one. -/
def exponent? (text : List Char) : Option (Option (Bool × List Char) × List Char) :=
  match text with
  | [] => some (none, text)
  | c :: r =>
    if c = 'e' ∨ c = 'E' then
      let negative := r.head? = some '-'
      let r := if negative ∨ r.head? = some '+' then r.drop 1 else r
      (digits? r).map fun (ds, rest) => (some (negative, ds), rest)
    else some (none, text)

/-- Reads a number behind its sign; its digits begin with a zero only if that is all of them. -/
def unsigned? (negative : Bool) (text : List Char) : Option (NumberText × List Char) := do
  let (whole, rest) ← digits? text
  if whole.head? = some '0' ∧ 1 < whole.length then none
  else
    let (fraction, rest) ← fraction? rest
    let (exponent, rest) ← exponent? rest
    return (⟨negative, whole, fraction, exponent⟩, rest)

/-- Reads a number. -/
def number? : List Char → Option (NumberText × List Char)
  | '-' :: r => unsigned? true r
  | text => unsigned? false text

/-- Reads a fixed word. -/
def word? (word : String) (text : List Char) : Option (List Char) :=
  if word.toList.isPrefixOf text then some (text.drop word.length) else none

/-! ### Values -/

/-- How something is read from the start of a text, and what follows it. -/
abbrev Reader (α : Type) : Type := List Char → Option (α × List Char)

/-- Reads what stands in front of a closing bracket, which is nothing or read by `inner` with the
bracket. -/
def untilClosed {α : Type} (close : Char) (inner : Reader (List α)) (text : List Char) :
    Option (List α × List Char) :=
  match skipBlanks text with
  | [] => none
  | c :: rest => if c = close then some ([], rest) else inner text

/-- Reads a value, when the items of an array are read with their closing bracket by `items`, and
the members of an object with its closing brace by `members`. -/
def valueWith (items : Reader (List JsonTree))
    (members : Reader (List (List StringUnit × JsonTree))) (text : List Char) :
    Option (JsonTree × List Char) :=
  match skipBlanks text with
  | [] => none
  | c :: r =>
    if c = '"' then (stringTail? r).map fun (s, rest) => (.string s, rest)
    else if c = '[' then (untilClosed ']' items r).map fun (items, rest) => (.array items, rest)
    else if c = '\x7b' then
      (untilClosed '\x7d' members r).map fun (members, rest) => (.object members, rest)
    else if c = 'n' then (word? "null" (c :: r)).map (.null, ·)
    else if c = 't' then (word? "true" (c :: r)).map (.bool true, ·)
    else if c = 'f' then (word? "false" (c :: r)).map (.bool false, ·)
    else (number? (c :: r)).map fun (n, rest) => (.number n, rest)

/-- Reads a value and what follows it in an array: more items, or the closing bracket. -/
def itemsWith (value : Reader JsonTree) (items : Reader (List JsonTree)) (text : List Char) :
    Option (List JsonTree × List Char) := do
  let (item, rest) ← value text
  match skipBlanks rest with
  | ',' :: rest =>
    let (items, rest) ← items rest
    return (item :: items, rest)
  | ']' :: rest => return ([item], rest)
  | _ => none

/-- Reads a member and what follows it in an object: more members, or the closing brace. -/
def membersWith (value : Reader JsonTree)
    (members : Reader (List (List StringUnit × JsonTree))) (text : List Char) :
    Option (List (List StringUnit × JsonTree) × List Char) := do
  match skipBlanks text with
  | '"' :: r =>
    let (key, rest) ← stringTail? r
    match skipBlanks rest with
    | ':' :: rest =>
      let (value, rest) ← value rest
      match skipBlanks rest with
      | ',' :: rest =>
        let (members, rest) ← members rest
        return ((key, value) :: members, rest)
      | '\x7d' :: rest => return ([(key, value)], rest)
      | _ => none
    | _ => none
  | _ => none

mutual

/-- Reads a value, when it has at most `fuel` characters. -/
def value? : (fuel : Nat) → Reader JsonTree
  | 0 => fun _ => none
  | fuel + 1 => valueWith (items? fuel) (members? fuel)
termination_by structural fuel => fuel

/-- Reads the items of an array, at least one, and its closing bracket. -/
def items? : (fuel : Nat) → Reader (List JsonTree)
  | 0 => fun _ => none
  | fuel + 1 => itemsWith (value? fuel) (items? fuel)
termination_by structural fuel => fuel

/-- Reads the members of an object, at least one, and its closing brace. -/
def members? : (fuel : Nat) → Reader (List (List StringUnit × JsonTree))
  | 0 => fun _ => none
  | fuel + 1 => membersWith (value? fuel) (members? fuel)
termination_by structural fuel => fuel

end

theorem value?_succ (fuel : Nat) : value? (fuel + 1) = valueWith (items? fuel) (members? fuel) :=
  rfl

theorem items?_succ (fuel : Nat) : items? (fuel + 1) = itemsWith (value? fuel) (items? fuel) :=
  rfl

theorem members?_succ (fuel : Nat) :
    members? (fuel + 1) = membersWith (value? fuel) (members? fuel) :=
  rfl

/-- The tree of a text that is one value with blanks around it. -/
def parse? (text : List Char) : Option JsonTree :=
  match value? (2 * text.length + 2) text with
  | some (tree, rest) => if (skipBlanks rest).isEmpty then some tree else none
  | none => none

end JsonTree

end FormOntology
