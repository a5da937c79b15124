import FormOntology.Json.Basic
import FormOntology.Json.Tree

/-!
# What a JSON text stands for

Strings, numbers and values of a tree.  An escape that is half of a character needs the other half
behind it.  A number without a fraction and an exponent is an integer if 64 bits hold it.  Of any
other the first digits, as far as 64 bits hold them, are rounded to double precision and then
multiplied with or divided by powers of ten, with rounding after each step.

A record with named fields is written as an object with its fields as members, or as an array of
their values in order, from which the last ones may be missing.  A field is written at most once.
Whether members with other names are allowed depends on the record; they are not looked into.

## Main definitions

* `writtenString?` — the text of a written string.
* `NumberText.value?` — the value of a written number.
* `JsonTree.value` — the value of a tree that is nested at most so deep.
* `sortedMembers` — the members of an object by key; of members with one key the last stands.
* `JsonTree.record?` — the written fields of a record.
* `JsonTree.string?`, `JsonTree.natural?`, `JsonTree.list?` — the values that fields have.
-/

namespace FormOntology

/-! ### Strings -/

/-- The character of a surrogate pair. -/
def surrogatePair (high low : Nat) : Char :=
  Char.ofNat (0x10000 + (high - 0xD800) * 1024 + (low - 0xDC00))

/-- The text of a written string; a high surrogate `high` may stand in front of it. -/
def stringText? : (high : Option Nat) → List StringUnit → Option (List Char)
  | none, [] => some []
  | some _, [] => none
  | none, .char c :: r => (stringText? none r).map (c :: ·)
  | some _, .char _ :: _ => none
  | none, .code n :: r =>
    if 0xD800 ≤ n ∧ n < 0xDC00 then stringText? (some n) r
    else if 0xDC00 ≤ n ∧ n < 0xE000 then none
    else (stringText? none r).map (Char.ofNat n :: ·)
  | some high, .code n :: r =>
    if 0xDC00 ≤ n ∧ n < 0xE000 then (stringText? none r).map (surrogatePair high n :: ·)
    else none

/-- The string of a written string. -/
def writtenString? (s : List StringUnit) : Option String := (stringText? none s).map String.ofList

/-! ### Numbers -/

/-- The greatest integer of 64 bits. -/
def maxWord : Nat := Nat.pow 2 64 - 1

/-- Appends digits to a number as long as 64 bits hold it; gives the number and the digits that
are left. -/
def appendDigits : (n : Nat) → List Char → Nat × List Char
  | n, [] => (n, [])
  | n, c :: r =>
    let m := 10 * n + (c.toNat - 48)
    if m ≤ maxWord then appendDigits m r else (n, c :: r)

/-- `n * 10 ^ e` in double precision, where a power of ten below `10 ^ -308` is divided out in
steps of at most `10 ^ 308`; what is left after `fuel` steps is zero. -/
def scaleByTen : (fuel : Nat) → Dyadic → Int → Option Dyadic
  | 0, _, _ => some .zero
  | fuel + 1, x, e => do
    if e.natAbs ≤ 308 then
      let power ← Dyadic.ofRatio? (Nat.pow 10 e.natAbs) 1
      if 0 ≤ e then x.mul? power else x.div? power
    else if x.mantissa = 0 then some x
    else if 0 ≤ e then none
    else
      let power ← Dyadic.ofRatio? (Nat.pow 10 308) 1
      scaleByTen fuel (← x.div? power) (e + 308)

namespace NumberText

/-- The greatest exponent that is told from greater ones. -/
def maxExponent : Nat := Nat.pow 2 31 - 1

/-- The exponent of ten that is written, none if it is too large to be told. -/
def writtenExponent? (n : NumberText) : Option Int :=
  match n.exponent with
  | none => some 0
  | some (negative, ds) =>
    let e := ds.foldl (fun e c => 10 * e + (c.toNat - 48)) 0
    if maxExponent < e then none else some (if negative then -e else e)

/-- The value of a number as one of double precision, when it is the number `digits` times a
power of ten besides the written one. -/
def double? (n : NumberText) (digits : Nat) (power : Int) : Option JsonNumber := do
  match n.writtenExponent? with
  | none =>
    if digits ≠ 0 ∧ n.exponent.any (!·.1) then none
    else return .double ⟨n.negative, .zero⟩
  | some e =>
    let x ← Dyadic.ofRatio? digits 1
    return .double ⟨n.negative, ← scaleByTen 4 x (power + e)⟩

/-- The value of a written number, if it is finite. -/
def value? (n : NumberText) : Option JsonNumber :=
  let (whole, dropped) := appendDigits 0 n.whole
  match n.fraction with
  | some fraction =>
    let (digits, rest) := appendDigits whole fraction
    n.double? digits (dropped.length - (fraction.length - rest.length : Nat))
  | none =>
    if dropped.isEmpty ∧ n.exponent = none then
      if !n.negative then some (.int whole)
      else if 0 < whole ∧ whole ≤ Nat.pow 2 63 then some (.int (-whole))
      else n.double? whole 0
    else n.double? whole dropped.length

end NumberText

/-! ### Values -/

/-- Members in the order of their keys with one more; it takes the place of one with its key. -/
def insertMember (key : String) (value : Json) : List (String × Json) → List (String × Json)
  | [] => [(key, value)]
  | (k, v) :: r =>
    if key < k then (key, value) :: (k, v) :: r
    else if key = k then (key, value) :: r
    else (k, v) :: insertMember key value r

/-- Members in the order of their keys; of members with one key the last stands. -/
def sortedMembers (members : List (String × Json)) : List (String × Json) :=
  members.foldl (fun sorted m => insertMember m.1 m.2 sorted) []

namespace JsonTree

/-- How deep arrays and objects may be nested in a value. -/
def maxDepth : Nat := 127

mutual

/-- The value of a tree, if it is nested at most so deep. -/
def value (depth : Nat) : JsonTree → Option Json
  | .null => some .null
  | .bool b => some (.bool b)
  | .number n => n.value?.map .number
  | .string s => (writtenString? s).map .string
  | .array items => if depth = 0 then none else (valueItems (depth - 1) items).map .array
  | .object members =>
    if depth = 0 then none
    else (valueMembers (depth - 1) members).map fun ms => .object (sortedMembers ms)
termination_by structural t => t

/-- The values of the items of an array. -/
def valueItems (depth : Nat) : List JsonTree → Option (List Json)
  | [] => some []
  | t :: r => do return (← value depth t) :: (← valueItems depth r)
termination_by structural l => l

/-- The members of an object in the order they are written. -/
def valueMembers (depth : Nat) : List (List StringUnit × JsonTree) →
    Option (List (String × Json))
  | [] => some []
  | (k, t) :: r => do
    let key ← writtenString? k
    return (key, ← value depth t) :: (← valueMembers depth r)
termination_by structural l => l

end

/-- The members of the object that a tree is, in the order they are written. -/
def objectMembers? (depth : Nat) : JsonTree → Option (List (String × Json))
  | .object members => if depth = 0 then none else valueMembers (depth - 1) members
  | _ => none

/-! ### Records -/

/-- The fields that the members of an object are, if each has a name of its own among `names`;
with `lenient` members with other names are passed over. -/
def fieldMembers? (names : List String) (lenient : Bool) :
    List (List StringUnit × JsonTree) → Option (List (String × JsonTree))
  | [] => some []
  | (k, t) :: r =>
    match writtenString? k, fieldMembers? names lenient r with
    | some key, some fields =>
      if names.contains key then
        if (fields.lookup key).isSome then none else some ((key, t) :: fields)
      else if lenient then some fields
      else none
    | _, _ => none

/-- The written fields of a record with these field names. -/
def record? (names : List String) (lenient : Bool) : JsonTree → Option (List (String × JsonTree))
  | .object members => fieldMembers? names lenient members
  | .array items => if items.length ≤ names.length then some (names.zip items) else none
  | _ => none

/-- The string that a tree is. -/
def string? : JsonTree → Option String
  | .string s => writtenString? s
  | _ => none

/-- The natural number of 64 bits that a tree is. -/
def natural? : JsonTree → Option Nat
  | .number n =>
    match n.value? with
    | some (.int (.ofNat k)) => some k
    | _ => none
  | _ => none

/-- The items of the array that a tree is, each read by `item?`. -/
def list? {α : Type} (item? : JsonTree → Option α) : JsonTree → Option (List α)
  | .array items => items.mapM item?
  | _ => none

/-- The value of a field; `default` if it is not written. -/
def fieldOr {α : Type} (fields : List (String × JsonTree)) (name : String)
    (read? : JsonTree → Option α) (default : α) : Option α :=
  match fields.lookup name with
  | some t => read? t
  | none => some default

end JsonTree

end FormOntology
