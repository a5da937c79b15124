import FormOntology.Json.Tree

/-!
# Socket addresses

An address to listen at is an IP address and a port: `127.0.0.1:80`, or `[::1]:80` with the longer
addresses of version 6.  An address can be written in many ways and is printed in one: numbers
without zeros in front, and the first of the longest runs of zero groups as `::`.

## Main definitions

* `SocketAddress` — addresses.
* `SocketAddress.parse?`, `SocketAddress.text` — how they are read and printed.
-/

namespace FormOntology

/-- An IP address and a port. -/
inductive SocketAddress where
  /-- Four bytes. -/
  | v4 (bytes : List Nat) (port : Nat)
  /-- Eight groups of sixteen bits, and a scope, zero if there is none. -/
  | v6 (groups : List Nat) (scope : Nat) (port : Nat)
  deriving DecidableEq, Repr, Inhabited

namespace SocketAddress

/-! ### Reading -/

/-- The value of a decimal digit. -/
def decimalDigit? (c : Char) : Option Nat := if c.isDigit then some (c.toNat - 48) else none

/-- Reads all digits at the start of a text as a number to the base `base` up to `limit`. -/
def number? (base : Nat) (digit? : Char → Option Nat) (limit : Nat) (text : List Char) :
    Option (Nat × List Char) :=
  let digits := text.takeWhile fun c => (digit? c).isSome
  let n := digits.foldl (fun n c => base * n + (digit? c).getD 0) 0
  if digits.isEmpty || limit < n then none else some (n, text.drop digits.length)

/-- Reads a byte in decimal, without zeros in front. -/
def byte? (text : List Char) : Option (Nat × List Char) := do
  let (n, rest) ← number? 10 decimalDigit? 255 text
  if text.head? = some '0' ∧ text.length ≠ rest.length + 1 then none else some (n, rest)

/-- Reads a group: up to four hexadecimal digits. -/
def group? (text : List Char) : Option (Nat × List Char) := do
  let (n, rest) ← number? 16 JsonTree.hexDigit? 0xFFFF text
  if rest.length + 4 < text.length then none else some (n, rest)

/-- Reads a mark and then what `read?` reads. -/
def after? {α : Type} (mark : Char) (read? : List Char → Option (α × List Char)) :
    List Char → Option (α × List Char)
  | [] => none
  | c :: r => if c = mark then read? r else none

/-- Reads the four bytes of an address of version 4. -/
def bytes? (text : List Char) : Option (List Nat × List Char) := do
  let (a, rest) ← byte? text
  let (b, rest) ← after? '.' byte? rest
  let (c, rest) ← after? '.' byte? rest
  let (d, rest) ← after? '.' byte? rest
  return ([a, b, c, d], rest)

/-- Bytes in pairs as groups. -/
def pairs : List Nat → List Nat
  | a :: b :: r => (256 * a + b) :: pairs r
  | _ => []

/-- Reads groups with colons between them, at most `room`; the last two may be written as four
bytes.  The result tells whether they are. -/
def groups : (first : Bool) → (room : Nat) → List Char → List Nat × Bool × List Char
  | _, 0, text => ([], false, text)
  | first, room + 1, text =>
    let bytes := if first then bytes? text else after? ':' bytes? text
    match if 0 < room then bytes else none with
    | some (bytes, rest) => (pairs bytes, true, rest)
    | none =>
      match if first then group? text else after? ':' group? text with
      | some (g, rest) =>
        let (more, embedded, rest) := groups false room rest
        (g :: more, embedded, rest)
      | none => ([], false, text)

/-- Reads the eight groups of an address of version 6; a double colon stands for as many zeros as
are missing, at least one. -/
def groups? (text : List Char) : Option (List Nat × List Char) :=
  match groups true 8 text with
  | (head, embedded, rest) =>
    if head.length = 8 then some (head, rest)
    else if embedded then none
    else
      match rest with
      | ':' :: ':' :: rest =>
        let (tail, _, rest) := groups true (7 - head.length) rest
        some (head ++ List.replicate (8 - head.length - tail.length) 0 ++ tail, rest)
      | _ => none

/-- Reads a colon and a port. -/
def port? (text : List Char) : Option (Nat × List Char) :=
  after? ':' (number? 10 decimalDigit? 0xFFFF) text

/-- The address of version 4 that a text is. -/
def parseV4? (text : List Char) : Option SocketAddress := do
  let (bytes, rest) ← bytes? text
  let (port, rest) ← port? rest
  if rest.isEmpty then some (.v4 bytes port) else none

/-- The address of version 6 that a text is. -/
def parseV6? (text : List Char) : Option SocketAddress := do
  let (groups, rest) ← after? '[' groups? text
  let (scope, rest) := (after? '%' (number? 10 decimalDigit? 0xFFFFFFFF) rest).getD (0, rest)
  let (port, rest) ← after? ']' port? rest
  if rest.isEmpty then some (.v6 groups scope port) else none

/-- The address that a text is. -/
def parse? (text : String) : Option SocketAddress :=
  (parseV4? text.toList).or (parseV6? text.toList)

/-! ### Printing -/

/-- Bytes with full stops between them. -/
def bytesText (bytes : List Nat) : String := String.intercalate "." (bytes.map toString)

/-- Groups with colons between them. -/
def groupsText (groups : List Nat) : String :=
  String.intercalate ":" (groups.map fun n => String.ofList (Nat.toDigits 16 n))

/-- The number of zeros from the place `i` on. -/
def zerosAt (groups : List Nat) (i : Nat) : Nat := ((groups.drop i).takeWhile (· == 0)).length

/-- The place of the first of the longest runs of zeros. -/
def longestZeros (groups : List Nat) : Nat :=
  (List.range groups.length).foldl
    (fun best i => if zerosAt groups best < zerosAt groups i then i else best) 0

/-- How the groups of an address are printed; one that stands for four bytes of version 4 shows
these. -/
def addressText (groups : List Nat) : String :=
  match groups with
  | [0, 0, 0, 0, 0, 0xFFFF, x, y] =>
    "::ffff:" ++ bytesText [x / 256, x % 256, y / 256, y % 256]
  | _ =>
    let start := longestZeros groups
    let count := zerosAt groups start
    if 1 < count then
      groupsText (groups.take start) ++ "::" ++ groupsText (groups.drop (start + count))
    else groupsText groups

/-- How an address is printed. -/
def text : SocketAddress → String
  | v4 bytes port => bytesText bytes ++ ":" ++ toString port
  | v6 groups scope port =>
    let scopeText := if scope = 0 then "" else "%" ++ toString scope
    "[" ++ addressText groups ++ scopeText ++ "]:" ++ toString port

end SocketAddress

end FormOntology
