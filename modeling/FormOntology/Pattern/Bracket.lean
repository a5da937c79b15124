import FormOntology.Pattern.Atom

/-!
# Classes in brackets

A class in brackets lists characters, ranges, other classes and classes in brackets of their own.
Parts of it may be combined by `&&`, `--` and `~~`, from left to right.

## Main definitions

* `ClassPart` — a set and how deep its parts are nested.
* `asciiClass?` — a class such as `[:alpha:]`.
* `readBracket` — the class behind an opening bracket.
-/

namespace FormOntology

/-- Characters listed so far: how many parts they were listed in, and how deep these are nested. -/
structure ClassPart where
  /-- The characters. -/
  set : CharSet
  /-- The number of parts. -/
  count : Nat
  /-- The greatest depth of a part. -/
  depth : Nat

namespace ClassPart

/-- No character. -/
def empty : ClassPart := ⟨fun _ => false, 0, 0⟩

/-- A part more. -/
def add (p : ClassPart) (s : CharSet) (depth : Nat) : ClassPart :=
  ⟨fun c => p.set c || s c, p.count + 1, max p.depth depth⟩

/-- How deep a list of parts is nested: a list of two or more is a level of its own. -/
def level (p : ClassPart) : Nat := if p.count ≤ 1 then p.depth else p.depth + 1

end ClassPart

/-- How two sets are combined. -/
inductive ClassOp where
  /-- The characters of both. -/
  | intersection
  /-- The characters of the first alone. -/
  | difference
  /-- The characters of exactly one. -/
  | symmetricDifference
  deriving DecidableEq, Repr

/-- The combination of two sets. -/
def ClassOp.apply : ClassOp → CharSet → CharSet → CharSet
  | intersection, a, b => fun c => a c && b c
  | difference, a, b => fun c => a c && !b c
  | symmetricDifference, a, b => fun c => a c != b c

/-- What was read of a class in brackets. -/
structure OpenClass where
  /-- Whether the class is negated. -/
  negated : Bool
  /-- What stands in front of the last sign that combines sets. -/
  pending : Option (ClassOp × CharSet × Nat)
  /-- The parts behind it. -/
  parts : ClassPart

/-- The set of an open class up to here, and how deep it is nested. -/
def OpenClass.value (f : PatternFlags) (o : OpenClass) : CharSet × Nat :=
  match o.pending with
  | none => (o.parts.set, o.parts.level)
  | some (op, left, depth) =>
    (op.apply (f.fold left) (f.fold o.parts.set), max depth o.parts.level + 1)

/-- The classes of ASCII characters with a name. -/
def asciiSet? (name : List Char) : Option CharSet :=
  let punct (c : Char) : Bool := 33 ≤ c.toNat && c.toNat ≤ 126 && !c.isAlphanum
  let blank (c : Char) : Bool := c == ' ' || c == '\t'
  let table : List (String × CharSet) :=
    [("alnum", Char.isAlphanum), ("alpha", Char.isAlpha), ("ascii", (·.toNat < 128)),
     ("blank", blank), ("cntrl", fun c => c.toNat < 32 || c.toNat == 127),
     ("digit", Char.isDigit), ("graph", fun c => 33 ≤ c.toNat && c.toNat ≤ 126),
     ("lower", Char.isLower), ("print", fun c => 32 ≤ c.toNat && c.toNat ≤ 126),
     ("punct", punct), ("space", fun c => Text.isBlank c && c.toNat < 128),
     ("upper", Char.isUpper), ("word", isAsciiWord),
     ("xdigit", fun c => (hexValue? c).isSome)]
  table.lookup (String.ofList name)

/-- The class such as `[:alpha:]` or `[:^alpha:]` whose first bracket was read, whether it is
negated, and what follows it. -/
def asciiClass? (text : List Char) : Option (CharSet × Bool × List Char) :=
  match text with
  | ':' :: r =>
    let negated := r.head? = some '^'
    let r := if negated then r.drop 1 else r
    match r.dropWhile (· != ':') with
    | ':' :: ']' :: rest => (asciiSet? (r.takeWhile (· != ':'))).map (·, negated, rest)
    | _ => none
  | _ => none

/-- The set of a class with a name under the flags; only Unicode folds it. -/
def asciiClassSet (f : PatternFlags) (s : CharSet) (negated : Bool) : CharSet :=
  let s := if f.unicode then f.fold s else s
  if negated then f.complement s else s

/-- The hyphens at the start of a class stand for themselves, and so does a closing bracket
without one in front of it. -/
def readLeading (verbose : Bool) : (fuel : Nat) → ClassPart → List Char →
    Except PatternError (ClassPart × List Char)
  | 0, _, _ => .error .unexpectedEnd
  | _ + 1, _, [] => .error .unexpectedEnd
  | fuel + 1, p, c :: r =>
    let rest := skipSpace verbose r
    if c = '-' then readLeading verbose fuel (p.add (· == '-') 0) rest
    else if c = ']' ∧ p.count = 0 then
      if rest.isEmpty then .error .unexpectedEnd else .ok (p.add (· == ']') 0, rest)
    else .ok (p, c :: r)

/-- The start of a class, behind its opening bracket. -/
def openBracket (f : PatternFlags) (text : List Char) :
    Except PatternError (OpenClass × List Char) := do
  let text := skipSpace f.verbose text
  let negated := text.head? = some '^'
  let text := if negated then skipSpace f.verbose (text.drop 1) else text
  let (parts, rest) ← readLeading f.verbose (text.length + 1) .empty text
  return (⟨negated, none, parts⟩, rest)

/-- One character, escape or class of a list. -/
def readClassAtom (f : PatternFlags) : List Char → Except PatternError (Atom × List Char)
  | [] => .error .unexpectedEnd
  | c :: r => if c = '\\' then readEscape f r else .ok (.literal c false, r)

/-- The set of a literal in a list, before case is folded. -/
def listedLiteral (f : PatternFlags) (c : Char) : Except PatternError CharSet :=
  if f.unicode || c.toNat < 128 then .ok (· == c) else .error .notUnicode

/-- What stands behind a hyphen, as far as it tells whether the hyphen makes a range. -/
def behindHyphen (verbose : Bool) (text : List Char) : Option Char :=
  if verbose then
    let text := Text.trimStart text
    if text.head? = some '#' then (Text.trimStart (text.drop 1)).head? else text.head?
  else text.head?

/-- Reads a part of a list: a range, or one character or class. -/
def readListed (f : PatternFlags) (text : List Char) :
    Except PatternError (CharSet × List Char) := do
  let (first, rest) ← readClassAtom f text
  let rest := skipSpace f.verbose rest
  let alone : Except PatternError (CharSet × List Char) :=
    match first with
    | .literal c _ => (listedLiteral f c).map (·, rest)
    | .set s => .ok (s, rest)
    | _ => .error .badClass
  match rest with
  | [] => .error .unexpectedEnd
  | d :: tail =>
    let next := behindHyphen f.verbose tail
    if d != '-' || next == some ']' || next == some '-' then alone
    else
      match skipSpace f.verbose tail with
      | [] => .error .unexpectedEnd
      | tail =>
        let (last, rest) ← readClassAtom f tail
        match first, last with
        | .literal a _, .literal b _ =>
          if b < a then .error .badClass
          else
            let _ ← listedLiteral f a
            let _ ← listedLiteral f b
            return (fun c => a ≤ c && c ≤ b, rest)
        | _, _ => .error .badClass

/-- The sign that combines sets at the start of a text. -/
def classOp? : List Char → Option ClassOp
  | '&' :: '&' :: _ => some .intersection
  | '-' :: '-' :: _ => some .difference
  | '~' :: '~' :: _ => some .symmetricDifference
  | _ => none

/-- Reads a class in brackets, of which `o` was read; gives its set, how deep it is nested, and
what follows it. -/
def readBracket (f : PatternFlags) : (fuel : Nat) → OpenClass → List Char →
    Except PatternError (CharSet × Nat × List Char)
  | 0, _, _ => .error .unexpectedEnd
  | fuel + 1, o, text => do
    let text := skipSpace f.verbose text
    match text, classOp? text with
    | [], _ => .error .unexpectedEnd
    | _ :: r, some op =>
      let (left, depth) := o.value f
      readBracket f fuel { o with pending := some (op, left, depth), parts := .empty } (r.drop 1)
    | c :: r, none =>
      if c = '[' then
        match asciiClass? r with
        | some (s, negated, rest) =>
          let part := asciiClassSet f s negated
          readBracket f fuel { o with parts := o.parts.add part 0 } rest
        | none =>
          let (inner, rest) ← openBracket f r
          let (s, depth, rest) ← readBracket f fuel inner rest
          readBracket f fuel { o with parts := o.parts.add s depth } rest
      else if c = ']' then
        let (s, depth) := o.value f
        return (← f.close o.negated s, depth + 1, r)
      else
        let (s, rest) ← readListed f text
        readBracket f fuel { o with parts := o.parts.add s 0 } rest

end FormOntology
