import FormOntology.Pattern.Bracket
import FormOntology.Pattern.Library

/-!
# Reading patterns

A reader of written patterns, which the programs run with as their library.  A pattern is read from
left to right: alternatives of sequences of repeated atoms and groups.  Flags hold from where they
are set to the end of the group they are set in.  A pattern is refused when it is nested too deep,
whereas the space that a machine for it would need is not limited.  Of the properties of characters
the reader knows the categories, the scripts and some more.

## Main definitions

* `PatternPart` — a pattern with how deep it is nested.
* `readCount` — the counts of a repetition in braces.
* `readGroupStart` — what stands behind an opening parenthesis.
* `readAlternatives` — the body of a group, or of the whole pattern.
* `Pattern.parse` — the pattern of a text.
-/

namespace FormOntology

/-! ### Parts -/

/-- A pattern that was read. -/
structure PatternPart where
  /-- The pattern. -/
  pattern : Pattern
  /-- How deep groups, repetitions, classes, sequences and alternatives are nested. -/
  depth : Nat := 0
  /-- Whether it only sets flags, so that it cannot be repeated. -/
  isDirective : Bool := false
  deriving Inhabited

namespace PatternPart

/-- How deep a pattern may be nested. -/
def depthLimit : Nat := 250

/-- The part that matches the empty text. -/
def empty : PatternPart := { pattern := .empty }

/-- One pattern after another; the last comes first in the list. -/
def sequence : List PatternPart → PatternPart
  | [] => empty
  | [p] => p
  | items =>
    { pattern := items.foldl (fun q p => .cat p.pattern q) .empty
      depth := (items.map depth).foldl max 0 + 1 }

/-- One pattern or another; the last comes first in the list. -/
def alternatives : List PatternPart → PatternPart
  | [] => empty
  | [p] => p
  | p :: items =>
    { pattern := items.foldl (fun q r => .alt r.pattern q) p.pattern
      depth := ((p :: items).map depth).foldl max 0 + 1 }

/-- A group. -/
def group (p : PatternPart) : PatternPart := { pattern := p.pattern, depth := p.depth + 1 }

/-- A repetition. -/
def times (least : Nat) (most : Option Nat) (p : PatternPart) : PatternPart :=
  { pattern := .times least most p.pattern, depth := p.depth + 1 }

end PatternPart

/-! ### Counts -/

/-- Reads a number below 2³²; blanks may stand around it. -/
def readNumber (verbose : Bool) (text : List Char) :
    Except PatternError (Option Nat × List Char) :=
  let (digits, rest) := collect verbose Char.isDigit false (Text.trimStart text)
  let n := digits.foldl (fun n c => 10 * n + (c.toNat - 48)) 0
  if digits.isEmpty then .ok (none, Text.trimStart rest)
  else if n < Nat.pow 2 32 then .ok (some n, Text.trimStart rest)
  else .error .badCount

/-- The least and the most count of a repetition, without its opening brace; gives what follows
its closing brace. -/
def readCount (verbose : Bool) (text : List Char) :
    Except PatternError (Nat × Option Nat × List Char) := do
  let (least, rest) ← readNumber verbose (skipSpace verbose text)
  match least with
  | none => .error .badCount
  | some n =>
    match rest with
    | '\x7d' :: rest => return (n, some n, rest)
    | ',' :: rest =>
      let rest := skipSpace verbose rest
      if rest.head? = some '\x7d' then return (n, none, rest.drop 1)
      else
        match ← readNumber verbose rest with
        | (some m, '\x7d' :: rest) =>
          if n ≤ m then return (n, some m, rest) else .error .badCount
        | _ => .error .badCount
    | _ => .error .badCount

/-! ### Groups -/

/-- Whether a character can stand in the name of a group. -/
def isGroupNameChar (first : Bool) (c : Char) : Bool :=
  if first then c == '_' || Unicode.isAlphabetic c
  else c == '_' || c == '.' || c == '[' || c == ']' || Unicode.isAlphanumeric c

/-- The name of a group in front of `>`, and what follows that. -/
def readGroupName (text : List Char) : Except PatternError (List Char × List Char) :=
  let name := text.takeWhile (· != '>')
  match text.dropWhile (· != '>'), name with
  | _ :: rest, c :: r =>
    if isGroupNameChar true c && r.all (isGroupNameChar false) then .ok (name, rest)
    else .error .groupName
  | _, _ => .error .groupName

/-- The flags with one of them set or reset. -/
def PatternFlags.set? (f : PatternFlags) (value : Bool) (c : Char) : Option PatternFlags :=
  if c = 'i' then some { f with ignoreCase := value }
  else if c = 'm' then some { f with multiLine := value }
  else if c = 's' then some { f with dotAll := value }
  else if c = 'U' then some { f with swapGreed := value }
  else if c = 'u' then some { f with unicode := value }
  else if c = 'R' then some { f with returns := value }
  else if c = 'x' then some { f with verbose := value }
  else none

/-- Reads flags up to a colon or a closing parenthesis; `seen` are the characters read so far, the
last one first.  Gives the flags, whether there was any, whether a colon ended them, and what
follows. -/
def readFlags (f : PatternFlags) : (seen : List Char) → List Char →
    Except PatternError (PatternFlags × Bool × Bool × List Char)
  | _, [] => .error .unexpectedEnd
  | seen, c :: r =>
    if c = ':' ∨ c = ')' then
      if seen.head? = some '-' then .error .badFlags
      else .ok (f, !seen.isEmpty, c == ':', r)
    else if seen.contains c then .error .badFlags
    else if c = '-' then readFlags f (c :: seen) r
    else
      match f.set? (!seen.contains '-') c with
      | none => .error .badFlags
      | some f => readFlags f (c :: seen) r

/-- What an opening parenthesis begins. -/
inductive GroupStart where
  /-- A group with the flags inside it and its name, if it has one. -/
  | group (flags : PatternFlags) (name : Option (List Char))
  /-- Flags for what follows. -/
  | directive (flags : PatternFlags)

/-- Reads what stands behind an opening parenthesis. -/
def readGroupStart (f : PatternFlags) (text : List Char) :
    Except PatternError (GroupStart × List Char) := do
  match skipSpace f.verbose text with
  | '?' :: '=' :: _ | '?' :: '!' :: _ | '?' :: '<' :: '=' :: _ | '?' :: '<' :: '!' :: _ =>
    .error .lookAround
  | '?' :: 'P' :: '<' :: r | '?' :: '<' :: r =>
    let (name, rest) ← readGroupName r
    return (.group f (some name), rest)
  | '?' :: r =>
    match ← readFlags f [] r with
    | (g, _, true, rest) => return (.group g none, rest)
    | (g, true, false, rest) => return (.directive g, rest)
    | (_, false, false, _) => .error .nothingToRepeat
  | r => return (.group f none, r)

/-! ### Bodies -/

/-- An atom as a part. -/
def Atom.toPart (f : PatternFlags) : Atom → Except PatternError PatternPart
  | .literal c byte => do return { pattern := .one (← f.literalSet c byte) }
  | .set s => do return { pattern := .one (← f.finish s) }
  | .look l => .ok { pattern := .look l }
  | .dot => do return { pattern := .one (← f.dotSet) }

/-- The sign in front of a repetition of any count, as its least and its most count. -/
def repetition? (c : Char) : Option (Nat × Option Nat) :=
  if c = '?' then some (0, some 1)
  else if c = '*' then some (0, none)
  else if c = '+' then some (1, none)
  else none

/-- A text without the question mark that makes a repetition lazy. -/
def dropLazy (text : List Char) : List Char :=
  if text.head? = some '?' then text.drop 1 else text

/-- The last of the parts repeated. -/
def repeatLast (least : Nat) (most : Option Nat) :
    List PatternPart → Except PatternError (List PatternPart)
  | [] => .error .nothingToRepeat
  | p :: items =>
    if p.isDirective then .error .nothingToRepeat else .ok (p.times least most :: items)

/-- What was read of a body. -/
structure OpenBody where
  /-- The flags in force. -/
  flags : PatternFlags
  /-- The names of groups that are taken. -/
  names : List (List Char)
  /-- The alternatives that are finished, the last one first. -/
  branches : List PatternPart := []
  /-- The parts of the alternative being read, the last one first. -/
  items : List PatternPart := []

namespace OpenBody

/-- A body with one more part. -/
def push (b : OpenBody) (p : PatternPart) : OpenBody := { b with items := p :: b.items }

/-- The part that a body is. -/
def close (b : OpenBody) : PatternPart :=
  .alternatives (.sequence b.items :: b.branches)

end OpenBody

/-- The condition that `^` and `$` stand for. -/
def PatternFlags.anchor (f : PatternFlags) (start : Bool) : Look :=
  match start, f.multiLine with
  | true, false => .startText
  | true, true => .startLine f.returns
  | false, false => .endText
  | false, true => .endLine f.returns

/-- Reads a body, of which `b` was read, up to the parenthesis that closes it or to the end.
Gives the part it is, the names that are taken, and what follows. -/
def readAlternatives : (fuel : Nat) → OpenBody → List Char →
    Except PatternError (PatternPart × List (List Char) × List Char)
  | 0, _, _ => .error .unexpectedEnd
  | fuel + 1, b, text => do
    let f := b.flags
    match skipSpace f.verbose text with
    | [] => return (b.close, b.names, [])
    | c :: r =>
      if c = ')' then return (b.close, b.names, c :: r)
      else if c = '(' then
        match ← readGroupStart f r with
        | (.directive flags, rest) =>
          let directive : PatternPart := { pattern := .empty, isDirective := true }
          readAlternatives fuel { b.push directive with flags := flags } rest
        | (.group flags name, rest) =>
          if name.any (b.names.contains ·) then .error .groupName
          else
            let names := name.toList ++ b.names
            match ← readAlternatives fuel { flags := flags, names := names } rest with
            | (body, names, ')' :: rest) =>
              readAlternatives fuel { b.push body.group with names := names } rest
            | _ => .error .unclosedGroup
      else if c = '|' then
        readAlternatives fuel { b with branches := .sequence b.items :: b.branches, items := [] } r
      else if c = '[' then
        let (inner, rest) ← openBracket f r
        let (s, depth, rest) ← readBracket f fuel inner rest
        let part ← (Atom.set s).toPart f
        readAlternatives fuel (b.push { part with depth := depth }) rest
      else if c = '\x7b' then
        if b.items.isEmpty then .error .nothingToRepeat
        else
          let (least, most, rest) ← readCount f.verbose r
          let items ← repeatLast least most b.items
          readAlternatives fuel { b with items := items } (dropLazy (skipSpace f.verbose rest))
      else
        match repetition? c with
        | some (least, most) =>
          let items ← repeatLast least most b.items
          readAlternatives fuel { b with items := items } (dropLazy r)
        | none =>
          let (atom, rest) ←
            if c = '\\' then readEscape f r
            else if c = '.' then .ok (.dot, r)
            else if c = '^' then .ok (.look (f.anchor true), r)
            else if c = '$' then .ok (.look (f.anchor false), r)
            else .ok (.literal c false, r)
          readAlternatives fuel (b.push (← atom.toPart f)) rest

/-- The pattern of a text. -/
def Pattern.parse (text : List Char) : Except PatternError Pattern := do
  match ← readAlternatives (text.length + 1) { flags := {}, names := [] } text with
  | (part, _, []) =>
    if PatternPart.depthLimit < part.depth then .error .nestedTooDeep else return part.pattern
  | _ => .error .unopenedGroup

/-- The reader as a library.  It says the same of every error. -/
instance : PatternLibrary where
  Compiled := Pattern
  compile text := (Pattern.parse text).mapError fun _ => "<regex error>"
  Matches r text := r.Matches text
  isMatch := Pattern.occursIn

end FormOntology
