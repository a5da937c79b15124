import FormOntology.Pattern.Basic
import FormOntology.Unicode.Folding

/-!
# Atoms of written patterns

An atom is what stands for one character or one condition: a literal character, an escape, a class
such as `\d` or `\p{L}`, the full stop, or an anchor.  How an atom is read depends on the flags
that are in force; in verbose text blanks and `#` comments count as nothing.

## Main definitions

* `PatternError` — why a text is no pattern.
* `PatternFlags` — the flags in force.
* `skipSpace`, `collect` — reading verbose text.
* `Atom`, `readEscape` — atoms, and reading what stands behind a backslash.
* `PatternFlags.literalSet`, `PatternFlags.close` — the characters of a literal and of a class
  under the flags.
-/

namespace FormOntology

/-- Why a text is no pattern. -/
inductive PatternError where
  /-- The text ends inside an escape, a class, a group or a count. -/
  | unexpectedEnd
  /-- A group is not closed. -/
  | unclosedGroup
  /-- A parenthesis closes no group. -/
  | unopenedGroup
  /-- Conditions on the text around are not supported. -/
  | lookAround
  /-- References to groups are not supported. -/
  | backReference
  /-- The name of a group is empty, not well formed or taken. -/
  | groupName
  /-- A flag is unknown, repeated or missing behind a hyphen. -/
  | badFlags
  /-- There is nothing to repeat. -/
  | nothingToRepeat
  /-- A count is missing, too large or not closed, or the least is above the most. -/
  | badCount
  /-- An escape is unknown or not well formed. -/
  | badEscape
  /-- A class has a part that stands for no characters, or a range that is turned round. -/
  | badClass
  /-- A property of characters is unknown. -/
  | unknownProperty
  /-- Without Unicode the atom would match a part of a character. -/
  | notUnicode
  /-- Groups, repetitions and classes are nested too deep. -/
  | nestedTooDeep
  deriving DecidableEq, Repr, Inhabited

/-- The flags in force at a place of a pattern. -/
structure PatternFlags where
  /-- Upper and lower case are the same. -/
  ignoreCase : Bool := false
  /-- `^` and `$` stand at lines. -/
  multiLine : Bool := false
  /-- The full stop matches a line feed. -/
  dotAll : Bool := false
  /-- Lazy and greedy repetition are exchanged. -/
  swapGreed : Bool := false
  /-- Classes and words are those of Unicode. -/
  unicode : Bool := true
  /-- A carriage return ends a line. -/
  returns : Bool := false
  /-- Blanks and comments count as nothing. -/
  verbose : Bool := false
  deriving DecidableEq, Repr, Inhabited

/-! ### Verbose text -/

/-- A text without the blanks and comments at its start; `comment` tells whether it begins inside
a comment. -/
def dropSpace : (comment : Bool) → List Char → List Char
  | _, [] => []
  | true, c :: r => dropSpace (c != '\n') r
  | false, c :: r =>
    if Text.isBlank c then dropSpace false r
    else if c = '#' then dropSpace true r
    else c :: r

/-- A text without what counts as nothing at its start. -/
def skipSpace (verbose : Bool) (text : List Char) : List Char :=
  if verbose then dropSpace false text else text

/-- The characters in front of the first that fails `p`, without what counts as nothing, and what
follows them. -/
def collect (verbose : Bool) (p : Char → Bool) : (comment : Bool) → List Char →
    List Char × List Char
  | _, [] => ([], [])
  | true, c :: r => collect verbose p (c != '\n') r
  | false, c :: r =>
    if verbose && Text.isBlank c then collect verbose p false r
    else if verbose && c == '#' then collect verbose p true r
    else if p c then
      let q := collect verbose p false r
      (c :: q.1, q.2)
    else ([], c :: r)

/-! ### Sets under the flags -/

/-- What an atom stands for. -/
inductive Atom where
  /-- A character; `byte` tells whether it was written as a byte of two hexadecimal digits. -/
  | literal (c : Char) (byte : Bool)
  /-- The characters of a class. -/
  | set (s : CharSet)
  /-- A condition. -/
  | look (l : Look)
  /-- Any character, with the exception of line ends. -/
  | dot

/-- A set with all case variants of its characters. -/
def foldSet (s : CharSet) : CharSet := fun c => (Unicode.caseVariants c).any s

/-- A set of ASCII characters with both cases of its letters. -/
def foldAsciiSet (s : CharSet) : CharSet := fun c => s c || s c.toLower || s c.toUpper

namespace PatternFlags

/-- A set under the flag for case. -/
def fold (f : PatternFlags) (s : CharSet) : CharSet :=
  if !f.ignoreCase then s else if f.unicode then foldSet s else foldAsciiSet s

/-- The complement of a set: of the bytes only, when Unicode is off. -/
def complement (f : PatternFlags) (s : CharSet) : CharSet := fun c =>
  !s c && (f.unicode || c.toNat < 256)

/-- Whether a set has no byte beyond ASCII. -/
def isAsciiSet (s : CharSet) : Bool :=
  (List.range 128).all fun n => !s (Char.ofNat (128 + n))

/-- A finished set, which is refused when Unicode is off and it has a byte beyond ASCII. -/
def finish (f : PatternFlags) (s : CharSet) : Except PatternError CharSet :=
  if f.unicode || isAsciiSet s then .ok s else .error .notUnicode

/-- The set of a class: folded, then turned into its complement if it is negated. -/
def close (f : PatternFlags) (negated : Bool) (s : CharSet) : Except PatternError CharSet :=
  let folded := f.fold s
  f.finish (if negated then f.complement folded else folded)

/-- The characters that a literal matches. -/
def literalSet (f : PatternFlags) (c : Char) (byte : Bool) : Except PatternError CharSet :=
  if !f.unicode && byte && 128 ≤ c.toNat then .error .notUnicode
  else if !f.unicode && 128 ≤ c.toNat then .ok (· == c)
  else .ok (f.fold (· == c))

/-- The characters that the full stop matches. -/
def dotSet (f : PatternFlags) : Except PatternError CharSet :=
  if !f.unicode then .error .notUnicode
  else if f.dotAll then .ok fun _ => true
  else if f.returns then .ok fun c => c != '\n' && c != '\r'
  else .ok (· != '\n')

end PatternFlags

/-! ### Escapes -/

/-- The characters with a meaning of their own in patterns. -/
def isMetaChar (c : Char) : Bool := "\\.+*?()|[]\x7b\x7d^$#&-~".contains c

/-- Whether a backslash in front of a character makes it a literal. -/
def isPlainEscape (c : Char) : Bool :=
  isMetaChar c || (c.toNat < 128 && !c.isAlphanum && c != '<' && c != '>')

/-- The value of a hexadecimal digit of either case. -/
def hexValue? (c : Char) : Option Nat :=
  if c.isDigit then some (c.toNat - 48)
  else if 'a' ≤ c ∧ c ≤ 'f' then some (c.toNat - 87)
  else if 'A' ≤ c ∧ c ≤ 'F' then some (c.toNat - 55)
  else none

/-- The character with a number, if there is one. -/
def charOfNat? (n : Nat) : Option Char := if n.isValidChar then some (Char.ofNat n) else none

/-- Reads `n` hexadecimal digits behind those of value `value`. -/
def readHexDigits (verbose : Bool) : (n value : Nat) → List Char →
    Except PatternError (Nat × List Char)
  | 0, value, text => .ok (value, text)
  | _ + 1, _, [] => .error .unexpectedEnd
  | n + 1, value, c :: r =>
    match hexValue? c with
    | none => .error .badEscape
    | some d => readHexDigits verbose n (16 * value + d) (skipSpace verbose r)

/-- Reads a character by its number; `digits` is how many there are without braces. -/
def readHex (verbose : Bool) (digits : Nat) (text : List Char) :
    Except PatternError (Atom × List Char) := do
  let text := skipSpace verbose text
  if text.head? = some '\x7b' then
    let (written, rest) := collect verbose (· != '\x7d') false (text.drop 1)
    if rest.isEmpty then .error .unexpectedEnd
    else if written.isEmpty || !written.all (hexValue? · |>.isSome) then .error .badEscape
    else
      match charOfNat? (written.foldl (fun n c => 16 * n + (hexValue? c).getD 0) 0) with
      | none => .error .badEscape
      | some c => .ok (.literal c false, skipSpace verbose (rest.drop 1))
  else
    let (n, rest) ← readHexDigits verbose digits 0 text
    match charOfNat? n with
    | none => .error .badEscape
    | some c => .ok (.literal c (digits == 2), rest)

/-- A text cut at the first place where `word` stands. -/
def splitAt? (word : List Char) : List Char → Option (List Char × List Char)
  | [] => none
  | c :: r =>
    if word.isPrefixOf (c :: r) then some ([], (c :: r).drop word.length)
    else (splitAt? word r).map fun (a, b) => (c :: a, b)

/-- The characters of the property that a name in braces tells, and whether the sign between a
name and a value negates. -/
def namedProperty? (name : List Char) : Option (CharSet × Bool) :=
  let valued (negated : Bool) : List Char × List Char → Option (CharSet × Bool) :=
    fun (n, v) => (Unicode.valueProperty? n v).map (·, negated)
  match splitAt? ['!', '='] name, splitAt? [':'] name, splitAt? ['='] name with
  | some p, _, _ => valued true p
  | none, some p, _ => valued false p
  | none, none, some p => valued false p
  | none, none, none => (Unicode.property? name).map (·, false)

/-- Reads the class of a property behind `\p` or `\P`. -/
def readProperty (f : PatternFlags) (negated : Bool) (text : List Char) :
    Except PatternError (Atom × List Char) := do
  let (found, rest) ←
    match skipSpace f.verbose text with
    | [] => .error .unexpectedEnd
    | c :: r =>
      if c = '\x7b' then
        let (name, rest) := collect f.verbose (· != '\x7d') false r
        if rest.isEmpty then .error .unexpectedEnd else .ok (namedProperty? name, rest.drop 1)
      else if c = '\\' then .error PatternError.badEscape
      else .ok ((Unicode.property? [c]).map (·, false), skipSpace f.verbose r)
  if !f.unicode then .error .notUnicode
  else
    match found with
    | none => .error .unknownProperty
    | some (s, opposite) => return (.set (← f.close (negated != opposite) s), rest)

/-- The class that a letter behind a backslash names, and whether it is negated. -/
def letterClass? (unicode : Bool) (c : Char) : Option (CharSet × Bool) :=
  let digit : CharSet := if unicode then Unicode.isDigit else Char.isDigit
  let space : CharSet :=
    if unicode then Text.isBlank else fun d => Text.isBlank d && d.toNat < 128
  let word : CharSet := if unicode then Unicode.isWord else isAsciiWord
  if c = 'd' then some (digit, false)
  else if c = 'D' then some (digit, true)
  else if c = 's' then some (space, false)
  else if c = 'S' then some (space, true)
  else if c = 'w' then some (word, false)
  else if c = 'W' then some (word, true)
  else none

/-- The condition that a name in braces behind `\b` tells. -/
def edgeOfName? (name : List Char) : Option WordEdge :=
  [("start", WordEdge.start), ("end", .stop), ("start-half", .startHalf), ("end-half", .stopHalf)]
    |>.lookup (String.ofList name)

/-- Whether a character can stand in the name of an edge. -/
def isEdgeNameChar (c : Char) : Bool := c.isAlpha || c == '-'

/-- Reads the condition behind `\b`, which may have a name in braces; other braces count
repetitions. -/
def readBoundary (f : PatternFlags) (text : List Char) :
    Except PatternError (Atom × List Char) :=
  let plain := (Atom.look (.word .boundary f.unicode), text)
  if text.head? = some '\x7b' then
    match skipSpace f.verbose (text.drop 1) with
    | [] => .error .unexpectedEnd
    | c :: r =>
      if !isEdgeNameChar c then .ok plain
      else
        let (name, rest) := collect f.verbose isEdgeNameChar false (c :: r)
        if rest.head? != some '\x7d' then .error .badEscape
        else
          match edgeOfName? name with
          | none => .error .badEscape
          | some edge => .ok (.look (.word edge f.unicode), rest.drop 1)
  else .ok plain

/-- The control character that a letter behind a backslash stands for. -/
def controlOf? (c : Char) : Option Char :=
  [('a', '\x07'), ('f', '\x0c'), ('t', '\t'), ('n', '\n'), ('r', '\r'), ('v', '\x0b')].lookup c

/-- Reads what stands behind a backslash. -/
def readEscape (f : PatternFlags) : List Char → Except PatternError (Atom × List Char)
  | [] => .error .unexpectedEnd
  | c :: r =>
    if c.isDigit then .error .backReference
    else if c = 'x' then readHex f.verbose 2 r
    else if c = 'u' then readHex f.verbose 4 r
    else if c = 'U' then readHex f.verbose 8 r
    else if c = 'p' ∨ c = 'P' then readProperty f (c == 'P') r
    else
      match letterClass? f.unicode c, controlOf? c with
      | some (s, negated), _ => .ok (.set (if negated then f.complement s else s), r)
      | none, some d => .ok (.literal d false, r)
      | none, none =>
        if isPlainEscape c then .ok (.literal c false, r)
        else if c = 'A' then .ok (.look .startText, r)
        else if c = 'z' then .ok (.look .endText, r)
        else if c = 'b' then readBoundary f r
        else if c = 'B' then .ok (.look (.word .noBoundary f.unicode), r)
        else if c = '<' then .ok (.look (.word .start f.unicode), r)
        else if c = '>' then .ok (.look (.word .stop f.unicode), r)
        else .error .badEscape

end FormOntology
