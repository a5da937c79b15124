import FormOntology.Unicode.Property

/-!
# Patterns and matching

A pattern is a regular expression over characters, with conditions on the neighbours of a
position.  Positions of a text are counted in characters, and a set of positions is kept as the
bits of a number: a pattern sends the positions where a match may begin to those where it can end.
So a text is matched in one pass over the pattern, without going back.

## Main definitions

* `Look`, `Look.holds` — conditions on a position.
* `Pattern` — patterns.
* `Pattern.Matches` — the part of a text between two positions matches a pattern.
* `Pattern.advance` — where the matches from a set of positions can end.
* `Pattern.occursIn` — whether a pattern matches some part of a text.
-/

namespace FormOntology

/-- The characters that a pattern accepts at one place. -/
abbrev CharSet := Char → Bool

/-! ### Conditions on a position -/

/-- Which side of a word a position is at. -/
inductive WordEdge where
  /-- Between a word and what is no word. -/
  | boundary
  /-- Not between a word and what is no word. -/
  | noBoundary
  /-- In front of a word. -/
  | start
  /-- Behind a word. -/
  | stop
  /-- Not behind a character of a word. -/
  | startHalf
  /-- Not in front of a character of a word. -/
  | stopHalf
  deriving DecidableEq, Repr

/-- A condition on a position. -/
inductive Look where
  /-- At the start of the text. -/
  | startText
  /-- At the end of the text. -/
  | endText
  /-- At the start of a line; with `returns` a carriage return ends a line too. -/
  | startLine (returns : Bool)
  /-- At the end of a line; with `returns` a carriage return ends a line too. -/
  | endLine (returns : Bool)
  /-- At the edge of a word; without `unicode` words are made of ASCII characters only. -/
  | word (edge : WordEdge) (unicode : Bool)
  deriving DecidableEq, Repr

/-- Whether a character belongs to words of ASCII characters. -/
def isAsciiWord (c : Char) : Bool := c.isAlphanum || c == '_'

namespace Look

/-- Whether a position is at the edge of a word, by what its neighbours are. -/
def atEdge : WordEdge → (before after : Bool) → Bool
  | .boundary, b, a => b != a
  | .noBoundary, b, a => b == a
  | .start, b, a => !b && a
  | .stop, b, a => b && !a
  | .startHalf, b, _ => !b
  | .stopHalf, _, a => !a

/-- Whether a condition holds between two characters, or at an end of the text. -/
def holds : Look → (before after : Option Char) → Bool
  | startText, b, _ => b.isNone
  | endText, _, a => a.isNone
  | startLine false, b, _ => b.all (· == '\n')
  | startLine true, b, a => b.all fun c => c == '\n' || (c == '\r' && a != some '\n')
  | endLine false, _, a => a.all (· == '\n')
  | endLine true, b, a => a.all fun c => c == '\r' || (c == '\n' && b != some '\r')
  | word edge unicode, b, a =>
    let isWord := if unicode then Unicode.isWord else isAsciiWord
    atEdge edge (b.any isWord) (a.any isWord)

end Look

/-! ### Patterns -/

/-- A regular expression. -/
inductive Pattern where
  /-- The empty text. -/
  | empty
  /-- One character of a set. -/
  | one (set : CharSet)
  /-- The empty text at a position with a condition. -/
  | look (l : Look)
  /-- One pattern and then another. -/
  | cat (p q : Pattern)
  /-- One pattern or another. -/
  | alt (p q : Pattern)
  /-- A pattern so many times, at least and, if given, at most. -/
  | times (least : Nat) (most : Option Nat) (p : Pattern)
  deriving Inhabited

/-! ### Matches -/

/-- A relation done `n` times, one after another. -/
def Repeated (R : Nat → Nat → Prop) : (n : Nat) → Nat → Nat → Prop
  | 0, i, j => i = j
  | n + 1, i, j => ∃ k, R i k ∧ Repeated R n k j

/-- The character in front of a position, where `first` stands in front of the text. -/
def charBefore (first : Option Char) (text : List Char) : (i : Nat) → Option Char
  | 0 => first
  | i + 1 => text[i]?

namespace Pattern

/-- The part of a text between two positions matches a pattern. -/
def Matches (text : List Char) : Pattern → (start stop : Nat) → Prop
  | empty, i, j => i = j
  | one set, i, j => i + 1 = j ∧ ∃ c, text[i]? = some c ∧ set c = true
  | look l, i, j => i = j ∧ l.holds (charBefore none text i) text[i]? = true
  | cat p q, i, j => ∃ k, Matches text p i k ∧ Matches text q k j
  | alt p q, i, j => Matches text p i j ∨ Matches text q i j
  | times least most p, i, j =>
    ∃ further, (∀ m, most = some m → further ≤ m - least)
      ∧ Repeated (Matches text p) (least + further) i j

/-! ### Sets of positions -/

/-- The positions in front of the characters of a set. -/
def setBits (set : CharSet) : List Char → Nat
  | [] => 0
  | c :: r => 2 * setBits set r + (if set c then 1 else 0)

/-- The positions of a text with a condition, where `before` stands in front of the text. -/
def lookBits (l : Look) : (before : Option Char) → List Char → Nat
  | before, [] => if l.holds before none then 1 else 0
  | before, c :: r =>
    2 * lookBits l (some c) r + (if l.holds before (some c) then 1 else 0)

/-- What `step` makes of a set of positions when it is done `n` times. -/
def iterate (step : Nat → Nat) : (n : Nat) → Nat → Nat
  | 0, s => s
  | n + 1, s =>
    let next := step s
    if next = s then s else iterate step n next

/-- The positions that `step` reaches from a set when it is done up to `n` times. -/
def reach (step : Nat → Nat) : (n : Nat) → Nat → Nat
  | 0, s => s
  | n + 1, s =>
    let next := s ||| step s
    if next = s then s else reach step n next

/-- Where the matches of a pattern that begin at the positions `s` can end.  In a text of `n`
characters a repetition reaches all it can reach after `n` further times. -/
def advance (text : List Char) : Pattern → Nat → Nat
  | empty, s => s
  | one set, s => (s &&& setBits set text) <<< 1
  | look l, s => s &&& lookBits l none text
  | cat p q, s => advance text q (advance text p s)
  | alt p q, s => advance text p s ||| advance text q s
  | times least most p, s =>
    let further :=
      match most with
      | none => text.length
      | some m => min (m - least) text.length
    reach (advance text p) further (iterate (advance text p) least s)

/-- All positions of a text. -/
def allBits (text : List Char) : Nat := Nat.pow 2 (text.length + 1) - 1

/-- Whether a pattern matches some part of a text. -/
def occursIn (p : Pattern) (text : List Char) : Bool := p.advance text (allBits text) != 0

end Pattern

end FormOntology
