import FormOntology.Proofs.Pattern.Bodies
import FormOntology.Proofs.Pattern.Matching

/-!
# Patterns between anchors

A value is held against a pattern between anchors: `^(?:`, the pattern, and `)$`.  Nothing in a
pattern that the reader accepts reaches out of these parentheses, so the pattern between anchors
matches exactly the texts that the pattern matches as a whole, as it is documented of every library.
But not every pattern that can be read can be read between anchors: a comment that is open at its
end swallows the closing parenthesis, and the group and the sequence around it are two levels more.

## Main definitions

* `PatternPart.ofText` — the part that a text is, however deep.
* `Pattern.endsInComment` — a comment is open at the end of a pattern.

## Main results

* `Pattern.parse_anchored` — what a pattern between anchors is read as, or why it is not read.
* `Pattern.parse_anchored_eq_ok_iff` — **which patterns can be read between anchors.**
* The instance of `LawfulPatternLibrary` — **between anchors a pattern matches whole texts.**
-/

namespace FormOntology

/-! ### Reading without limits -/

namespace PatternPart

/-- The part that a text is, however deep. -/
def ofText (text : List Char) : Except PatternError PatternPart := do
  match ← readAlternatives (text.length + 1) { flags := {}, names := [] } text with
  | (part, _, []) => return part
  | _ => .error .unopenedGroup

/-- The pattern of a part that is not nested too deep. -/
def limited (p : PatternPart) : Except PatternError Pattern :=
  if depthLimit < p.depth then .error .nestedTooDeep else .ok p.pattern

theorem limited_eq_ok_iff {p : PatternPart} {q : Pattern} :
    p.limited = .ok q ↔ p.depth ≤ depthLimit ∧ p.pattern = q := by
  unfold limited
  split
  · next h => simp [Nat.not_le_of_lt h]
  · next h => simp [Nat.le_of_not_lt h]

/-- The part of a group between anchors. -/
def anchored (p : PatternPart) : PatternPart :=
  .sequence [{ pattern := .look .endText }, p.group, { pattern := .look .startText }]

theorem pattern_anchored (p : PatternPart) : p.anchored.pattern
    = .cat (.look .startText) (.cat p.pattern (.cat (.look .endText) .empty)) := rfl

theorem depth_anchored (p : PatternPart) : p.anchored.depth = p.depth + 2 := by
  simp [anchored, sequence, group]

end PatternPart

theorem ofText_eq_ok_iff {text : List Char} {part : PatternPart} :
    PatternPart.ofText text = .ok part ↔ ∃ names,
      readAlternatives (text.length + 1) { flags := {}, names := [] } text
        = .ok (part, names, []) := by
  unfold PatternPart.ofText
  rw [bind_eq_ok]
  constructor
  · rintro ⟨⟨p, names, rest⟩, hread, h⟩
    cases rest with
    | nil =>
      cases h
      exact ⟨names, hread⟩
    | cons c r => cases h
  · rintro ⟨names, h⟩
    exact ⟨_, h, rfl⟩

namespace Pattern

open PatternLibrary (anchored)

theorem parse_eq (text : List Char) :
    parse text = PatternPart.ofText text >>= PatternPart.limited := by
  unfold parse PatternPart.ofText
  cases readAlternatives (text.length + 1) { flags := {}, names := [] } text with
  | error e => rfl
  | ok p =>
    obtain ⟨part, names, rest⟩ := p
    cases rest <;> rfl

/-- Whether a comment is open at the end of a pattern: a closing parenthesis behind the pattern,
which closes no group, changes nothing. -/
def endsInComment (pattern : List Char) : Bool := (PatternPart.ofText (pattern ++ [')'])).isOk

variable {pattern text : List Char} {part : PatternPart}

/-- More fuel changes nothing. -/
theorem readAlternatives_of_le {fuel fuel' : Nat} {b : OpenBody} {names : List (List Char)}
    {rest : List Char} (h : readAlternatives fuel b text = .ok (part, names, rest))
    (hf : fuel ≤ fuel') : readAlternatives fuel' b text = .ok (part, names, rest) :=
  (carried_readAlternatives h hf).here

/-- What stands behind a pattern is left, or a comment that is open at its end swallows it. -/
theorem readAlternatives_behind (h : PatternPart.ofText pattern = .ok part) {fuel : Nat}
    (hf : pattern.length + 2 ≤ fuel) : ∃ names, ∀ s, Closing s →
      readAlternatives fuel { flags := {}, names := [] } (pattern ++ s)
        = .ok (part, names, if endsInComment pattern then [] else s) := by
  obtain ⟨names, hread⟩ := ofText_eq_ok_iff.mp h
  refine ⟨names, fun s hs => readAlternatives_of_le ?_ hf⟩
  have hlength : (pattern ++ [')']).length + 1 = pattern.length + 2 := by simp
  -- the parenthesis that tells which of the two it is has the fate of all that may stand there
  rcases (carried_readAlternatives hread (Nat.le_succ _)).behind with hleft | ⟨-, hlost⟩
  · have hend : endsInComment pattern = false := by
      have := hleft [')'] closing_parenthesis
      rw [endsInComment, PatternPart.ofText, hlength, this]
      rfl
    simpa [hend] using hleft s hs
  · have hend : endsInComment pattern = true := by
      have := hlost [')'] closing_parenthesis
      rw [endsInComment, PatternPart.ofText, hlength, this]
      rfl
    simpa [hend] using hlost s hs

/-- What was read of an anchored text in front of its group. -/
def anchorBody : OpenBody :=
  { flags := {}, names := [], items := [{ pattern := .look .startText }] }

/-- The start of an anchored text leads to the body of its group. -/
theorem readAlternatives_anchor (fuel : Nat) (text : List Char) :
    readAlternatives (fuel + 2) { flags := {}, names := [] } ('^' :: '(' :: '?' :: ':' :: text)
      = readAlternatives fuel { flags := {}, names := [] } text
        >>= closeGroup fuel anchorBody := by
  rw [readAlternatives.atom rfl (by decide) rfl]
  change readAlternatives (fuel + 1) anchorBody ('(' :: '?' :: ':' :: text) = _
  rw [readAlternatives.group, readGroupStart_question]
  rfl

/-- **What a pattern between anchors is read as, or why it is not read.** -/
theorem parse_anchored (h : PatternPart.ofText pattern = .ok part) :
    parse (anchored pattern)
      = if endsInComment pattern then .error .unclosedGroup else part.anchored.limited := by
  have hf : pattern.length + 2 ≤ pattern.length + 5 := by omega
  obtain ⟨names, hread⟩ := readAlternatives_behind h hf
  have hbody := hread [')', '$'] closing_anchor
  have htext : anchored pattern = '^' :: '(' :: '?' :: ':' :: (pattern ++ [')', '$']) := rfl
  have hlength : (anchored pattern).length + 1 = pattern.length + 5 + 2 := by simp [htext]
  rw [parse_eq, PatternPart.ofText, hlength, htext, readAlternatives_anchor, hbody]
  -- without the parenthesis the group stays open; with it `$` and the end are left to read
  by_cases hend : endsInComment pattern = true
  · simp only [if_pos hend]
    rfl
  · simp only [if_neg hend]
    rfl

/-- **A pattern can be read between anchors exactly if no comment is open at its end** and it has
room for the group and the sequence around it. -/
theorem parse_anchored_eq_ok_iff (h : PatternPart.ofText pattern = .ok part) {p : Pattern} :
    parse (anchored pattern) = .ok p ↔ endsInComment pattern = false
      ∧ part.depth + 2 ≤ PatternPart.depthLimit ∧ part.anchored.pattern = p := by
  rw [parse_anchored h]
  by_cases hend : endsInComment pattern = true
  · simp [hend]
  · rw [if_neg hend, PatternPart.limited_eq_ok_iff, PatternPart.depth_anchored]
    simp [hend]

/-! ### Whole texts -/

/-- Between anchors a pattern matches the whole text, and matches it as it does alone. -/
theorem matches_anchored_iff (part : PatternPart) {text : List Char} {i j : Nat}
    (hi : i ≤ text.length) : part.anchored.pattern.Matches text i j
      ↔ i = 0 ∧ j = text.length ∧ part.pattern.Matches text i j := by
  have hstart : (charBefore none text i).isNone = true ↔ i = 0 := by
    cases i with
    | zero => simp [charBefore]
    | succ i =>
      simp only [charBefore, Option.isNone_iff_eq_none, List.getElem?_eq_none_iff]
      omega
  have hend (k : Nat) : text[k]?.isNone = true ↔ text.length ≤ k := by simp
  rw [PatternPart.pattern_anchored]
  constructor
  · rintro ⟨k, ⟨rfl, hl⟩, m, hm, n, ⟨rfl, hr⟩, rfl⟩
    exact ⟨hstart.mp hl, Nat.le_antisymm (hm.le_length hi) ((hend m).mp hr), hm⟩
  · rintro ⟨rfl, rfl, h⟩
    exact ⟨0, ⟨rfl, rfl⟩, text.length, h, text.length, ⟨rfl, (hend _).mpr (Nat.le_refl _)⟩, rfl⟩

end Pattern

/-- The reader does as it is documented of every library. -/
instance : LawfulPatternLibrary where
  isMatch_iff _ _ := Pattern.occursIn_iff
  matches_anchored_iff {pattern r r'} h h' text start stop hstart := by
    obtain ⟨part, hpart, hlimited⟩ := bind_eq_ok.mp (Pattern.parse_eq _ ▸ mapError_eq_ok.mp h)
    obtain ⟨-, rfl⟩ := PatternPart.limited_eq_ok_iff.mp hlimited
    obtain ⟨-, -, rfl⟩ := (Pattern.parse_anchored_eq_ok_iff hpart).mp (mapError_eq_ok.mp h')
    exact Pattern.matches_anchored_iff part hstart

end FormOntology
