/-!
# Libraries of patterns

The patterns of a form are regular expressions, and a library compiles and matches them.  What the
library takes for a pattern, how it names an error and what its patterns match is its own matter, so
everything that reads or checks patterns has the library as a parameter.  A value is held against a
pattern between anchors, `^(?:`, the pattern and `)$`.

## Main definitions

* `PatternLibrary` — what a library offers.
* `PatternLibrary.anchored`, `PatternLibrary.matchesWhole?` — a pattern between anchors.
* `LawfulPatternLibrary` — what is documented of a library.

## Main results

* `isMatch_anchored` — a pattern between anchors tells whether the pattern matches a whole text.
-/

namespace FormOntology

/-- What a library of patterns offers.  The positions of a text are counted in characters. -/
class PatternLibrary where
  /-- The compiled patterns. -/
  Compiled : Type
  /-- Compiles a pattern, or tells why it is none. -/
  compile : (pattern : List Char) → Except String Compiled
  /-- Whether a compiled pattern matches the part of a text between two positions. -/
  Matches : Compiled → (text : List Char) → (start stop : Nat) → Prop
  /-- Whether a compiled pattern is found in a text. -/
  isMatch : Compiled → (text : List Char) → Bool

namespace PatternLibrary

/-- A pattern between anchors. -/
def anchored (pattern : List Char) : List Char := "^(?:".toList ++ pattern ++ ")$".toList

/-- Whether a pattern matches the whole of a text, if it compiles between anchors. -/
def matchesWhole? [PatternLibrary] (pattern text : List Char) : Option Bool :=
  match compile (anchored pattern) with
  | .ok r => some (isMatch r text)
  | .error _ => none

end PatternLibrary

open PatternLibrary

/-- What is documented of a library: a pattern is found in a text if it matches a part of the text,
and anchors around a group admit the whole text only. -/
class LawfulPatternLibrary [PatternLibrary] : Prop where
  /-- A pattern is found where it matches. -/
  isMatch_iff : ∀ (r : Compiled) (text : List Char),
    isMatch r text = true ↔ ∃ start stop, start ≤ text.length ∧ Matches r text start stop
  /-- Between anchors a pattern matches the whole text, and matches it as it does alone. -/
  matches_anchored_iff : ∀ {pattern : List Char} {r r' : Compiled}, compile pattern = .ok r →
    compile (anchored pattern) = .ok r' → ∀ (text : List Char) (start stop : Nat),
      start ≤ text.length → (Matches r' text start stop
        ↔ start = 0 ∧ stop = text.length ∧ Matches r text start stop)

/-- A pattern between anchors is found in a text exactly if the pattern matches the whole text. -/
theorem isMatch_anchored [PatternLibrary] [LawfulPatternLibrary] {pattern : List Char}
    {r r' : Compiled} (h : compile pattern = .ok r) (h' : compile (anchored pattern) = .ok r')
    (text : List Char) : isMatch r' text = true ↔ Matches r text 0 text.length := by
  rw [LawfulPatternLibrary.isMatch_iff]
  constructor
  · rintro ⟨start, stop, hstart, hmatch⟩
    obtain ⟨rfl, rfl, hwhole⟩ :=
      (LawfulPatternLibrary.matches_anchored_iff h h' text start stop hstart).mp hmatch
    exact hwhole
  · intro hwhole
    exact ⟨0, text.length, Nat.zero_le _,
      (LawfulPatternLibrary.matches_anchored_iff h h' text 0 _ (Nat.zero_le _)).mpr
        ⟨rfl, rfl, hwhole⟩⟩

end FormOntology
