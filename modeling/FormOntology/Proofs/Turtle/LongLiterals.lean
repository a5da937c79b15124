import FormOntology.Proofs.Turtle.Bodies
import FormOntology.Proofs.Turtle.Segments
import FormOntology.Turtle.Escape

/-!
# Written long literals

In a long literal quotes and backslashes are written behind a backslash, and everything else as it
is.  The run of the literal minds its escapes, so it is the whole literal whatever the text is.  Its
body is read up to the first three quotes, escaped or not: where the text ends in a quote, the body
ends one character early, behind the backslash in front of that quote.

## Main definitions

* `longEscape`, `writtenLong` — a text in a long literal, and the literal.
* `readBody` — the body that is read.

## Main results

* `segments_writtenLong` — a written long literal is one run.
* `literalBody?_writtenLong` — **the body that is read of a written long literal.**
* `unescape_readBody`, `unescape_readBody_concat` — what that body stands for.
-/

namespace FormOntology.Turtle

open Text

/-! ### Escaped texts -/

/-- How a character is written in a long literal. -/
def longEscapeChar (c : Char) : List Char := if c = '\\' ∨ c = '"' then ['\\', c] else [c]

/-- A text as written in a long literal. -/
def longEscape (s : List Char) : List Char := s.flatMap longEscapeChar

@[simp] theorem longEscape_nil : longEscape [] = [] := rfl

@[simp] theorem longEscape_cons (c : Char) (s : List Char) :
    longEscape (c :: s) = longEscapeChar c ++ longEscape s := rfl

@[simp] theorem longEscape_append (s s' : List Char) :
    longEscape (s ++ s') = longEscape s ++ longEscape s' := List.flatMap_append

/-- A character is written as itself or behind a backslash. -/
theorem longEscapeChar_cases (c : Char) :
    (longEscapeChar c = [c] ∧ c ≠ '\\' ∧ c ≠ '"')
      ∨ longEscapeChar c = ['\\', c] ∧ unescapeChar? c = some c := by
  by_cases hb : c = '\\'
  · subst hb
    exact .inr ⟨rfl, rfl⟩
  by_cases hq : c = '"'
  · subst hq
    exact .inr ⟨rfl, rfl⟩
  · exact .inl ⟨by simp [longEscapeChar, hb, hq], hb, hq⟩

/-- An escaped text does not begin with a quote. -/
theorem head?_longEscape (s : List Char) : (longEscape s).head? ≠ some '"' := by
  cases s with
  | nil => simp
  | cons c s =>
    rw [longEscape_cons]
    rcases longEscapeChar_cases c with ⟨heq, -, hq⟩ | ⟨heq, -⟩ <;> simp [heq]
    exact hq

section Readers

variable (s z : List Char)

/-- Reading an escaped text gives the text back, whatever stands behind it. -/
theorem unescape_longEscape_append : unescape (longEscape s ++ z) = s ++ unescape z := by
  induction s with
  | nil => rfl
  | cons c s ih =>
    rw [longEscape_cons, List.append_assoc]
    rcases longEscapeChar_cases c with ⟨heq, hb, -⟩ | ⟨heq, hc⟩
    · rw [heq, List.singleton_append, unescape_of_ne hb, ih]
      rfl
    · rw [heq, List.cons_append, List.singleton_append, unescape, if_pos rfl]
      simp only [hc, ih]
      rfl

theorem longEscape_ne_nil {s : List Char} (h : s ≠ []) : longEscape s ≠ [] := by
  intro hnil
  have hread := unescape_longEscape_append s []
  rw [hnil] at hread
  exact h (by simpa using hread.symm)

/-- The run of a long literal goes over an escaped text. -/
theorem longTail_longEscape_append :
    longTail (longEscape s ++ z) = (longEscape s).length + longTail z := by
  induction s with
  | nil => simp
  | cons c s ih =>
    rw [longEscape_cons, List.append_assoc]
    rcases longEscapeChar_cases c with ⟨heq, hb, hq⟩ | ⟨heq, -⟩
    · have ht : ¬startsTriple (c :: (longEscape s ++ z)) = true := by
        intro ht
        obtain ⟨r, hr⟩ := startsTriple_iff.mp ht
        exact hq (List.cons.inj hr).1
      rw [heq, List.singleton_append, longTail_cons hb ht, ih, List.length_append,
        List.length_singleton]
      omega
    · rw [heq, List.cons_append, List.singleton_append, longTail_escape, ih, List.length_append]
      simp only [List.length_cons, List.length_nil]
      omega

/-- The body of a long literal goes on behind an escaped text, if no quote at its end goes on with
other quotes. -/
theorem longBody?_longEscape_append (h : s.getLast? = some '"' → z.head? ≠ some '"') :
    longBody? (longEscape s ++ z) = (longBody? z).map (longEscape s ++ ·) := by
  induction s with
  | nil => simp
  | cons c s ih =>
    have hrest : s.getLast? = some '"' → z.head? ≠ some '"' := by
      intro hlast
      refine h ?_
      rw [List.getLast?_cons, hlast]
      rfl
    have hstep : ∀ d, d ≠ '"' → ∀ r, longBody? (d :: r) = (longBody? r).map (d :: ·) := by
      intro d hd r
      refine longBody?_cons fun ht => hd ?_
      obtain ⟨r', hr'⟩ := startsTriple_iff.mp ht
      exact (List.cons.inj hr').1
    rw [longEscape_cons, List.append_assoc]
    rcases longEscapeChar_cases c with ⟨heq, -, hq⟩ | ⟨heq, -⟩
    · rw [heq, List.singleton_append, hstep c hq, ih hrest, Option.map_map]
      rfl
    · -- behind an escaped quote there is no other one
      have ht : ¬startsTriple (c :: (longEscape s ++ z)) = true := by
        intro ht
        obtain ⟨r, hr⟩ := startsTriple_iff.mp ht
        obtain ⟨rfl, hnext⟩ := List.cons.inj hr
        cases s with
        | nil =>
          have hz : z = '"' :: '"' :: r := hnext
          exact h rfl (by rw [hz]; rfl)
        | cons d s =>
          obtain ⟨e, w, hw⟩ := List.exists_cons_of_ne_nil (longEscape_ne_nil (List.cons_ne_nil d s))
          rw [hw, List.cons_append] at hnext
          exact head?_longEscape (d :: s) (by rw [hw, (List.cons.inj hnext).1]; rfl)
      rw [heq, List.cons_append, List.singleton_append, hstep '\\' (by decide), longBody?_cons ht,
        ih hrest, Option.map_map, Option.map_map]
      rfl

end Readers

/-! ### Long literals -/

/-- The mark at both ends of a long literal. -/
def longMark : List Char := ['"', '"', '"']

/-- A text as a long literal. -/
def writtenLong (s : List Char) : List Char := longMark ++ (longEscape s ++ longMark)

theorem writtenLong_append (s y : List Char) :
    writtenLong s ++ y = '"' :: '"' :: '"' :: (longEscape s ++ (longMark ++ y)) := by
  simp [writtenLong, longMark]

/-- **A written long literal is one run**, whatever its text is and whatever stands behind it. -/
theorem segments_writtenLong (s y : List Char) :
    segments (writtenLong s ++ y) = .inert .longLiteral (writtenLong s) :: segments y := by
  have htail : longTail (longEscape s ++ (longMark ++ y)) = (longEscape s ++ longMark).length := by
    rw [longTail_longEscape_append, List.length_append]
    rfl
  have hopen : opening '"' ('"' :: '"' :: (longEscape s ++ (longMark ++ y)))
      = some (.longLiteral, ('"' :: '"' :: (longEscape s ++ longMark)).length) := by
    rw [opening_triple rfl]
    show some (Inert.longLiteral, longTail (longEscape s ++ (longMark ++ y)) + 2) = _
    rw [htail]
    rfl
  have hsplit : '"' :: '"' :: (longEscape s ++ (longMark ++ y))
      = '"' :: '"' :: (longEscape s ++ longMark) ++ y := by
    simp
  rw [writtenLong_append, segments_inert hopen, hsplit, List.take_left, List.drop_left]
  rfl

/-- The body that is read of a written long literal. -/
def readBody (s : List Char) : List Char :=
  if s.getLast? = some '"' then (longEscape s).dropLast else longEscape s

theorem readBody_concat (s : List Char) :
    readBody (s ++ ['"']) = longEscape s ++ ['\\'] := by
  have hlast : (s ++ ['"']).getLast? = some '"' := by simp
  have hescape : longEscape (s ++ ['"']) = longEscape s ++ ['\\'] ++ ['"'] := by
    rw [longEscape_append]
    simp [longEscapeChar]
  rw [readBody, if_pos hlast, hescape, List.dropLast_concat]

/-- **The body that is read of a written long literal**: it ends early if the text ends in a
quote. -/
theorem literalBody?_writtenLong (s y : List Char) :
    literalBody? (writtenLong s ++ y) = some (readBody s) := by
  have hbody : longBody? (longEscape s ++ (longMark ++ y)) = some (readBody s) := by
    by_cases hlast : s.getLast? = some '"'
    · obtain ⟨s, rfl⟩ := List.getLast?_eq_some_iff.mp hlast
      have hescape : longEscape (s ++ ['"']) ++ (longMark ++ y)
          = longEscape s ++ ('\\' :: '"' :: (longMark ++ y)) := by
        rw [longEscape_append]
        simp [longEscapeChar]
      rw [hescape, longBody?_longEscape_append s _ fun _ => by simp, readBody_concat]
      rfl
    · rw [longBody?_longEscape_append s _ fun h => absurd h hlast, readBody, if_neg hlast,
        longMark, List.cons_append, longBody?_triple rfl, Option.map_some, List.append_nil]
  rw [writtenLong_append, literalBody?, if_pos rfl, if_pos (startsTriple_iff.mpr ⟨_, rfl⟩),
    List.drop_succ_cons, List.drop_succ_cons, List.drop_zero, hbody]

/-- The body stands for the text, if that does not end in a quote. -/
theorem unescape_readBody {s : List Char} (h : s.getLast? ≠ some '"') :
    unescape (readBody s) = s := by
  rw [readBody, if_neg h]
  simpa using unescape_longEscape_append s []

/-- Otherwise it stands for the text with a backslash in place of the quote at its end. -/
theorem unescape_readBody_concat (s : List Char) :
    unescape (readBody (s ++ ['"'])) = s ++ ['\\'] := by
  rw [readBody_concat, unescape_longEscape_append]
  rfl

end FormOntology.Turtle
