import FormOntology.Proofs.Turtle.Segments

/-!
# Closed literals

A literal is closed if a letter written behind it does not belong to it.  Where every literal of a
text is closed and a line ends behind the text, nothing of it goes on in what follows.

## Main definitions

* `LiteralsClosed` — whether every literal of a text is closed.
* `lastPiece?` — the last piece of a text that is neither a comment nor a blank.

## Main results

* `segments_append_of_literalsClosed` — what follows a text of closed literals is cut as if it
  stood alone.
* `lastPiece?_append` — the last piece of two texts put together.
-/

namespace FormOntology.Turtle

open Text

/-! ### Literals -/

@[simp] theorem segments_letter : segments ['x'] = [.plain 'x'] := by
  rw [segments_plain (by decide), segments_nil]

@[simp] theorem endsInert_nil : endsInert [] = false := by simp [endsInert]

/-- Whether a segment is a literal. -/
def Segment.isLiteral : Segment → Bool
  | .inert .longLiteral _ => true
  | .inert .shortLiteral _ => true
  | _ => false

/-- Whether every literal of a text is closed. -/
def LiteralsClosed (text : List Char) : Prop :=
  ∀ s ∈ segments text, s.isLiteral = true → endsInert s.text = false

instance (text : List Char) : Decidable (LiteralsClosed text) :=
  inferInstanceAs (Decidable (∀ s ∈ _, _ → _))

example : LiteralsClosed "\"a\\\"\" <b> # \"".toList := by decide +kernel

example : ¬LiteralsClosed "\"a\\\"\n".toList := by decide +kernel

/-- An IRI ends with its closing bracket. -/
theorem endsInert_of_iri {t : List Char} (h : segments t = [.inert .iri t]) :
    endsInert t = false := by
  cases t with
  | nil => simp at h
  | cons c r =>
    cases ho : opening c r with
    | none =>
      rw [segments_plain ho] at h
      simp at h
    | some p =>
      obtain ⟨k, n⟩ := p
      rw [segments_inert ho, List.cons.injEq, Segment.inert.injEq] at h
      obtain ⟨⟨rfl, htake⟩, -⟩ := h
      have hle := opening_le ho
      have hn : n = r.length := by
        have := congrArg List.length htake
        simp only [List.length_cons, List.length_take] at this
        omega
      -- its length is that of the whole text, whatever follows
      have hlonger : opening c (r ++ ['x']) = some (.iri, r.length) := by
        rcases opening_eq_some ho with ⟨-, hk, -⟩ | ⟨-, -, hk, -⟩ | ⟨-, -, hk, -⟩ | ⟨rfl, -, hi⟩
        · cases hk
        · cases hk
        · cases hk
        · rw [opening_angle, iriTail?_append hi, hn, Option.map_some]
      rw [endsInert, List.cons_append, segments_inert hlonger, segments_inert ho, hn]
      simp

/-- **What follows a text of closed literals is cut as if it stood alone**, if a line ends in
between. -/
theorem segments_append_of_literalsClosed {x y : List Char} (hx : LiteralsClosed x)
    (hb : LineBorder x y) : segments (x ++ y) = segments x ++ segments y := by
  rcases segments_append_or_straddle x y with
    hcut | ⟨s₁, k, u, w, s₂, -, rfl, rfl, hu, hw, hfront, hrun⟩
  · exact hcut
  · -- the run that goes on would be a closed literal or an IRI
    obtain ⟨hk, halone, hletter⟩ :=
      segments_of_straddle (hb.of_append hu (by simp [hw])) hu hw hrun
    have hclosed : endsInert u = false := by
      have hmem : Segment.inert k u ∈ segments (textOf s₁ ++ u) := by
        rw [hfront, halone]
        simp
      cases k with
      | comment => exact absurd rfl hk
      | longLiteral => exact hx _ hmem rfl
      | shortLiteral => exact hx _ hmem rfl
      | iri => exact endsInert_of_iri halone
    rw [endsInert, halone, hletter] at hclosed
    simp at hclosed

/-- Texts of closed literals put together have closed literals. -/
theorem LiteralsClosed.append {x y : List Char} (hx : LiteralsClosed x) (hy : LiteralsClosed y)
    (hcut : segments (x ++ y) = segments x ++ segments y) : LiteralsClosed (x ++ y) := by
  intro s hs
  rw [hcut] at hs
  rcases List.mem_append.mp hs with hs | hs
  · exact hx s hs
  · exact hy s hs

/-! ### The last piece -/

/-- Whether a segment is neither a comment nor a blank. -/
def Segment.counts : Segment → Bool
  | .plain c => !isBlank c
  | .inert k _ => k != .comment

/-- The last piece of a text that is neither a comment nor a blank. -/
def lastPiece? (text : List Char) : Option Segment :=
  ((segments text).filter Segment.counts).getLast?

/-- The last piece of two texts put together. -/
theorem lastPiece?_append {x y : List Char}
    (hcut : segments (x ++ y) = segments x ++ segments y) :
    lastPiece? (x ++ y) = (lastPiece? y).or (lastPiece? x) := by
  rw [lastPiece?, hcut, List.filter_append, List.getLast?_append]
  rfl

/-- Characters outside runs that end a text have its last piece, if one is no blank. -/
theorem exists_lastPiece?_of_map_plain {x t : List Char} {l : List Segment}
    (h : segments x = l ++ t.map .plain) {c : Char} (hc : c ∈ t) (hblank : isBlank c = false) :
    ∃ d ∈ t, lastPiece? x = some (.plain d) := by
  have hne : (t.filter fun d => !isBlank d) ≠ [] :=
    List.ne_nil_of_mem (List.mem_filter.mpr ⟨hc, by simp [hblank]⟩)
  refine ⟨_, (List.mem_filter.mp (List.getLast_mem hne)).1, ?_⟩
  rw [lastPiece?, h, List.filter_append, List.filter_map, List.getLast?_append, List.getLast?_map,
    show Segment.counts ∘ Segment.plain = fun d => !isBlank d from rfl,
    List.getLast?_eq_some_getLast hne]
  rfl

end FormOntology.Turtle
