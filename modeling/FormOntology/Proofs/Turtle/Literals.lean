import FormOntology.Proofs.Turtle.Bodies
import FormOntology.Proofs.Turtle.Masking

/-!
# Short literals among segments

A literal is a run of its own where nothing in front of it is open.  What is in front of it is then
read without it, and another body can take the place of its own.

## Main definitions

* `literal`, `LiteralAt` — a short literal, and where one stands in a text.

## Main results

* `literalBody?_of_cut` — a literal in front of a cut is read without what is behind it.
* `maskComments_of_literalAt` — comments are blanked out on either side of a literal.
* `LiteralAt.replace` — a body without quotes, backslashes and line feeds can take the place of any
  other.
-/

namespace FormOntology.Turtle

open Text

/-! ### Where a text is cut -/

/-- Where a text is cut, its first run opens without what is behind the cut. -/
theorem opening_of_cut {c : Char} {r z : List Char} {l : List Segment}
    (h : segments (c :: (r ++ z)) = segments (c :: r) ++ l) :
    opening c (r ++ z) = opening c r := by
  cases ho : opening c (r ++ z) with
  | none => exact (opening_eq_none_of_append ho).symm
  | some p =>
    obtain ⟨k, n⟩ := p
    rw [segments_inert ho] at h
    cases ho' : opening c r with
    | none => simp [segments_plain ho'] at h
    | some p' =>
      obtain ⟨k', n'⟩ := p'
      rw [segments_inert ho', List.cons_append, List.cons.injEq, Segment.inert.injEq,
        List.cons.injEq] at h
      obtain ⟨⟨rfl, -, htake⟩, -⟩ := h
      have hlen := congrArg List.length htake
      have hle := opening_le ho
      have hle' := opening_le ho'
      rw [List.length_take, List.length_take] at hlen
      rw [show n = n' by omega]

/-- Where a text is cut, a literal is read without what is behind the cut. -/
theorem literalBody?_of_cut {o z : List Char} {l : List Segment}
    (h : segments (o ++ z) = segments o ++ l) (ho : o ≠ []) :
    literalBody? (o ++ z) = literalBody? o := by
  obtain ⟨c, r, rfl⟩ := List.exists_cons_of_ne_nil ho
  have hopen := opening_of_cut h
  by_cases hc : c = '"'
  · subst hc
    rw [List.cons_append, literalBody?, if_pos rfl, literalBody?, if_pos rfl]
    by_cases htriple : startsTriple ('"' :: r) = true
    · rcases Decidable.em (z = []) with rfl | hz
      · rw [List.append_nil]
      -- the long literal is closed in front of the cut
      have htriple' : startsTriple ('"' :: (r ++ z)) = true := startsTriple_append htriple z
      have hlen := three_le_length_of_startsTriple htriple
      rw [List.length_cons] at hlen
      have hdrop : (r ++ z).drop 2 = r.drop 2 ++ z := List.drop_append_of_le_length (by omega)
      rw [opening_triple htriple, opening_triple htriple', hdrop, Option.some.injEq,
        Prod.mk.injEq] at hopen
      have hclosed : longTail (r.drop 2 ++ z) ≤ (r.drop 2).length := by
        have := longTail_le (r.drop 2)
        omega
      obtain ⟨b, hb⟩ := Option.ne_none_iff_exists'.mp (longBody?_ne_none_of_closed hclosed hz)
      rw [if_pos htriple', if_pos htriple, hdrop, hb, longBody?_append hb]
    · have htriple' : ¬startsTriple ('"' :: (r ++ z)) = true := fun ht => by
        simp [opening_triple ht, opening_quote htriple] at hopen
      rw [opening_quote htriple, opening_quote htriple', Option.some.injEq,
        Prod.mk.injEq] at hopen
      have hclosed : shortTail (r ++ z) ≤ r.length := by
        have := shortTail_le r
        omega
      rw [if_neg htriple', if_neg htriple]
      exact shortBody?_append_of_shortTail hclosed
  · simp [literalBody?, hc]

/-! ### Short literals -/

/-- A short literal as written. -/
def literal (body : List Char) : List Char := '"' :: (body ++ ['"'])

/-- Whether a short literal stands between `x` and `y` as a run of its own. -/
def LiteralAt (x body y : List Char) : Prop :=
  segments (x ++ (literal body ++ y))
    = segments x ++ .inert .shortLiteral (literal body) :: segments y

instance (x body y : List Char) : Decidable (LiteralAt x body y) :=
  inferInstanceAs (Decidable (_ = _))

theorem literal_append (body y : List Char) : literal body ++ y = '"' :: (body ++ '"' :: y) := by
  simp [literal]

theorem maskComments_of_literalAt {x body y : List Char} (h : LiteralAt x body y) :
    maskComments (x ++ (literal body ++ y))
      = maskComments x ++ (literal body ++ maskComments y) := by
  rw [maskComments_eq_maskedText, h, maskedText_append, maskedText_cons,
    Segment.masked_of_ne_comment (by decide)]
  rfl

/-- A short literal is one where comments are blanked out. -/
theorem LiteralAt.mask {x body y : List Char} (h : LiteralAt x body y) :
    LiteralAt (maskComments x) body (maskComments y) := by
  rw [LiteralAt, ← maskComments_of_literalAt h, segments_maskComments, h, List.flatMap_append,
    List.flatMap_cons, Segment.blanked_of_ne_comment (by decide), segments_maskComments,
    segments_maskComments]
  rfl


/-! ### Another body -/

section Replace

variable {z z' : List Char} (hz : z.head? = some '"') (hz' : z'.head? = some '"')
include hz hz'

/-- What opens in front of a cut does not depend on what is behind it, if that begins with a quote
and a blank stands in front. -/
theorem opening_of_cut_quote {c : Char} {r : List Char} (h : opening c (r ++ z) = opening c r)
    {d : Char} (hlast : (c :: r).getLast? = some d) (hd : isAsciiBlank d = true) :
    opening c (r ++ z') = opening c r := by
  obtain ⟨z, rfl⟩ := List.head?_eq_some_iff.mp hz
  obtain ⟨z', rfl⟩ := List.head?_eq_some_iff.mp hz'
  cases ho : opening c r with
  | none =>
    rw [opening_eq_none_iff] at ho ⊢
    refine ⟨ho.1, ho.2.1, ?_⟩
    intro hc
    -- what could have been an IRI breaks off at the blank, so it does not come to the quote
    obtain ⟨r, rfl⟩ : ∃ r', r = r' ++ [d] := by
      rcases List.eq_nil_or_concat r with rfl | ⟨r', e, rfl⟩
      · obtain rfl : c = d := by simpa using hlast
        rw [hc] at hd
        exact absurd hd (by decide)
      · rw [List.concat_eq_append, ← List.cons_append, List.getLast?_append] at hlast
        obtain rfl : e = d := by simpa using hlast
        exact ⟨r', List.concat_eq_append⟩
    rw [List.append_assoc]
    refine iriTail?_append_eq_none (ho.2.2 hc) fun _ => iriTail?_blank ?_ hd _
    rintro rfl
    exact absurd hd (by decide)
  | some p =>
    obtain ⟨k, n⟩ := p
    have hle := opening_le ho
    rw [ho] at h
    by_cases hk : k = .comment
    · subst hk
      obtain rfl : c = '#' := by
        rcases opening_eq_some ho with h | h | h | h
        · exact h.1
        all_goals simp at h
      simp only [opening_hash, Option.some.injEq, Prod.mk.injEq, true_and] at ho h ⊢
      -- a comment that does not reach the quote has its line feed in front of it
      have hline : '\n' ∈ r := by
        apply Decidable.byContradiction
        intro hmem
        have hall : ∀ e ∈ r, decide (e ≠ '\n') = true := fun e he => by
          rw [decide_eq_true_eq]
          rintro rfl
          exact hmem he
        rw [commentTail, List.takeWhile_append_of_pos hall, List.length_append,
          List.takeWhile_cons_of_pos (by decide), List.length_cons] at h
        omega
      rw [commentTail_of_append (commentTail_of_lineFeed (.inl hline)), ho]
    · have hlen : (r.take n).length = n := List.length_take_of_le hle
      rw [← List.take_append_drop n r, List.append_assoc] at h ⊢
      have h' : opening c (r.take n ++ (r.drop n ++ '"' :: z)) = some (k, (r.take n).length) := by
        rw [h, hlen]
      rw [opening_append_congr h' hk, hlen]
      · simp
      · cases r.drop n <;> simp
      · cases r.drop n <;> simp

/-- A text that is cut in front of a quote is cut in front of any other, if a blank stands in front
of it. -/
theorem segments_of_cut_quote {x : List Char} {l : List Segment}
    (h : segments (x ++ z) = segments x ++ l) {d : Char} (hlast : x.getLast? = some d)
    (hd : isAsciiBlank d = true) : segments (x ++ z') = segments x ++ segments z' := by
  rcases segments_append_or_straddle x z' with
    hcut | ⟨s₁, k, u, w, s₂, -, rfl, -, hu, hw, hfront, hrun⟩
  · exact hcut
  · -- a run across the cut would be as long in front of `z`
    rw [hfront, List.append_assoc, List.append_assoc] at h
    have hcut := (segments_of_append h rfl).2
    obtain ⟨c, r, rfl⟩ := List.exists_cons_of_ne_nil hu
    have hlast' : (c :: r).getLast? = some d := by
      rw [List.getLast?_append, List.getLast?_eq_some_getLast hu, Option.some_or] at hlast
      rw [List.getLast?_eq_some_getLast hu, hlast]
    have hopen := opening_of_cut_quote hz hz' (opening_of_cut hcut) hlast' hd
    rw [List.cons_append] at hrun
    cases ho : opening c r with
    | none => simp [segments_plain (hopen.trans ho)] at hrun
    | some p =>
      have hle := opening_le (k := p.1) (n := p.2) ho
      rw [segments_inert (k := p.1) (n := p.2) (hopen.trans ho), List.cons.injEq,
        Segment.inert.injEq, List.take_append_of_le_length hle] at hrun
      have hlen := congrArg List.length hrun.1.2
      have := List.length_pos_iff.mpr hw
      rw [List.length_append, List.length_cons, List.length_cons, List.length_take] at hlen
      omega

end Replace

theorem shortTail_of_plain {body : List Char} (h : ∀ c ∈ body, c ≠ '"' ∧ c ≠ '\\' ∧ c ≠ '\n')
    (y : List Char) : shortTail (body ++ '"' :: y) = body.length + 1 := by
  induction body with
  | nil => simp
  | cons c body ih =>
    obtain ⟨hq, hb, hn⟩ := h c (List.mem_cons_self ..)
    rw [List.cons_append, shortTail_cons hq hn hb, ih fun d hd => h d (List.mem_cons_of_mem _ hd)]
    rfl

/-- A body without quotes, backslashes and line feeds makes a short literal. -/
theorem segments_literal {body : List Char} (h : ∀ c ∈ body, c ≠ '"' ∧ c ≠ '\\' ∧ c ≠ '\n')
    {y : List Char} (hy : body = [] → y.head? ≠ some '"') :
    segments (literal body ++ y) = .inert .shortLiteral (literal body) :: segments y := by
  have htriple : ¬startsTriple ('"' :: (body ++ '"' :: y)) = true := by
    intro ht
    obtain ⟨w, hw⟩ := startsTriple_iff.mp ht
    cases body with
    | nil => exact hy rfl (by simp at hw; rw [hw]; rfl)
    | cons c body => exact (h c (List.mem_cons_self ..)).1 (by simp at hw; exact hw.1)
  have htake : (body ++ '"' :: y).take (body.length + 1) = body ++ ['"'] := by
    rw [List.take_length_add_append]
    rfl
  have hdrop : (body ++ '"' :: y).drop (body.length + 1) = y := by
    rw [List.drop_length_add_append]
    rfl
  rw [literal_append, segments_inert (opening_quote htriple), shortTail_of_plain h, htake, hdrop]
  rfl

/-- **A body without quotes, backslashes and line feeds can take the place of any other.** -/
theorem LiteralAt.replace {x body body' y : List Char} (hl : LiteralAt x body y) {d : Char}
    (hlast : x.getLast? = some d) (hd : isAsciiBlank d = true)
    (h : ∀ c ∈ body', c ≠ '"' ∧ c ≠ '\\' ∧ c ≠ '\n') (hy : body' = [] → y.head? ≠ some '"') :
    LiteralAt x body' y := by
  rw [LiteralAt, segments_of_cut_quote (z := literal body ++ y) rfl rfl hl hlast hd,
    segments_literal h hy]

end FormOntology.Turtle
