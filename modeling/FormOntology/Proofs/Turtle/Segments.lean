import FormOntology.Proofs.Turtle.Runs

/-!
# Cutting at the ends of segments

A text is cut into segments from left to right, with look-ahead: three quotes open another kind of
literal than one, and a `<` opens an IRI only if its `>` comes in time.  Still, what is cut in
front of the end of a segment does not depend on what follows that end.

Where a text is continued, its last run may go on in the continuation.  Behind a line feed only a
literal can.

## Main definitions

* `textOf` — the characters of a list of segments.
* `endsInert` — whether a letter written behind a text would be inert.

## Main results

* `segments_append_of_prefix` — in front of the end of a segment a text is cut as the whole is.
* `segments_append_or_straddle` — two texts are cut apart, or one run goes from the first into the
  second.
* `segments_append_of_not_endsInert` — what follows a text of whole lines that ends outside every
  run is cut as if it stood alone.
-/

namespace FormOntology.Turtle

open Text

/-! ### The characters of segments -/

/-- The characters of a list of segments. -/
def textOf (l : List Segment) : List Char := l.flatMap Segment.text

@[simp] theorem textOf_nil : textOf [] = [] := rfl

@[simp] theorem textOf_cons (s : Segment) (l : List Segment) :
    textOf (s :: l) = s.text ++ textOf l := rfl

@[simp] theorem textOf_append (l l' : List Segment) : textOf (l ++ l') = textOf l ++ textOf l' :=
  List.flatMap_append

@[simp] theorem textOf_segments (text : List Char) : textOf (segments text) = text :=
  segments_flatten text

@[simp] theorem textOf_map_plain (text : List Char) : textOf (text.map .plain) = text := by
  induction text with
  | nil => rfl
  | cons c r ih => simp [ih]

/-- The first segment of a text is not empty. -/
theorem text_ne_nil_of_segments {text : List Char} {s : Segment} {l : List Segment}
    (h : segments text = s :: l) : s.text ≠ [] := by
  cases text with
  | nil => simp at h
  | cons c r =>
    cases ho : opening c r with
    | none =>
      rw [segments_plain ho, List.cons.injEq] at h
      simp [← h.1]
    | some p =>
      obtain ⟨k, n⟩ := p
      rw [segments_inert ho, List.cons.injEq] at h
      simp [← h.1]

/-! ### Segments of a prefix -/

/-- **In front of the end of a segment a text is cut as the whole is**, however much of what
follows that end is left away. -/
theorem segments_append_of_prefix {x y z : List Char} {s₁ s₂ : List Segment}
    (h : segments (x ++ (y ++ z)) = s₁ ++ s₂) (hx : textOf s₁ = x) :
    segments (x ++ y) = s₁ ++ segments y := by
  induction s₁ generalizing x with
  | nil =>
    obtain rfl : x = [] := hx.symm
    rfl
  | cons s s₁ ih =>
    rw [textOf_cons] at hx
    have hs := text_ne_nil_of_segments h
    obtain ⟨c, r, rfl⟩ : ∃ c r, x = c :: r :=
      List.exists_cons_of_ne_nil (by rw [← hx]; simp [hs])
    rw [List.cons_append] at h ⊢
    cases ho : opening c (r ++ (y ++ z)) with
    | none =>
      rw [segments_plain ho, List.cons_append, List.cons.injEq] at h
      obtain ⟨rfl, h⟩ := h
      rw [← List.append_assoc] at ho
      simp only [Segment.text_plain, List.cons_append, List.nil_append, List.cons.injEq,
        true_and] at hx
      rw [segments_plain (opening_eq_none_of_append ho), ih h hx, List.cons_append]
    | some p =>
      obtain ⟨k, n⟩ := p
      rw [segments_inert ho, List.cons_append, List.cons.injEq] at h
      obtain ⟨rfl, h⟩ := h
      simp only [Segment.text_inert, List.cons_append, List.cons.injEq, true_and] at hx
      -- the run ends in `x`, so it does not see what is left away
      have hn : n ≤ r.length := by
        have := congrArg List.length hx
        have hle := opening_le ho
        simp only [List.length_append, List.length_take] at this hle
        omega
      rw [List.take_append_of_le_length hn] at hx ⊢
      rw [List.drop_append_of_le_length hn] at h
      have htail : textOf s₁ = r.drop n :=
        List.append_cancel_left (hx.trans (List.take_append_drop n r).symm)
      rw [← List.append_assoc] at ho
      rw [segments_inert (opening_of_append ho (Nat.le_trans hn (by simp))),
        List.take_append_of_le_length hn, List.drop_append_of_le_length hn, ih h htail,
        List.cons_append]

/-- A text cut at the end of a segment is cut into two parts, each as if it stood alone. -/
theorem segments_of_append {x z : List Char} {s₁ s₂ : List Segment}
    (h : segments (x ++ z) = s₁ ++ s₂) (hx : textOf s₁ = x) :
    segments x = s₁ ∧ segments z = s₂ := by
  have hfront := segments_append_of_prefix (y := []) (z := z) (by simpa using h) hx
  have hrest := segments_append_of_prefix (y := z) (z := []) (by simpa using h) hx
  rw [h] at hrest
  exact ⟨by simpa using hfront, (List.append_cancel_left hrest).symm⟩

/-- No segment of a text is empty. -/
theorem text_ne_nil_of_mem_segments {text : List Char} {s : Segment} (h : s ∈ segments text) :
    s.text ≠ [] := by
  obtain ⟨s₁, s₂, hs⟩ := List.append_of_mem h
  have htext : text = textOf s₁ ++ textOf (s :: s₂) := by
    rw [← textOf_segments text, hs, textOf_append]
  rw [htext] at hs
  exact text_ne_nil_of_segments (segments_of_append hs rfl).2

/-! ### Continued texts -/

/-- A place in the text of a list of segments is the end of one of them or inside a run. -/
theorem textOf_eq_append {l : List Segment} {x y : List Char} (h : textOf l = x ++ y) :
    (∃ s₁ s₂, l = s₁ ++ s₂ ∧ textOf s₁ = x ∧ textOf s₂ = y)
      ∨ ∃ s₁ k u w s₂, l = s₁ ++ .inert k (u ++ w) :: s₂ ∧ x = textOf s₁ ++ u
        ∧ y = w ++ textOf s₂ ∧ u ≠ [] ∧ w ≠ [] := by
  induction l generalizing x with
  | nil =>
    obtain ⟨rfl, rfl⟩ : x = [] ∧ y = [] := by simpa using h.symm
    exact .inl ⟨[], [], rfl, rfl, rfl⟩
  | cons s l ih =>
    by_cases hx : x = []
    · exact .inl ⟨[], s :: l, rfl, hx.symm, by simpa [hx] using h⟩
    rw [textOf_cons, List.append_eq_append_iff] at h
    rcases h with ⟨u, rfl, h⟩ | ⟨w, hs, hy⟩
    · -- the place is behind the first segment
      rcases ih h with ⟨s₁, s₂, rfl, rfl, rfl⟩ | ⟨s₁, k, u', w, s₂, rfl, rfl, rfl, hu, hw⟩
      · exact .inl ⟨s :: s₁, s₂, rfl, rfl, rfl⟩
      · exact .inr ⟨s :: s₁, k, u', w, s₂, rfl, by simp, rfl, hu, hw⟩
    · by_cases hw : w = []
      · exact .inl ⟨[s], l, rfl, by simpa [hw] using hs, by simpa [hw] using hy.symm⟩
      · -- it is inside the first segment, which is no single character
        cases s with
        | plain c =>
          rw [Segment.text_plain, List.singleton_eq_append_iff] at hs
          exact absurd hs (by simp [hx, hw])
        | inert k t =>
          exact .inr ⟨[], k, x, w, l, by simpa using hs, rfl, hy, hx, hw⟩

/-- Two texts are cut apart, or one run goes from the first into the second. -/
theorem segments_append_or_straddle (x y : List Char) :
    segments (x ++ y) = segments x ++ segments y
      ∨ ∃ s₁ k u w s₂, segments (x ++ y) = s₁ ++ .inert k (u ++ w) :: s₂ ∧ x = textOf s₁ ++ u
        ∧ y = w ++ textOf s₂ ∧ u ≠ [] ∧ w ≠ [] ∧ segments x = s₁ ++ segments u
        ∧ segments (u ++ y) = .inert k (u ++ w) :: s₂ := by
  rcases textOf_eq_append (textOf_segments (x ++ y)) with
    ⟨s₁, s₂, h, hx, _⟩ | ⟨s₁, k, u, w, s₂, h, hx, hy, hu, hw⟩
  · obtain ⟨rfl, rfl⟩ := segments_of_append h hx
    exact .inl h
  · refine .inr ⟨s₁, k, u, w, s₂, h, hx, hy, hu, hw, ?_, ?_⟩
    · subst hx
      exact segments_append_of_prefix (z := y) (by simpa using h) rfl
    · subst hx
      rw [List.append_assoc] at h
      exact (segments_of_append h rfl).2

/-- A run that goes from a text into the next one opens with the first character of its part in the
text and reaches over the end of that part. -/
theorem exists_opening_of_straddle {u w y : List Char} {k : Inert} {s₂ : List Segment}
    (hu : u ≠ []) (hw : w ≠ []) (h : segments (u ++ y) = .inert k (u ++ w) :: s₂) :
    ∃ c r n, u = c :: r ∧ opening c (r ++ y) = some (k, n) ∧ r.length < n := by
  obtain ⟨c, r, rfl⟩ := List.exists_cons_of_ne_nil hu
  rw [List.cons_append] at h
  cases ho : opening c (r ++ y) with
  | none =>
    rw [segments_plain ho] at h
    simp at h
  | some p =>
    obtain ⟨k', n⟩ := p
    rw [segments_inert ho, List.cons.injEq, Segment.inert.injEq] at h
    obtain ⟨⟨rfl, h⟩, -⟩ := h
    refine ⟨c, r, n, rfl, ho, ?_⟩
    have hlen := congrArg List.length h
    have := List.length_pos_iff.mpr hw
    simp only [List.length_take, List.length_append, List.length_cons] at hlen
    omega

/-! ### Line borders

Where a line ends, comments end and a `<` is settled, so only a literal goes on. -/

/-- Whether a line ends between two texts, or one of them is empty. -/
def LineBorder (x y : List Char) : Prop :=
  x = [] ∨ y = [] ∨ x.getLast? = some '\n' ∨ y.head? = some '\n'

/-- A piece that ends a text with a line border behind it sees that border. -/
theorem LineBorder.of_append {x u y : List Char} (h : LineBorder (x ++ u) y) (hu : u ≠ [])
    (hy : y ≠ []) : '\n' ∈ u ∨ y.head? = some '\n' := by
  rcases h with h | h | h | h
  · exact absurd (List.append_eq_nil_iff.mp h).2 hu
  · exact absurd h hy
  · rw [List.getLast?_append, List.getLast?_eq_some_getLast hu, Option.some_or,
      Option.some.injEq] at h
    exact .inl (h ▸ List.getLast_mem hu)
  · exact .inr h

/-- **A run that goes on behind the end of a line is a literal**, and what is in front of that end
belongs to it whatever it goes on with. -/
theorem segments_of_straddle {u w y : List Char} {k : Inert} {s₂ : List Segment}
    (hb : '\n' ∈ u ∨ y.head? = some '\n') (hu : u ≠ []) (hw : w ≠ [])
    (h : segments (u ++ y) = .inert k (u ++ w) :: s₂) :
    k ≠ .comment ∧ segments u = [.inert k u]
      ∧ segments (u ++ ['x']) = [.inert k (u ++ ['x'])] := by
  obtain ⟨c, r, n, rfl, ho, hlt⟩ := exists_opening_of_straddle hu hw h
  rw [List.cons_append]
  -- a line feed opens no run, so it is not the first character
  have hb' : '\n' ∈ r ∨ y.head? = some '\n' := by
    refine hb.imp_left fun hmem => (List.mem_cons.mp hmem).resolve_left ?_
    rintro rfl
    simp [opening_eq_none_iff.mpr] at ho
  obtain ⟨hk, h₁, h₂⟩ := opening_of_lt_append hb' ho hlt
  refine ⟨hk, ?_, ?_⟩
  · rw [segments_inert h₁]
    simp
  · rw [segments_inert h₂, List.take_of_length_le (by simp), List.drop_of_length_le (by simp),
      segments_nil]

/-- Whether a letter written behind a text would belong to its last run. -/
def endsInert (text : List Char) : Bool :=
  segments (text ++ ['x']) != segments text ++ [.plain 'x']

/-- **What follows a text of whole lines that ends outside every run is cut as if it stood
alone.** -/
theorem segments_append_of_not_endsInert {x : List Char} (hx : x = [] ∨ x.getLast? = some '\n')
    (h : endsInert x = false) (y : List Char) :
    segments (x ++ y) = segments x ++ segments y := by
  rcases segments_append_or_straddle x y with
    hcut | ⟨s₁, k, u, w, s₂, -, rfl, rfl, hu, hw, hfront, hrun⟩
  · exact hcut
  · have hb : LineBorder (textOf s₁ ++ u) (w ++ textOf s₂) :=
      hx.elim .inl fun hl => .inr (.inr (.inl hl))
    obtain ⟨-, halone, hletter⟩ :=
      segments_of_straddle (hb.of_append hu (by simp [hw])) hu hw hrun
    rw [endsInert, bne_eq_false_iff_eq, hfront, halone, List.append_assoc,
      List.append_assoc] at h
    rw [(segments_of_append h rfl).2] at hletter
    simp at hletter

/-- A line border leaves the segments of what is in front of it, but for the last, which may be a
literal that goes on. -/
theorem segments_append_of_lineBorder {x y : List Char} (h : LineBorder x y) :
    segments (x ++ y) = segments x ++ segments y
      ∨ ∃ s₁ k u w s₂, k ≠ .comment ∧ segments x = s₁ ++ [.inert k u] ∧ y = w ++ textOf s₂
        ∧ segments (x ++ y) = s₁ ++ .inert k (u ++ w) :: s₂ := by
  rcases segments_append_or_straddle x y with
    hcut | ⟨s₁, k, u, w, s₂, hxy, rfl, rfl, hu, hw, hfront, hrun⟩
  · exact .inl hcut
  · obtain ⟨hk, halone, -⟩ := segments_of_straddle (h.of_append hu (by simp [hw])) hu hw hrun
    exact .inr ⟨s₁, k, u, w, s₂, hk, by rw [hfront, halone], rfl, hxy⟩

end FormOntology.Turtle
