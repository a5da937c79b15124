import FormOntology.Proofs.Turtle.Segments

/-!
# Marks

Whether a character of a text is inert is looked up by binary search in the spans of the runs.  The
spans are ordered, so the look-up answers what the segments say: the characters of runs are inert
and the plain ones are not.

## Main definitions

* `inertRuns` — the spans of the runs of a text, as ordered spans.
* `marksOf` — the characters of a list of segments, marked by the kind of segment they are from.

## Main results

* `contains_inertRanges_iff` — binary search finds whether an offset lies in a run.
* `mark_eq_marksOf` — a marked text is its marked segments.
* `contains_inertRanges_eq_false_iff` — a character is outside every run exactly when it is a
  segment of its own.
-/

namespace FormOntology.Turtle

open Text

/-! ### Spans of runs -/

theorem rangesFrom_append (offset : Nat) (l l' : List Segment) :
    rangesFrom offset (l ++ l')
      = rangesFrom offset l ++ rangesFrom (offset + size (textOf l)) l' := by
  induction l generalizing offset with
  | nil => rfl
  | cons s l ih =>
    cases s with
    | plain c => simp [rangesFrom, ih, Nat.add_assoc]
    | inert k t => simp [rangesFrom, ih, Nat.add_assoc]

/-- The spans of runs lie between the ends of their text. -/
theorem le_of_mem_rangesFrom {offset : Nat} {l : List Segment} {s : Span}
    (h : s ∈ rangesFrom offset l) :
    offset ≤ s.start ∧ s.start ≤ s.stop ∧ s.stop ≤ offset + size (textOf l) := by
  induction l generalizing offset with
  | nil => simp [rangesFrom] at h
  | cons t l ih =>
    cases t with
    | plain c =>
      obtain ⟨h₁, h₂, h₃⟩ := ih h
      simp only [textOf_cons, Segment.text_plain, size_append, size_cons, size_nil]
      omega
    | inert k t =>
      simp only [textOf_cons, Segment.text_inert, size_append]
      rcases List.mem_cons.mp h with rfl | h
      · simp only
        omega
      · obtain ⟨h₁, h₂, h₃⟩ := ih h
        omega

/-- A span of a list of segments belongs to a run. -/
theorem exists_of_mem_rangesFrom {offset : Nat} {l : List Segment} {s : Span}
    (h : s ∈ rangesFrom offset l) : ∃ s₁ k t s₂, l = s₁ ++ .inert k t :: s₂
      ∧ s = ⟨offset + size (textOf s₁), offset + size (textOf s₁) + size t⟩ := by
  induction l generalizing offset with
  | nil => simp [rangesFrom] at h
  | cons x l ih =>
    cases x with
    | plain c =>
      obtain ⟨s₁, k, t, s₂, rfl, rfl⟩ := ih h
      exact ⟨.plain c :: s₁, k, t, s₂, rfl, by simp [Nat.add_assoc]⟩
    | inert k' t' =>
      rcases List.mem_cons.mp h with rfl | h
      · exact ⟨[], k', t', l, rfl, rfl⟩
      · obtain ⟨s₁, k, t, s₂, rfl, rfl⟩ := ih h
        exact ⟨.inert k' t' :: s₁, k, t, s₂, rfl, by simp [Nat.add_assoc]⟩

theorem pairwise_rangesFrom (offset : Nat) (l : List Segment) :
    (rangesFrom offset l).Pairwise fun s t => s.stop ≤ t.start := by
  induction l generalizing offset with
  | nil => exact .nil
  | cons t l ih =>
    cases t with
    | plain c => exact ih _
    | inert k t =>
      exact .cons (fun s hs => (le_of_mem_rangesFrom hs).1) (ih _)

/-- The spans of the runs of a text, which are in order. -/
def inertRuns (text : List Char) : OrderedSpans where
  list := inertRanges text
  start_le_stop _ hs := (le_of_mem_rangesFrom hs).2.1
  pairwise := pairwise_rangesFrom 0 _

/-- Binary search finds whether an offset lies in a run. -/
theorem contains_inertRanges_iff {text : List Char} {n : Nat} :
    Spans.contains (inertRanges text).toArray n = true ↔ ∃ s ∈ inertRanges text, s.Contains n :=
  (inertRuns text).contains_iff n

/-- Where a plain character stands there is no run. -/
theorem contains_inertRanges_of_plain {text : List Char} {s₁ s₂ : List Segment} {c : Char}
    (h : segments text = s₁ ++ .plain c :: s₂) :
    Spans.contains (inertRanges text).toArray (size (textOf s₁)) = false := by
  rw [← Bool.not_eq_true, contains_inertRanges_iff, inertRanges, h,
    rangesFrom_append, Nat.zero_add]
  rintro ⟨s, hs, h₁, h₂⟩
  have hc := c.utf8Size_pos
  rcases List.mem_append.mp hs with hs | hs
  · have := (le_of_mem_rangesFrom hs).2.2
    omega
  · have : s ∈ rangesFrom (size (textOf s₁) + c.utf8Size) s₂ := hs
    have := (le_of_mem_rangesFrom this).1
    omega

/-- Every character of a run is in the span of the run. -/
theorem contains_inertRanges_of_inert {text : List Char} {s₁ s₂ : List Segment} {k : Inert}
    {u w : List Char} (h : segments text = s₁ ++ .inert k (u ++ w) :: s₂) (hw : w ≠ []) :
    Spans.contains (inertRanges text).toArray (size (textOf s₁ ++ u)) = true := by
  rw [contains_inertRanges_iff, inertRanges, h, rangesFrom_append,
    Nat.zero_add]
  refine ⟨_, List.mem_append_right _ (List.mem_cons_self ..), ?_⟩
  obtain ⟨d, w, rfl⟩ := List.exists_cons_of_ne_nil hw
  have hd := d.utf8Size_pos
  simp only [Span.Contains, size_append, size_cons]
  omega

/-- **A character is outside every run exactly when it is a segment of its own.** -/
theorem contains_inertRanges_eq_false_iff {x y : List Char} {c : Char} :
    Spans.contains (inertRanges (x ++ c :: y)).toArray (size x) = false
      ↔ ∃ s₁ s₂, segments (x ++ c :: y) = s₁ ++ .plain c :: s₂ ∧ textOf s₁ = x := by
  constructor
  · intro h
    rcases textOf_eq_append (textOf_segments (x ++ c :: y)) with
      ⟨s₁, s₂, hs, hx, hy⟩ | ⟨s₁, k, u, w, s₂, hs, hx, _, _, hw⟩
    · cases s₂ with
      | nil => simp at hy
      | cons s s₂ =>
        cases s with
        | plain d =>
          simp only [textOf_cons, Segment.text_plain, List.cons_append, List.nil_append,
            List.cons.injEq] at hy
          exact ⟨s₁, s₂, hy.1 ▸ hs, hx⟩
        | inert k t =>
          -- the character is the first of a run
          have ht : t ≠ [] := text_ne_nil_of_segments (segments_of_append hs hx).2
          have := contains_inertRanges_of_inert (u := []) hs ht
          rw [List.append_nil, hx, h] at this
          simp at this
    · -- the character stands inside a run
      have := contains_inertRanges_of_inert hs hw
      rw [← hx, h] at this
      simp at this
  · rintro ⟨s₁, s₂, h, rfl⟩
    exact contains_inertRanges_of_plain h

/-! ### Marked segments -/

/-- The characters of a segment, marked. -/
def Segment.marks : Segment → List Mark
  | plain c => [⟨c, false⟩]
  | inert _ t => t.map (⟨·, true⟩)

/-- The characters of a list of segments, marked. -/
def marksOf (l : List Segment) : List Mark := l.flatMap Segment.marks

@[simp] theorem marksOf_nil : marksOf [] = [] := rfl

@[simp] theorem marksOf_plain (c : Char) (l : List Segment) :
    marksOf (.plain c :: l) = ⟨c, false⟩ :: marksOf l := rfl

@[simp] theorem marksOf_inert (k : Inert) (t : List Char) (l : List Segment) :
    marksOf (.inert k t :: l) = t.map (⟨·, true⟩) ++ marksOf l := rfl

@[simp] theorem marksOf_append (l l' : List Segment) :
    marksOf (l ++ l') = marksOf l ++ marksOf l' := List.flatMap_append

@[simp] theorem map_char_marksOf (l : List Segment) : (marksOf l).map Mark.char = textOf l := by
  induction l with
  | nil => rfl
  | cons s l ih => cases s <;> simp [ih, Function.comp_def]

/-- The characters of a run are marked as inert. -/
theorem markFrom_run {spans : Array Span} {offset : Nat} {t rest : List Char}
    (h : ∀ u w, t = u ++ w → w ≠ [] → Spans.contains spans (offset + size u) = true) :
    markFrom spans offset (t ++ rest)
      = t.map (⟨·, true⟩) ++ markFrom spans (offset + size t) rest := by
  induction t generalizing offset with
  | nil => simp
  | cons c t ih =>
    have hc := h [] (c :: t) rfl (by simp)
    rw [size_nil, Nat.add_zero] at hc
    rw [List.cons_append, markFrom, hc, ih, List.map_cons, List.cons_append, size_cons,
      Nat.add_assoc]
    intro u w ht hw
    rw [Nat.add_assoc]
    exact h (c :: u) w (by rw [ht]; rfl) hw

/-- **A marked text is its marked segments.** -/
theorem mark_eq_marksOf (text : List Char) : mark text = marksOf (segments text) := by
  -- the ranges belong to the whole text, so the induction runs over what is left of its segments
  have key : ∀ l₂ l₁, segments text = l₁ ++ l₂ →
      markFrom (inertRanges text).toArray (size (textOf l₁)) (textOf l₂) = marksOf l₂ := by
    intro l₂
    induction l₂ with
    | nil => intro l₁ _; rfl
    | cons s l₂ ih =>
      intro l₁ h
      have hrest := ih (l₁ ++ [s]) (by simpa using h)
      rw [textOf_append, size_append] at hrest
      cases s with
      | plain c =>
        have hc := contains_inertRanges_of_plain h
        simp only [textOf_cons, Segment.text_plain, List.cons_append, List.nil_append, markFrom,
          textOf_nil, size_cons, size_nil, Nat.add_zero] at hrest ⊢
        rw [hc, hrest, marksOf_plain]
      | inert k t =>
        simp only [textOf_cons, Segment.text_inert, textOf_nil, List.append_nil] at hrest ⊢
        rw [markFrom_run, hrest, marksOf_inert]
        intro u w ht hw
        rw [ht] at h
        rw [← size_append]
        exact contains_inertRanges_of_inert h hw
  simpa [mark] using key (segments text) [] rfl

end FormOntology.Turtle
