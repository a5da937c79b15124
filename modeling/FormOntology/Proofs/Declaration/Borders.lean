import FormOntology.Proofs.Declaration.Blocks

/-!
# Anchors and full stops across line borders

A text of whole lines that ends outside every literal leaves what follows it alone.  What follows
the end of a line leaves the headers and the full stops in front of it alone.

## Main results

* `contains_inertRanges_append`, `contains_inertRanges_of_lineBorder` — which characters are inert
  on either side of a border.
* `liveAnchors_append_of_line`, `liveAnchors_append_of_lineBorder` — the anchors on either side.
* `fullStop?_append_left`, `fullStop?_of_lineBorder` — the full stops on either side.
* `le_start_of_fullStop?` — a full stop does not stand in a header.
-/

namespace FormOntology

open Text Turtle

/-! ### Runs across borders -/

theorem rangesFrom_add (k offset : Nat) (l : List Segment) :
    rangesFrom (k + offset) l = (rangesFrom offset l).map (Span.shift k) := by
  induction l generalizing offset with
  | nil => rfl
  | cons s l ih =>
    cases s with
    | plain c => rw [rangesFrom, rangesFrom, Nat.add_assoc, ih]
    | inert _ t => rw [rangesFrom, rangesFrom, Nat.add_assoc, ih]; rfl

/-- Behind a text that is cut off, characters are inert as they are in what follows alone. -/
theorem contains_inertRanges_append {x y : List Char}
    (h : segments (x ++ y) = segments x ++ segments y) (n : Nat) :
    Spans.contains (inertRanges (x ++ y)).toArray (size x + n)
      = Spans.contains (inertRanges y).toArray n := by
  rw [Bool.eq_iff_iff, contains_inertRanges_iff, contains_inertRanges_iff, inertRanges, inertRanges,
    h, rangesFrom_append, textOf_segments, Nat.add_comm 0, rangesFrom_add]
  constructor
  · rintro ⟨s, hs, h₁, h₂⟩
    rcases List.mem_append.mp hs with hs | hs
    · have := (le_of_mem_rangesFrom hs).2.2
      rw [textOf_segments] at this
      omega
    · obtain ⟨t, ht, rfl⟩ := List.mem_map.mp hs
      simp only [Span.shift] at h₁ h₂
      exact ⟨t, ht, by omega, by omega⟩
  · rintro ⟨s, hs, h₁, h₂⟩
    refine ⟨s.shift (size x), List.mem_append_right _ (List.mem_map_of_mem hs), ?_, ?_⟩ <;>
      simp only [Span.shift] <;> omega

/-- In front of a line border, characters are inert as they are without what follows. -/
theorem contains_inertRanges_of_lineBorder {x y : List Char} (h : LineBorder x y) {n : Nat}
    (hn : n < size x) : Spans.contains (inertRanges (x ++ y)).toArray n
      = Spans.contains (inertRanges x).toArray n := by
  rw [Bool.eq_iff_iff, contains_inertRanges_iff, contains_inertRanges_iff, inertRanges, inertRanges]
  rcases segments_append_of_lineBorder h with hcut | ⟨s₁, k, u, w, s₂, -, hx, hy, hxy⟩
  · rw [hcut, rangesFrom_append, textOf_segments, Nat.zero_add]
    constructor
    · rintro ⟨s, hs, h₁, h₂⟩
      rcases List.mem_append.mp hs with hs | hs
      · exact ⟨s, hs, h₁, h₂⟩
      · have := (le_of_mem_rangesFrom hs).1
        omega
    · rintro ⟨s, hs, hc⟩
      exact ⟨s, List.mem_append_left _ hs, hc⟩
  · -- the last run of `x` goes on in `y`
    have hsize : size x = size (textOf s₁) + size u := by
      rw [← textOf_segments x, hx, textOf_append, size_append]
      simp
    rw [hx, hxy, rangesFrom_append, rangesFrom_append, Nat.zero_add]
    simp only [rangesFrom, List.mem_append, List.mem_cons, List.not_mem_nil, or_false]
    constructor
    · rintro ⟨s, hs | rfl | hs, h₁, h₂⟩
      · exact ⟨s, .inl hs, h₁, h₂⟩
      · exact ⟨_, .inr rfl, h₁, by simp only; omega⟩
      · have := (le_of_mem_rangesFrom hs).1
        rw [size_append] at this
        omega
    · rintro ⟨s, hs | rfl, h₁, h₂⟩
      · exact ⟨s, .inl hs, h₁, h₂⟩
      · refine ⟨_, .inr (.inl rfl), h₁, ?_⟩
        simp only [size_append] at h₁ h₂ ⊢
        omega

/-- A line border keeps the marks in front of it. -/
theorem mark_append_of_lineBorder {x y : List Char} (h : LineBorder x y) :
    ∃ ms, mark (x ++ y) = mark x ++ ms ∧ ms.map Mark.char = y := by
  rw [mark_eq_marksOf, mark_eq_marksOf]
  rcases segments_append_of_lineBorder h with hcut | ⟨s₁, k, u, w, s₂, -, hx, hy, hxy⟩
  · exact ⟨marksOf (segments y), by rw [hcut, marksOf_append], by simp⟩
  · refine ⟨w.map (⟨·, true⟩) ++ marksOf s₂, ?_, ?_⟩
    · rw [hxy, hx]
      simp
    · simp [hy, Function.comp_def]

/-! ### Anchors between borders -/

/-- Behind whole lines the anchors are those of what follows, if the search does not pass over its
start. -/
theorem liveAnchors_append_of_line {v : Vocabulary} {x y : List Char}
    (hx : ∀ c, x.getLast? = some c → c = '\n') (hcut : segments (x ++ y) = segments x ++ segments y)
    (hcross : v.accepts "owl" = false ∨ ∀ a ∈ anchors v (x ++ y),
      a.span.start < size x → a.span.stop ≤ size x) :
    ∃ as, liveAnchors v (x ++ y) = as ++ (liveAnchors v y).map (Anchor.shift (size x))
      ∧ ∀ a ∈ as, a.span.start < size x := by
  obtain ⟨as, has, hlt⟩ := anchorsFrom_append_of_line 0 true hx
    (fun _ => rfl) (by simpa only [Nat.zero_add, anchors] using hcross)
  rw [Nat.zero_add] at has hlt
  refine ⟨as.filter fun a => !Spans.contains (inertRanges (x ++ y)).toArray a.span.start, ?_,
    fun a ha => hlt a (List.mem_filter.mp ha).1⟩
  rw [liveAnchors, anchors, has, List.filter_append, ← Nat.add_zero (size x), anchorsFrom_add,
    List.filter_map, liveAnchors, anchors, Nat.add_zero]
  congr 3
  funext a
  simp only [Function.comp_apply, Anchor.shift, Span.shift, contains_inertRanges_append hcut]

/-- In front of a line border the anchors are those without what follows; the further ones end
behind the border. -/
theorem liveAnchors_append_of_lineBorder {v : Vocabulary} {x y : List Char}
    (h : LineBorder x y) : ∃ as, liveAnchors v (x ++ y) = liveAnchors v x ++ as
      ∧ (∀ a ∈ as, a ∈ anchors v (x ++ y)) ∧ ∀ a ∈ as, size x < a.span.stop := by
  -- a mark at the end of `x` ends there as a word, since the line ends or the text does
  have hword : x.getLast? = some 'y' → startsOutsideWord y = true := by
    intro hlast
    rcases h with h | h | h | h
    · simp [h] at hlast
    · rw [h]
      rfl
    · simp [h] at hlast
    · obtain ⟨y, rfl⟩ := List.head?_eq_some_iff.mp h
      exact startsOutsideWord_iff.mpr (stopsBefore_cons.mpr (by decide))
  obtain ⟨as, has, hlt⟩ := anchorsFrom_append (v := v) 0 true hword
  rw [Nat.zero_add] at hlt
  have hanchors : anchors v (x ++ y) = anchors v x ++ as := has
  refine ⟨as.filter fun a => !Spans.contains (inertRanges (x ++ y)).toArray a.span.start, ?_,
    fun a ha => hanchors ▸ List.mem_append_right _ (List.mem_filter.mp ha).1,
    fun a ha => hlt a (List.mem_filter.mp ha).1⟩
  rw [liveAnchors, hanchors, List.filter_append, liveAnchors]
  congr 1
  apply List.filter_congr
  intro a ha
  obtain ⟨x', f, rest, hat, rfl⟩ := headerAt_of_mem_anchors ha
  have := size_pos f.text_ne_nil
  rw [contains_inertRanges_of_lineBorder h]
  rw [hat.text_eq, size_append, size_append]
  simp only
  omega

/-! ### Full stops between borders -/

/-- The marks behind a part of a text. -/
theorem dropMarks_mark {x y : List Char} :
    ∃ ms, (∀ ms', dropMarks (size x) (mark (x ++ y) ++ ms') = ms ++ ms')
      ∧ ms.map Mark.char = y := by
  obtain ⟨m₁, m₂, hm, h₁, h₂⟩ := List.map_eq_append_iff.mp (map_char_mark (x ++ y))
  refine ⟨m₂, ?_, h₂⟩
  intro ms'
  have hsize : markSize m₁ = size x := by rw [markSize, h₁]
  have := dropMarks_append m₁ (m₂ ++ ms') 0
  rwa [Nat.add_zero, hsize, dropMarks_zero, ← List.append_assoc, ← hm] at this

/-- Behind a text that is cut off, full stops are those of what follows alone. -/
theorem fullStop?_append_left {x y : List Char}
    (h : segments (x ++ y) = segments x ++ segments y) (a : Anchor) :
    (a.shift (size x)).fullStop? (mark (x ++ y))
      = (a.fullStop? (mark y)).map (size x + ·) := by
  have hmark : mark (x ++ y) = mark x ++ mark y := by
    rw [mark_eq_marksOf, h, marksOf_append, ← mark_eq_marksOf, ← mark_eq_marksOf]
  rw [Anchor.fullStop?, hmark, Anchor.fullStop?, ← fullStop?_add]
  have := dropMarks_append (mark x) (mark y) a.span.stop
  rw [markSize_mark] at this
  rw [Anchor.shift, Span.shift, this]

/-- A full stop behind an anchor is one of the text. -/
theorem exists_of_fullStop? {v : Vocabulary} {x : List Char} {a : Anchor} {s : Nat}
    (ha : a ∈ anchors v x) (h : a.fullStop? (mark x) = some s) :
    ∃ z w, x = z ++ '.' :: w ∧ s = size z + 1 ∧ a.span.stop ≤ size z := by
  obtain ⟨x', f, rest, hat, rfl⟩ := headerAt_of_mem_anchors ha
  obtain ⟨ms, hms, hrest⟩ := dropMarks_mark (x := x' ++ f.text) (y := rest)
  have hx : x = x' ++ f.text ++ rest := by rw [hat.text_eq, List.append_assoc]
  have hdrop := hms []
  rw [List.append_nil, List.append_nil, ← hx, size_append] at hdrop
  rw [Anchor.fullStop?, hdrop] at h
  obtain ⟨z, w, rfl, -, rfl⟩ := fullStop?_eq_some h
  refine ⟨x' ++ f.text ++ z.map Mark.char, w.map Mark.char, ?_, ?_, ?_⟩
  · rw [hx, ← hrest]
    simp
  · simp [markSize, Nat.add_assoc]
  · simp

/-- In front of a line border, full stops are those without what follows, or come behind the
border. -/
theorem fullStop?_of_lineBorder {v : Vocabulary} {x y : List Char} (h : LineBorder x y)
    {a : Anchor} (ha : a ∈ anchors v x) :
    ∃ later : Option Nat, a.fullStop? (mark (x ++ y)) = (a.fullStop? (mark x)).or later
      ∧ ∀ s, later = some s → size x < s := by
  obtain ⟨x', f, rest, hat, rfl⟩ := headerAt_of_mem_anchors ha
  obtain ⟨ms, hms, hrest⟩ := dropMarks_mark (x := x' ++ f.text) (y := rest)
  obtain ⟨ms', hmark, hy⟩ := mark_append_of_lineBorder h
  have hx : x = x' ++ f.text ++ rest := by rw [hat.text_eq, List.append_assoc]
  rw [← hx, size_append] at hms
  have hdrop := hms []
  rw [List.append_nil, List.append_nil] at hdrop
  -- a full stop at the end of `x` stands alone in both texts
  have hblank : ms.getLast? = some ⟨'.', false⟩ → startsBlank ms' = true := by
    intro hlast
    have hlast' : x.getLast? = some '.' := by
      rw [hx, ← hrest, List.getLast?_append, List.getLast?_map, hlast]
      rfl
    rcases h with h | h | h | h
    · simp [h] at hlast'
    · rw [h, List.map_eq_nil_iff] at hy
      rw [hy]
      rfl
    · simp [h] at hlast'
    · cases ms' with
      | nil => rfl
      | cons m ms' =>
        obtain ⟨y, rfl⟩ := List.head?_eq_some_iff.mp h
        simp only [List.map_cons, List.cons.injEq] at hy
        rw [startsBlank, hy.1]
        decide
  refine ⟨fullStop? (size x' + size f.text + markSize ms) ms', ?_, ?_⟩
  · rw [Anchor.fullStop?, hmark, hms, Anchor.fullStop?, hdrop, fullStop?_append hblank]
  · intro s hs
    have := (lt_of_fullStop? hs).1
    rw [hx, ← hrest, size_append, size_append]
    exact this

/-- A character in front of the end of `a` is one of `a`. -/
theorem mem_of_size_lt {a u t rest : List Char} {c : Char} (h : a ++ rest = u ++ c :: t)
    (hlt : size u < size a) : c ∈ a := by
  rcases append_eq_append_cons h with ⟨w, rfl, -⟩ | ⟨w, rfl, -⟩
  · simp
  · rw [size_append] at hlt
    omega

/-- A full stop does not stand in a header that begins in front of it. -/
theorem le_start_of_fullStop? {v : Vocabulary} {x y z w : List Char} {b : Anchor}
    (hb : b ∈ anchors v (x ++ y)) (hstop : size x < b.span.stop) (hx : x = z ++ '.' :: w) :
    size z + 1 ≤ b.span.start := by
  obtain ⟨x', f, rest, hat, rfl⟩ := headerAt_of_mem_anchors hb
  apply Nat.lt_of_not_le
  intro hle
  simp only at hle hstop
  have htext := hat.text_eq
  rw [hx, List.append_assoc] at htext
  -- the header would reach over the full stop
  have hdot : '.' ∈ f.text := by
    rcases List.append_eq_append_iff.mp htext with ⟨u, rfl, hu⟩ | ⟨u, rfl, hu⟩
    · have hnil : u = [] := by
        by_cases hnil : u = []
        · exact hnil
        · have := size_pos hnil
          rw [size_append] at hle
          omega
      subst hnil
      exact mem_of_size_lt (u := []) hu.symm (size_pos f.text_ne_nil)
    · apply mem_of_size_lt hu
      rw [hx] at hstop
      simp only [size_append, size_cons] at hstop
      omega
  have := f.isHeaderChar_of_mem hat.valid '.' hdot
  simp [isHeaderChar, isNameChar, isBlank] at this

end FormOntology
