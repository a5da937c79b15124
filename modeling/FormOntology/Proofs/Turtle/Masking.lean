import FormOntology.Proofs.Turtle.Segments
import FormOntology.Turtle.Comment

/-!
# Segments of masked texts

Where comments are blanked out, everything else is cut as before: a literal or an IRI stays what it
is, and a blank opens nothing.

## Main definitions

* `Segment.blanked` — what a segment is cut into when comments are blanked out.

## Main results

* `segments_maskComments` — the segments of a masked text are those of the text, blanked.
* `maskComments_maskComments` — a masked text has nothing to mask.
* `maskComments_append_of_cut` — comments are blanked out on either side of a cut.
* `segments_append_of_blank` — blanks behind a text change none of its segments but the last.
* `maskComments_append_of_blank` — blanks behind a text only add blanks to what is masked.
-/

namespace FormOntology.Turtle

open Text

/-! ### Blanked segments -/

/-- What a segment is cut into when comments are blanked out. -/
def Segment.blanked : Segment → List Segment
  | .inert .comment t => (List.replicate (size t) ' ').map .plain
  | s => [s]

/-- The masked characters of a list of segments. -/
def maskedText (l : List Segment) : List Char := l.flatMap Segment.masked

@[simp] theorem maskedText_nil : maskedText [] = [] := rfl

@[simp] theorem maskedText_cons (s : Segment) (l : List Segment) :
    maskedText (s :: l) = s.masked ++ maskedText l := rfl

@[simp] theorem maskedText_append (l l' : List Segment) :
    maskedText (l ++ l') = maskedText l ++ maskedText l' := List.flatMap_append

theorem size_maskedText (l : List Segment) : size (maskedText l) = size (textOf l) := by
  induction l with
  | nil => rfl
  | cons s l ih => simp [ih, Segment.size_masked]

theorem maskComments_eq_maskedText (text : List Char) :
    maskComments text = maskedText (segments text) := rfl

@[simp] theorem textOf_blanked (s : Segment) : textOf s.blanked = s.masked := by
  cases s with
  | plain c => rfl
  | inert k t => cases k <;> simp [Segment.blanked, Segment.masked, -List.map_replicate]

@[simp] theorem maskedText_map_plain (text : List Char) : maskedText (text.map .plain) = text := by
  induction text with
  | nil => rfl
  | cons c r ih => simp [ih, Segment.masked]

/-- A blanked segment has no comment left. -/
@[simp] theorem maskedText_blanked (s : Segment) : maskedText s.blanked = s.masked := by
  cases s with
  | plain c => rfl
  | inert k t => cases k <;> simp [Segment.blanked, Segment.masked, -List.map_replicate]

theorem Segment.masked_of_ne_comment {k : Inert} (h : k ≠ .comment) (t : List Char) :
    (inert k t).masked = t := by
  cases k <;> first | rfl | exact absurd rfl h

theorem Segment.blanked_of_ne_comment {k : Inert} (h : k ≠ .comment) (t : List Char) :
    (inert k t).blanked = [inert k t] := by
  cases k <;> first | rfl | exact absurd rfl h

theorem Segment.masked_inert_append (k : Inert) (u w : List Char) :
    (inert k (u ++ w)).masked = (inert k u).masked ++ (inert k w).masked := by
  cases k <;> simp [Segment.masked]

theorem Segment.isBlank_of_mem_masked {k : Inert} {t : List Char}
    (h : ∀ d ∈ t, isBlank d = true) : ∀ d ∈ (inert k t).masked, isBlank d = true := by
  cases k with
  | comment => intro d hd; rw [(List.mem_replicate.mp hd).2]; rfl
  | _ => exact h

/-! ### Masking from left to right -/

@[simp] theorem maskComments_nil : maskComments [] = [] := by simp [maskComments]

theorem maskComments_plain {c : Char} {r : List Char} (h : opening c r = none) :
    maskComments (c :: r) = c :: maskComments r := by
  rw [maskComments, segments_plain h]
  rfl

theorem maskComments_run {c : Char} {r : List Char} {k : Inert} {n : Nat}
    (h : opening c r = some (k, n)) :
    maskComments (c :: r)
      = (Segment.inert k (c :: r.take n)).masked ++ maskComments (r.drop n) := by
  rw [maskComments, segments_inert h]
  rfl

theorem maskComments_comment (r : List Char) :
    maskComments ('#' :: r) = List.replicate (size ('#' :: r.take (commentTail r))) ' '
      ++ maskComments (r.drop (commentTail r)) :=
  maskComments_run (opening_hash r)

theorem maskComments_inert {c : Char} {r : List Char} {k : Inert} {n : Nat}
    (h : opening c r = some (k, n)) (hk : k ≠ .comment) :
    maskComments (c :: r) = c :: r.take n ++ maskComments (r.drop n) := by
  rw [maskComments_run h, Segment.masked_of_ne_comment hk]

/-- Masking keeps the first character, unless it opens a comment. -/
theorem maskComments_cons (c : Char) (r : List Char) :
    ∃ r', maskComments (c :: r) = (if c = '#' then ' ' else c) :: r' := by
  by_cases hc : c = '#'
  · subst hc
    rw [maskComments_comment, size_cons, Nat.add_comm, show Char.utf8Size '#' = 1 from rfl,
      List.replicate_succ]
    exact ⟨_, rfl⟩
  · rw [if_neg hc]
    cases ho : opening c r with
    | none => exact ⟨_, maskComments_plain ho⟩
    | some p =>
      refine ⟨_, maskComments_inert (k := p.1) (n := p.2) ho fun hk => hc ?_⟩
      rcases opening_eq_some (k := p.1) (n := p.2) ho with h | h | h | h
      · exact h.1
      · simp [hk] at h
      · simp [hk] at h
      · simp [hk] at h

/-- Text that has no blank in front of its next `>` keeps none. -/
theorem iriTail?_append_eq_none {t x y : List Char} (h : iriTail? (t ++ x) = none)
    (hxy : iriTail? x = none → iriTail? y = none) : iriTail? (t ++ y) = none := by
  induction t with
  | nil => exact hxy h
  | cons c t ih =>
    by_cases hc : c = '>'
    · simp [hc] at h
    by_cases hb : isAsciiBlank c = true
    · exact iriTail?_blank hc hb _
    · rw [List.cons_append, iriTail?_cons hc hb, Option.map_eq_none_iff] at h ⊢
      exact ih h

/-- A `<` that opens nothing opens nothing when comments are blanked out. -/
theorem iriTail?_maskComments {text : List Char} (h : iriTail? text = none) :
    iriTail? (maskComments text) = none := by
  fun_induction segments text with
  | case1 => simp
  | case2 c r ho ih =>
    rw [maskComments_plain ho]
    exact iriTail?_append_eq_none (t := [c]) h ih
  | case3 c r k n ho ih =>
    by_cases hk : k = .comment
    · rcases opening_eq_some ho with ⟨rfl, -⟩ | ⟨-, -, hk', -⟩ | ⟨-, -, hk', -⟩ | ⟨-, hk', -⟩
      · obtain ⟨r', hr⟩ := maskComments_cons '#' r
        rw [hr, if_pos rfl]
        exact iriTail?_blank (by decide) (by decide) _
      all_goals simp [hk] at hk'
    · rw [maskComments_inert ho hk]
      refine iriTail?_append_eq_none (t := c :: r.take n) (x := r.drop n) ?_ ih
      simpa using h

theorem segments_replicate_space (n : Nat) (text : List Char) :
    segments (List.replicate n ' ' ++ text)
      = (List.replicate n ' ').map .plain ++ segments text := by
  induction n with
  | zero => rfl
  | succ n ih =>
    rw [List.replicate_succ, List.cons_append,
      segments_plain (opening_eq_none_iff.mpr (by simp)), ih]
    rfl

/-- A run that is no comment opens the same when the comments behind it are blanked out. -/
theorem opening_maskComments {c : Char} {r : List Char} {k : Inert} {n : Nat}
    (h : opening c r = some (k, n)) (hk : k ≠ .comment) :
    opening c (r.take n ++ maskComments (r.drop n)) = some (k, n) := by
  have hlen : (r.take n).length = n := List.length_take_of_le (opening_le h)
  rw [← List.take_append_drop n r] at h
  have h' : opening c (r.take n ++ r.drop n) = some (k, (r.take n).length) := by rw [h, hlen]
  -- blanking keeps the end of the text and the end of the line, and it makes no quotes
  rw [opening_append_congr h' hk, hlen]
  · intro hz
    rw [hz, maskComments_nil]
  · intro hline
    obtain ⟨z, hz⟩ := List.head?_eq_some_iff.mp hline
    obtain ⟨r', hr⟩ := maskComments_cons '\n' z
    rw [hz, hr]
    rfl
  · intro hquote
    cases hz : r.drop n with
    | nil => simp [hz] at hquote
    | cons d z =>
      obtain ⟨r', hr⟩ := maskComments_cons d z
      rw [hz, hr, List.head?_cons, Option.some.injEq] at hquote
      split at hquote
      · simp at hquote
      · rw [hquote, List.head?_cons]

/-- **The segments of a masked text are those of the text**, with a plain blank for every byte of a
comment. -/
theorem segments_maskComments (text : List Char) :
    segments (maskComments text) = (segments text).flatMap Segment.blanked := by
  fun_induction segments text with
  | case1 => simp
  | case2 c r ho ih =>
    have ho' : opening c (maskComments r) = none := by
      rw [opening_eq_none_iff] at ho ⊢
      exact ⟨ho.1, ho.2.1, fun hc => iriTail?_maskComments (ho.2.2 hc)⟩
    rw [maskComments_plain ho, segments_plain ho', ih]
    rfl
  | case3 c r k n ho ih =>
    by_cases hk : k = .comment
    · -- the blanks of a comment open no run
      subst hk
      rcases opening_eq_some ho with ⟨rfl, -, rfl⟩ | ⟨-, -, hk, -⟩ | ⟨-, -, hk, -⟩ | ⟨-, hk, -⟩
      · rw [maskComments_comment, segments_replicate_space, ih]
        rfl
      all_goals simp at hk
    · have hlen : (r.take n).length = n := List.length_take_of_le (opening_le ho)
      rw [maskComments_inert ho hk, List.cons_append, segments_inert (opening_maskComments ho hk),
        List.take_left' hlen, List.drop_left' hlen, ih, List.flatMap_cons,
        Segment.blanked_of_ne_comment hk]
      rfl

/-- A masked text has nothing to mask. -/
@[simp] theorem maskComments_maskComments (text : List Char) :
    maskComments (maskComments text) = maskComments text := by
  rw [maskComments_eq_maskedText, segments_maskComments, maskComments_eq_maskedText]
  induction segments text with
  | nil => rfl
  | cons s l ih => rw [List.flatMap_cons, maskedText_append, maskedText_blanked, ih]; rfl

/-! ### Texts that are cut -/

section Cut

variable {x y : List Char} (h : segments (x ++ y) = segments x ++ segments y)
include h

/-- Comments are blanked out on either side of a cut. -/
theorem maskComments_append_of_cut : maskComments (x ++ y) = maskComments x ++ maskComments y := by
  rw [maskComments_eq_maskedText, h, maskedText_append]
  rfl

/-- What is cut apart is cut apart where comments are blanked out. -/
theorem segments_maskComments_append : segments (maskComments x ++ maskComments y)
    = segments (maskComments x) ++ segments (maskComments y) := by
  rw [← maskComments_append_of_cut h, segments_maskComments, h, List.flatMap_append,
    segments_maskComments, segments_maskComments]

end Cut

/-- Comments are blanked out in consecutive segments as if these stood alone. -/
theorem maskComments_of_segments {text y : List Char} {s₁ s₃ : List Segment}
    (h : segments text = s₁ ++ (segments y ++ s₃)) :
    maskComments text = maskedText s₁ ++ (maskComments y ++ maskedText s₃) := by
  rw [maskComments_eq_maskedText, h, maskedText_append, maskedText_append]
  rfl

/-! ### Blanks behind a text -/

section Blanks

variable {y : List Char} (hy : ∀ d ∈ y, isBlank d = true)
include hy

/-- Blanks open no run. -/
theorem segments_of_blank : segments y = y.map .plain := by
  induction y with
  | nil => simp
  | cons d y ih =>
    have hd := hy d (List.mem_cons_self ..)
    have ho : opening d y = none := by
      rw [opening_eq_none_iff]
      refine ⟨?_, ?_, ?_⟩ <;> rintro rfl <;> simp [isBlank] at hd
    rw [segments_plain ho, ih fun e he => hy e (List.mem_cons_of_mem _ he)]
    rfl

/-- Blanks close no IRI. -/
theorem iriTail?_le_of_blank {r : List Char} {n : Nat} (h : iriTail? (r ++ y) = some n) :
    n ≤ r.length := by
  obtain ⟨u, w, hr, rfl⟩ := iriTail?_eq_some h
  rcases List.append_eq_append_iff.mp hr with ⟨u', -, hy'⟩ | ⟨w', rfl, hw⟩
  · have := hy '>' (hy' ▸ by simp)
    simp [isBlank] at this
  · rcases w' with - | ⟨d, w'⟩
    · have := hy '>' (by simp at hw; simp [← hw])
      simp [isBlank] at this
    · simp

/-- A run that goes on in blanks opens without them and reaches to the end. -/
theorem opening_of_lt_append_blank {c : Char} {r : List Char} {k : Inert} {n : Nat}
    (h : opening c (r ++ y) = some (k, n)) (hn : r.length < n) :
    k ≠ .iri ∧ opening c r = some (k, r.length) := by
  have hq : '"' ∉ y := fun hmem => by simpa [isBlank] using hy _ hmem
  rcases opening_eq_some h with
    ⟨rfl, rfl, rfl⟩ | ⟨rfl, ht, rfl, rfl⟩ | ⟨rfl, ht, rfl, rfl⟩ | ⟨rfl, rfl, hi⟩
  · refine ⟨by simp, ?_⟩
    rw [opening_hash, commentTail_of_lt_append hn]
  · have hlen : 2 ≤ r.length := by
      obtain ⟨w, hw⟩ := startsTriple_iff.mp ht
      rcases r with _ | ⟨d, _ | ⟨e, r⟩⟩
      · simp_all
      · simp_all
      · simp
    have ht' : startsTriple ('"' :: r) = true :=
      startsTriple_of_append (b := y) ht (by simpa using hlen)
    rw [List.drop_append_of_le_length hlen] at hn
    have h₁ := (longTail_of_lt_append (r := r.drop 2) (y := y) (by rw [List.length_drop]; omega)).1
    refine ⟨by simp, ?_⟩
    rw [opening_triple ht', h₁, List.length_drop, Nat.sub_add_cancel hlen]
  · have ht' : ¬startsTriple ('"' :: r) = true := fun hs => ht (startsTriple_append hs y)
    exact ⟨by simp, by rw [opening_quote ht', (shortTail_of_lt_append hn).1]⟩
  · have := iriTail?_le_of_blank hy hi
    omega

/-- **Blanks behind a text change none of its segments but the last**, and that only by blanks that
belong to it. -/
theorem segments_append_of_blank (x : List Char) :
    segments (x ++ y) = segments x ++ y.map .plain
      ∨ ∃ s k u w z, segments x = s ++ [.inert k u] ∧ y = w ++ z
        ∧ segments (x ++ y) = s ++ .inert k (u ++ w) :: z.map .plain := by
  rcases segments_append_or_straddle x y with
    hcut | ⟨s, k, u, w, s₂, hxy, rfl, hyw, hu, hw, hfront, hrun⟩
  · rw [hcut, segments_of_blank hy]
    exact .inl rfl
  · obtain ⟨c, r, n, rfl, ho, hlt⟩ := exists_opening_of_straddle hu hw hrun
    obtain ⟨-, hopen⟩ := opening_of_lt_append_blank hy ho hlt
    have halone : segments (c :: r) = [.inert k (c :: r)] := by
      rw [segments_inert hopen, List.take_length, List.drop_length, segments_nil]
    -- what follows the run is blank
    have hrest : segments (textOf s₂) = s₂ := by
      have hrun' : segments ((c :: r ++ w) ++ textOf s₂) = [.inert k (c :: r ++ w)] ++ s₂ := by
        rwa [List.append_assoc, ← hyw]
      exact (segments_of_append hrun' (List.append_nil _)).2
    have hplain : s₂ = (textOf s₂).map .plain := by
      rw [← segments_of_blank fun d hd => hy d (by rw [hyw]; exact List.mem_append_right w hd),
        hrest]
    exact .inr ⟨s, k, c :: r, w, textOf s₂, by rw [hfront, halone], hyw, by rw [← hplain, hxy]⟩

/-- **Blanks behind a text only add blanks to what is masked.** -/
theorem maskComments_append_of_blank (x : List Char) :
    ∃ z, maskComments (x ++ y) = maskComments x ++ z ∧ ∀ d ∈ z, isBlank d = true := by
  rw [maskComments_eq_maskedText, maskComments_eq_maskedText]
  rcases segments_append_of_blank hy x with h | ⟨s, k, u, w, z, hx, rfl, h⟩
  · refine ⟨y, ?_, hy⟩
    rw [h, maskedText_append, maskedText_map_plain]
  · -- the last run goes on in the blanks
    refine ⟨(Segment.inert k w).masked ++ z, ?_, ?_⟩
    · rw [h, hx]
      simp [Segment.masked_inert_append]
    · intro d hd
      rcases List.mem_append.mp hd with hd | hd
      · exact Segment.isBlank_of_mem_masked (fun e he => hy e (List.mem_append_left z he)) d hd
      · exact hy d (List.mem_append_right w hd)

end Blanks

end FormOntology.Turtle
