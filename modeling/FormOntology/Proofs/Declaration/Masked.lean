import FormOntology.Proofs.Declaration.Live
import FormOntology.Proofs.Declaration.Objects

/-!
# Headers and full stops of masked texts

Where comments are blanked out, a header stays where it is, and so does a full stop.  More come to
light: a header that a comment stands in, and a full stop in front of a comment.

## Main definitions

* `MaskedStop` — how the first full stop of a masked text goes with that of the text.

## Main results

* `fullStop?_maskComments` — masking uncovers a full stop directly in front of a comment, and no
  other.
* `LiveHeader.mask` — a header outside runs stays where it is.
* `LiveHeader.of_mask` — a header of a masked text is one of the text, if no number sign stands in
  its place.
-/

namespace FormOntology

open Text Turtle

/-! ### Full stops in front of comments -/

theorem mark_plain {c : Char} {r : List Char} (h : opening c r = none) :
    mark (c :: r) = ⟨c, false⟩ :: mark r := by
  rw [mark_eq_marksOf, mark_eq_marksOf, segments_plain h, marksOf_plain]

theorem mark_run {c : Char} {r : List Char} {k : Inert} {n : Nat}
    (h : opening c r = some (k, n)) :
    mark (c :: r) = (c :: r.take n).map (⟨·, true⟩) ++ mark (r.drop n) := by
  rw [mark_eq_marksOf, mark_eq_marksOf, segments_inert h, marksOf_inert]

theorem mark_replicate_space (n : Nat) (text : List Char) :
    mark (List.replicate n ' ' ++ text) = List.replicate n ⟨' ', false⟩ ++ mark text := by
  induction n with
  | zero => rfl
  | succ n ih =>
    rw [List.replicate_succ, List.cons_append, mark_plain (opening_eq_none_iff.mpr (by simp)), ih]
    rfl

/-- Marks that are no plain full stops are passed over. -/
theorem fullStop?_append_of_forall {a : List Mark}
    (h : ∀ m ∈ a, (m.char == '.' && !m.inert) = false) (offset : Nat) (b : List Mark) :
    fullStop? offset (a ++ b) = fullStop? (offset + markSize a) b := by
  induction a generalizing offset with
  | nil => rfl
  | cons m a ih =>
    have hm : isFullStop m (a ++ b) = false := by
      rw [isFullStop, h m (List.mem_cons_self ..), Bool.false_and]
    rw [List.cons_append, fullStop?_cons hm, ih fun n hn => h n (List.mem_cons_of_mem _ hn),
      markSize_cons, Nat.add_assoc]

theorem fullStop?_run (offset : Nat) (t : List Char) (b : List Mark) :
    fullStop? offset (t.map (⟨·, true⟩) ++ b) = fullStop? (offset + size t) b := by
  rw [fullStop?_append_of_forall (by simp)]
  simp [markSize, Function.comp_def]

theorem fullStop?_spaces (offset n : Nat) (b : List Mark) :
    fullStop? offset (List.replicate n ⟨' ', false⟩ ++ b) = fullStop? (offset + n) b := by
  rw [fullStop?_append_of_forall fun m hm => by rw [(List.mem_replicate.mp hm).2]; rfl]
  simp [markSize, size_replicate_space]

theorem startsBlank_mark (text : List Char) :
    startsBlank (mark text) = text.head?.all isAsciiBlank := by
  have h := map_char_mark text
  cases hm : mark text with
  | nil =>
    rw [hm] at h
    rw [← h]
    rfl
  | cons m ms =>
    rw [hm] at h
    rw [← h]
    rfl

/-- Masking keeps the first character, unless it opens a comment. -/
theorem head?_maskComments (text : List Char) :
    (maskComments text).head? = text.head?.map fun c => if c = '#' then ' ' else c := by
  cases text with
  | nil => simp
  | cons c r =>
    obtain ⟨r', hr⟩ := maskComments_cons c r
    rw [hr]
    rfl

theorem isFullStop_mark (text : List Char) :
    isFullStop ⟨'.', false⟩ (mark text) = text.head?.all isAsciiBlank := by
  rw [isFullStop, startsBlank_mark]
  rfl

/-- In a masked text a comment counts as a blank. -/
theorem all_head?_maskComments (text : List Char) : (maskComments text).head?.all isAsciiBlank
    = (text.head?.all isAsciiBlank || text.head? == some '#') := by
  rw [head?_maskComments]
  cases text.head? with
  | none => rfl
  | some c =>
    by_cases hc : c = '#'
    · subst hc
      rfl
    · simp [hc]

/-- How the first full stop of a masked text that begins at `offset` goes with that of the text. -/
inductive MaskedStop (offset : Nat) (text : List Char) (stop? : Option Nat) :
    Option Nat → Prop where
  /-- It is the same, and no comment begins behind it. -/
  | same (h : ∀ s, stop? = some s →
      ∃ x y, text = x ++ '.' :: y ∧ s = offset + size x + 1 ∧ y.head? ≠ some '#') :
    MaskedStop offset text stop? stop?
  /-- It comes earlier, and a comment begins behind it. -/
  | uncovered {x y : List Char} (htext : text = x ++ '.' :: '#' :: y)
      (hlater : ∀ s, stop? = some s → offset + size x + 1 < s) :
    MaskedStop offset text stop? (some (offset + size x + 1))

theorem MaskedStop.append {offset : Nat} {p text : List Char} {stop? stop'? : Option Nat}
    (h : MaskedStop (offset + size p) text stop? stop'?) :
    MaskedStop offset (p ++ text) stop? stop'? := by
  cases h with
  | same h =>
    apply MaskedStop.same
    intro s hs
    obtain ⟨x, y, rfl, rfl, hy⟩ := h s hs
    exact ⟨p ++ x, y, by simp, by rw [size_append]; omega, hy⟩
  | @uncovered x y htext hlater =>
    rw [htext, ← List.append_assoc, Nat.add_assoc offset, ← size_append]
    apply MaskedStop.uncovered rfl
    intro s hs
    have := hlater s hs
    rw [size_append]
    omega

/-- **Masking uncovers a full stop directly in front of a comment**, and no other. -/
theorem fullStop?_maskComments (offset : Nat) (text : List Char) :
    MaskedStop offset text (fullStop? offset (mark text))
      (fullStop? offset (mark (maskComments text))) := by
  -- along the runs of the text: masking keeps all of them but the comments
  fun_induction segments text generalizing offset with
  | case1 =>
    rw [maskComments_nil]
    exact .same fun s hs => by simp [mark, markFrom] at hs
  | case2 c r ho ih =>
    have ho' : opening c (maskComments r) = none := by
      rw [opening_eq_none_iff] at ho ⊢
      exact ⟨ho.1, ho.2.1, fun hc => iriTail?_maskComments (ho.2.2 hc)⟩
    have hgo := (ih (offset + c.utf8Size)).append (p := [c])
    rw [maskComments_plain ho, mark_plain ho, mark_plain ho']
    by_cases hdot : c = '.'
    · subst hdot
      by_cases hblank : r.head?.all isAsciiBlank = true
      · -- the full stop stands alone in both texts
        have hnext : r.head? ≠ some '#' := by
          intro hr
          rw [hr] at hblank
          exact absurd hblank (by decide)
        rw [fullStop?_of_isFullStop ((isFullStop_mark r).trans hblank), fullStop?_of_isFullStop
          (by rw [isFullStop_mark, all_head?_maskComments, hblank, Bool.true_or])]
        exact .same fun s hs => ⟨[], r, rfl, (Option.some.inj hs).symm, hnext⟩
      · rw [Bool.not_eq_true] at hblank
        rw [fullStop?_cons ((isFullStop_mark r).trans hblank)]
        by_cases hnext : r.head? = some '#'
        · -- it does so where comments are blanked out
          obtain ⟨y, rfl⟩ := List.head?_eq_some_iff.mp hnext
          rw [fullStop?_of_isFullStop
            (by rw [isFullStop_mark, all_head?_maskComments, hnext]; rfl)]
          exact .uncovered (x := []) rfl fun s hs => (lt_of_fullStop? hs).1
        · rw [fullStop?_cons (by rw [isFullStop_mark, all_head?_maskComments, hblank]; simpa)]
          exact hgo
    · have hno : ∀ ms, isFullStop ⟨c, false⟩ ms = false := fun ms => by simp [isFullStop, hdot]
      rw [fullStop?_cons (hno _), fullStop?_cons (hno _)]
      exact hgo
  | case3 c r k n ho ih =>
    have hgo := (ih (offset + size (c :: r.take n))).append (p := c :: r.take n)
    rw [List.cons_append, List.take_append_drop] at hgo
    rw [mark_run ho, fullStop?_run]
    by_cases hk : k = .comment
    · -- a comment has no full stop, and neither have its blanks
      subst hk
      rw [maskComments_run ho, Segment.masked, mark_replicate_space, fullStop?_spaces]
      exact hgo
    · have hmask : opening c (r.take n ++ maskComments (r.drop n)) = some (k, n) :=
        opening_maskComments ho hk
      have hlen : (r.take n).length = n := List.length_take_of_le (opening_le ho)
      rw [maskComments_inert ho hk, List.cons_append, mark_run hmask, List.take_left' hlen,
        List.drop_left' hlen, fullStop?_run]
      exact hgo

/-! ### Headers in masked texts -/

/-- Behind a comment the line ends, or the text. -/
theorem lineFeed_of_comment {text t : List Char} {l : List Segment}
    (h : segments text = .inert .comment t :: l) :
    (∃ t', t = '#' :: t') ∧ (textOf l = [] ∨ (textOf l).head? = some '\n') := by
  cases text with
  | nil => simp at h
  | cons c r =>
    cases ho : opening c r with
    | none => simp [segments_plain ho] at h
    | some p =>
      obtain ⟨k, n⟩ := p
      rw [segments_inert ho, List.cons.injEq, Segment.inert.injEq] at h
      obtain ⟨⟨rfl, rfl⟩, rfl⟩ := h
      rcases opening_eq_some ho with ⟨rfl, -, rfl⟩ | ⟨-, -, hk, -⟩ | ⟨-, -, hk, -⟩ | ⟨-, hk, -⟩
      · refine ⟨⟨_, rfl⟩, ?_⟩
        rw [textOf_segments, commentTail, drop_length_takeWhile]
        have hstop := stopsBefore_dropWhile (· ≠ '\n') r
        cases hdrop : r.dropWhile (· ≠ '\n') with
        | nil => exact .inl rfl
        | cons d r' =>
          rw [hdrop, stopsBefore_cons, decide_eq_false_iff_not, Decidable.not_not] at hstop
          exact .inr (by rw [hstop]; rfl)
      all_goals simp at hk

/-- Masking keeps the last character, unless that is one of a comment. -/
theorem getLast?_maskedText {text x : List Char} {s l : List Segment}
    (h : segments text = s ++ l) (hx : textOf l = x) (hne : x ≠ []) (hline : x.head? ≠ some '\n') :
    (maskedText s).getLast? = (textOf s).getLast? := by
  rcases List.eq_nil_or_concat s with rfl | ⟨s, y, rfl⟩
  · rfl
  · have hy : segments (y.text ++ textOf l) = y :: l := by
      have htext : text = textOf s ++ (y.text ++ textOf l) := by
        rw [← textOf_segments text, h]
        simp
      rw [htext, List.concat_eq_append, List.append_assoc] at h
      exact (segments_of_append h rfl).2
    have hyne : y.text ≠ [] := text_ne_nil_of_segments hy
    have hmask : y.masked = y.text := by
      cases y with
      | plain c => rfl
      | inert k t =>
        -- behind a comment the line ends, or the text
        refine Segment.masked_of_ne_comment ?_ t
        rintro rfl
        rcases (lineFeed_of_comment hy).2 with h | h
        · exact hne (hx ▸ h)
        · exact hline (hx ▸ h)
    simp [hmask, List.getLast?_append, List.getLast?_eq_some_getLast hyne]

/-- A word does not go on in a comment. -/
theorem startsOutsideWord_maskComments (text : List Char) :
    startsOutsideWord (maskComments text) = startsOutsideWord text := by
  cases text with
  | nil => simp
  | cons c r =>
    obtain ⟨r', hr⟩ := maskComments_cons c r
    rw [hr, startsOutsideWord, startsOutsideWord]
    split
    · next hc =>
      subst hc
      decide
    · rfl

theorem flatMap_blanked_plain (x : List Char) :
    (x.map Segment.plain).flatMap Segment.blanked = x.map .plain := by
  induction x with
  | nil => rfl
  | cons c x ih => rw [List.map_cons, List.flatMap_cons, ih]; rfl

theorem textOf_flatMap_blanked (l : List Segment) :
    textOf (l.flatMap Segment.blanked) = maskedText l := by
  induction l with
  | nil => rfl
  | cons s l ih => rw [List.flatMap_cons, textOf_append, textOf_blanked, ih, maskedText_cons]

/-- A header outside runs stays where it is when comments are blanked out. -/
theorem LiveHeader.mask {v : Vocabulary} {text rest : List Char} {s : List Segment}
    {f : HeaderForm} (h : LiveHeader v text s f rest) :
    LiveHeader v (maskComments text) (s.flatMap Segment.blanked) f (maskComments rest) where
  segments_eq := by
    rw [segments_maskComments, h.segments_eq, List.flatMap_append, List.flatMap_append,
      flatMap_blanked_plain, segments_maskComments]
  valid := h.valid
  free := by
    rw [textOf_flatMap_blanked, getLast?_maskedText h.segments_eq rfl]
    · exact h.free
    · simp [f.text_ne_nil]
    · rw [textOf_append, textOf_map_plain, textOf_segments]
      exact fun hline => absurd (f.stopsBefore_isBlank_text h.valid rest _ hline) (by decide)
  ends := (startsOutsideWord_maskComments rest).trans h.ends

/-- A border of a masked text is one of the text, unless it stands in front of a blank. -/
theorem exists_of_flatMap_blanked_eq_append {l a b : List Segment}
    (h : l.flatMap Segment.blanked = a ++ b) (hb : ∀ r, b ≠ .plain ' ' :: r) :
    ∃ l₁ l₂, l = l₁ ++ l₂ ∧ l₁.flatMap Segment.blanked = a ∧ l₂.flatMap Segment.blanked = b := by
  induction l generalizing a with
  | nil =>
    obtain ⟨rfl, rfl⟩ : a = [] ∧ b = [] := by simpa using h
    exact ⟨[], [], rfl, rfl, rfl⟩
  | cons s l ih =>
    by_cases ha : a = []
    · exact ⟨[], s :: l, rfl, ha.symm, by rw [h, ha, List.nil_append]⟩
    rw [List.flatMap_cons] at h
    rcases List.append_eq_append_iff.mp h with ⟨u, rfl, hu⟩ | ⟨w, hs, hw⟩
    · obtain ⟨l₁, l₂, rfl, rfl, rfl⟩ := ih hu
      exact ⟨s :: l₁, l₂, rfl, rfl, rfl⟩
    · rcases w with - | ⟨y, w⟩
      · exact ⟨[s], l, rfl, by simpa using hs, by simpa using hw.symm⟩
      · -- only a comment is blanked to more than one segment
        have hy : y ∈ s.blanked := by simp [hs]
        have hlen : 1 < s.blanked.length := by
          have := List.length_pos_iff.mpr ha
          rw [hs, List.length_append, List.length_cons]
          omega
        cases s with
        | plain c => simp [Segment.blanked] at hlen
        | inert k t =>
          by_cases hk : k = .comment
          · subst hk
            obtain ⟨c, hc, rfl⟩ := List.mem_map.mp hy
            rw [(List.mem_replicate.mp hc).2] at hw
            exact absurd hw (hb _)
          · simp [Segment.blanked_of_ne_comment hk] at hlen

/-- Plain characters of a masked text are plain in the text, where that has no number sign. -/
theorem exists_of_flatMap_blanked_eq_plain {l r : List Segment} {x : List Char}
    (hl : segments (textOf l) = l) (h : l.flatMap Segment.blanked = x.map .plain ++ r)
    (hhash : '#' ∉ takeBytes (size x) (textOf l)) :
    ∃ l', l = x.map .plain ++ l' ∧ segments (textOf l') = l'
      ∧ l'.flatMap Segment.blanked = r := by
  induction x generalizing l with
  | nil => exact ⟨l, rfl, hl, h⟩
  | cons d x ih =>
    have hpos := d.utf8Size_pos
    cases l with
    | nil => simp at h
    | cons s l =>
      have hrest : segments (textOf l) = l := by
        have : segments (s.text ++ textOf l) = [s] ++ l := hl
        exact (segments_of_append this (by simp)).2
      cases s with
      | plain c =>
        obtain ⟨hc, htail⟩ := List.cons.inj h
        obtain rfl : c = d := Segment.plain.inj hc
        rw [size_cons, textOf_cons, Segment.text_plain, List.singleton_append, takeBytes,
          if_neg (by omega), Nat.add_sub_cancel_left] at hhash
        obtain ⟨l', rfl, hl', hr⟩ := ih hrest htail fun hmem => hhash (List.mem_cons_of_mem _ hmem)
        exact ⟨l', rfl, hl', hr⟩
      | inert k t =>
        by_cases hk : k = .comment
        · -- the place would have a number sign
          subst hk
          obtain ⟨⟨t', rfl⟩, -⟩ := lineFeed_of_comment hl
          rw [size_cons, textOf_cons, Segment.text_inert, List.cons_append, takeBytes,
            if_neg (by omega)] at hhash
          exact absurd (List.mem_cons_self ..) hhash
        · simp [Segment.blanked_of_ne_comment hk] at h

/-- A header of a masked text is one of the text, if no number sign stands in its place. -/
theorem LiveHeader.of_mask {v : Vocabulary} {text rest' : List Char} {s' : List Segment}
    {f : HeaderForm} (h : LiveHeader v (maskComments text) s' f rest')
    (hhash : '#' ∉ takeBytes (size f.text) (dropBytes (size (textOf s')) text)) :
    ∃ s rest, LiveHeader v text s f rest ∧ size (textOf s) = size (textOf s') := by
  obtain ⟨c, y, hf⟩ := List.exists_cons_of_ne_nil f.text_ne_nil
  have hc : c ≠ ' ' := by
    rintro rfl
    have := f.stopsBefore_isBlank_text h.valid []
    rw [List.append_nil, hf, stopsBefore_cons] at this
    exact absurd this (by decide)
  have hsegments := (segments_maskComments text).symm.trans h.segments_eq
  obtain ⟨s, l, hl, rfl, hplain⟩ := exists_of_flatMap_blanked_eq_append hsegments
    fun r hr => by simp [hf, hc] at hr
  have htext : text = textOf s ++ textOf l := by
    rw [← textOf_segments text, hl, textOf_append]
  have hcut := segments_of_append (htext ▸ hl) rfl
  have hsize : size (textOf (s.flatMap Segment.blanked)) = size (textOf s) := by
    rw [textOf_flatMap_blanked, size_maskedText]
  rw [hsize, htext, dropBytes_size_append] at hhash
  obtain ⟨l', rfl, hl', hr⟩ := exists_of_flatMap_blanked_eq_plain hcut.2 hplain hhash
  have hrest : rest' = maskComments (textOf l') := by
    rw [← textOf_segments rest', ← hr, textOf_flatMap_blanked, maskComments_eq_maskedText, hl']
  refine ⟨s, textOf l', ⟨by rw [hl, hl'], h.valid, ?_, ?_⟩, hsize.symm⟩
  · rw [← getLast?_maskedText hl rfl, ← textOf_flatMap_blanked]
    · exact h.free
    · simp [f.text_ne_nil]
    · rw [textOf_append, textOf_map_plain]
      exact fun hline => absurd (f.stopsBefore_isBlank_text h.valid _ _ hline) (by decide)
  · rw [← startsOutsideWord_maskComments, ← hrest]
    exact h.ends

end FormOntology
