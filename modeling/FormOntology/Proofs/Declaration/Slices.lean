import FormOntology.Proofs.Declaration.Comments
import FormOntology.Proofs.Turtle.Erasing

/-!
# Runs of a block

The runs of a text are found once to tell its blocks, and those of a block are found again in its
own text to read its attributes.  A block begins and ends between two segments, so both times the
same runs are found.  Only the last run of a block may be shorter in its text: the blanks at the end
of the block are trimmed, and a comment or a literal that is not closed may end with some of them.

## Main definitions

* `Span.Meets`, `Span.clip` — whether two spans overlap, and what they have in common.
* `Block.textSpan` — the offsets of the text of a block.

## Main results

* `filter_meets_rangesOf` — the runs that meet a list of consecutive segments are its runs.
* `map_clip_rangesOf_append_of_blank` — blanks behind a text make no run and may only lengthen one.
* `blocks_inertRanges` — **the runs of the text of a block are those of the whole text that meet the
  block, as far as they stand in its text, and the same comments are blanked out in both.**
-/

namespace FormOntology

open Text Turtle

/-! ### Spans that overlap -/

/-- Whether two spans have a number in common. -/
def Span.Meets (s t : Span) : Prop := ∃ n, s.Contains n ∧ t.Contains n

theorem Span.meets_iff {s t : Span} :
    s.Meets t ↔ max s.start t.start < min s.stop t.stop := by
  constructor
  · rintro ⟨n, ⟨hs, hs'⟩, ht, ht'⟩
    omega
  · intro h
    exact ⟨max s.start t.start, ⟨by omega, by omega⟩, by omega, by omega⟩

instance (s t : Span) : Decidable (s.Meets t) := decidable_of_iff _ Span.meets_iff.symm

/-- What a span has in common with `part`, counted from the beginning of `part`. -/
def Span.clip (part s : Span) : Span :=
  ⟨max part.start s.start - part.start, min part.stop s.stop - part.start⟩

/-- A span of a part is left as it is. -/
theorem Span.clip_of_le {s : Span} {n : Nat} (h : s.stop ≤ n) : clip ⟨0, n⟩ s = s := by
  simp only [clip]
  rw [Nat.zero_max, Nat.min_eq_right h]
  rfl

end FormOntology

namespace FormOntology.Turtle

open Text

/-! ### Spans of consecutive segments -/

section Ranges

variable {p : Inert → Bool}

theorem rangesFrom_eq_rangesOf (offset : Nat) (l : List Segment) :
    rangesFrom offset l = rangesOf (fun _ => true) offset l := by
  induction l generalizing offset with
  | nil => rfl
  | cons s l ih =>
    cases s with
    | plain c => exact ih _
    | inert k t => rw [rangesFrom, rangesOf, if_pos rfl, ih]

theorem rangesOf_append (offset : Nat) (l l' : List Segment) :
    rangesOf p offset (l ++ l')
      = rangesOf p offset l ++ rangesOf p (offset + size (textOf l)) l' := by
  induction l generalizing offset with
  | nil => rfl
  | cons s l ih =>
    cases s with
    | plain c => simp [rangesOf, ih, Nat.add_assoc]
    | inert k t =>
      rw [List.cons_append, rangesOf, rangesOf, ih, textOf_cons, Segment.text_inert, size_append,
        Nat.add_assoc]
      split <;> rfl

theorem rangesOf_map_plain (offset : Nat) (x : List Char) :
    rangesOf p offset (x.map .plain) = [] := by
  have h := rangesOf_sublist p offset (x.map .plain)
  rwa [rangesFrom_map_plain, List.sublist_nil] at h

/-- The spans of a list of segments lie between the ends of its text. -/
theorem bounds_of_mem_rangesOf {offset : Nat} {l : List Segment} {s : Span}
    (h : s ∈ rangesOf p offset l) :
    offset ≤ s.start ∧ s.start ≤ s.stop ∧ s.stop ≤ offset + size (textOf l) :=
  le_of_mem_rangesFrom ((rangesOf_sublist p offset l).subset h)

/-- The span of a run of a text is not empty. -/
theorem lt_of_mem_rangesOf {offset : Nat} {text : List Char} {s : Span}
    (h : s ∈ rangesOf p offset (segments text)) : s.start < s.stop := by
  obtain ⟨s₁, k, t, s₂, hs, rfl⟩ :=
    exists_of_mem_rangesFrom ((rangesOf_sublist p offset _).subset h)
  have hne : (Segment.inert k t).text ≠ [] := text_ne_nil_of_mem_segments (by rw [hs]; simp)
  have hpos := size_pos hne
  exact Nat.lt_add_of_pos_right hpos

/-- **The runs that meet consecutive segments are the runs of these segments.** -/
theorem filter_meets_rangesOf (l₁ l₃ : List Segment) (y : List Char) :
    (rangesOf p 0 (l₁ ++ (segments y ++ l₃))).filter
        (fun s => s.Meets ⟨size (textOf l₁), size (textOf l₁) + size y⟩)
      = rangesOf p (size (textOf l₁)) (segments y) := by
  rw [rangesOf_append, rangesOf_append, Nat.zero_add, textOf_segments, List.filter_append,
    List.filter_append]
  have hfront : (rangesOf p 0 l₁).filter
      (fun s => s.Meets ⟨size (textOf l₁), size (textOf l₁) + size y⟩) = [] := by
    rw [List.filter_eq_nil_iff]
    intro s hs
    have := bounds_of_mem_rangesOf hs
    simp only [decide_eq_true_eq, Span.meets_iff]
    omega
  have hbehind : (rangesOf p (size (textOf l₁) + size y) l₃).filter
      (fun s => s.Meets ⟨size (textOf l₁), size (textOf l₁) + size y⟩) = [] := by
    rw [List.filter_eq_nil_iff]
    intro s hs
    have := bounds_of_mem_rangesOf hs
    simp only [decide_eq_true_eq, Span.meets_iff]
    omega
  have hinside : (rangesOf p (size (textOf l₁)) (segments y)).filter
      (fun s => s.Meets ⟨size (textOf l₁), size (textOf l₁) + size y⟩)
      = rangesOf p (size (textOf l₁)) (segments y) := by
    rw [List.filter_eq_self]
    intro s hs
    have hbounds := bounds_of_mem_rangesOf hs
    have hlt := lt_of_mem_rangesOf hs
    rw [textOf_segments] at hbounds
    simp only [decide_eq_true_eq, Span.meets_iff]
    omega
  rw [hfront, hbehind, hinside, List.nil_append, List.append_nil]

/-- Spans are clipped at the same places wherever their segments stand. -/
theorem map_clip_rangesOf_add (a b n : Nat) (l : List Segment) :
    (rangesOf p (a + b) l).map (Span.clip ⟨a, a + n⟩)
      = (rangesOf p b l).map (Span.clip ⟨0, n⟩) := by
  induction l generalizing b with
  | nil => rfl
  | cons s l ih =>
    cases s with
    | plain c =>
      rw [rangesOf, rangesOf, Nat.add_assoc]
      exact ih _
    | inert k t =>
      have hhead : Span.clip ⟨a, a + n⟩ ⟨a + b, a + b + size t⟩
          = Span.clip ⟨0, n⟩ ⟨b, b + size t⟩ := by
        simp only [Span.clip, Span.mk.injEq]
        omega
      rw [rangesOf, rangesOf, Nat.add_assoc]
      split
      · rw [List.map_cons, List.map_cons, ih, ← hhead, Nat.add_assoc]
      · exact ih _

/-- Segments that end in front of `n` keep their spans. -/
theorem map_clip_rangesOf_of_le {offset n : Nat} {l : List Segment}
    (h : offset + size (textOf l) ≤ n) :
    (rangesOf p offset l).map (Span.clip ⟨0, n⟩) = rangesOf p offset l := by
  have hsame : ∀ s ∈ rangesOf p offset l, Span.clip ⟨0, n⟩ s = id s := by
    intro s hs
    have := bounds_of_mem_rangesOf hs
    exact Span.clip_of_le (by omega)
  rw [List.map_congr_left hsame, List.map_id]

/-- **Blanks behind a text make no run**, and what they add to the last one is clipped away. -/
theorem map_clip_rangesOf_append_of_blank {z : List Char} (hz : ∀ d ∈ z, isBlank d = true)
    (t : List Char) :
    (rangesOf p 0 (segments (t ++ z))).map (Span.clip ⟨0, size t⟩)
      = rangesOf p 0 (segments t) := by
  rcases segments_append_of_blank hz t with h | ⟨s, k, u, w, r, ht, -, h⟩
  · rw [h, rangesOf_append, rangesOf_map_plain, List.append_nil]
    exact map_clip_rangesOf_of_le (by rw [textOf_segments, Nat.zero_add])
  · have hsize : size t = size (textOf s) + size u := by
      rw [← textOf_segments t, ht, textOf_append, size_append, textOf_cons, textOf_nil,
        List.append_nil, Segment.text_inert]
    -- the last run of `t` ends with `t`, and with the blanks it ends behind it
    have hclip : Span.clip ⟨0, size t⟩
        ⟨size (textOf s), size (textOf s) + size (u ++ w)⟩
        = ⟨size (textOf s), size (textOf s) + size u⟩ := by
      simp only [Span.clip, Span.mk.injEq, size_append]
      omega
    rw [h, ht, rangesOf_append, rangesOf_append, List.map_append,
      map_clip_rangesOf_of_le (by omega), rangesOf, rangesOf, rangesOf_map_plain]
    simp only [Nat.zero_add]
    split
    · rw [List.map_singleton, hclip]
      rfl
    · rfl

end Ranges

end FormOntology.Turtle

namespace FormOntology

open Text Turtle

/-! ### The text of a block -/

/-- The offsets of the text of a block, without the blanks behind it. -/
def Block.textSpan (b : Block) : Span := ⟨b.span.start, b.span.start + size b.text⟩

section Blocks

variable {v : Vocabulary} {text : List Char} {b : Block} (hb : b ∈ blocks v text)
include hb

/-- The runs of some kinds in the text of a block. -/
theorem rangesOf_of_mem_blocks (p : Inert → Bool) : rangesOf p 0 (segments b.text)
    = ((rangesOf p 0 (segments text)).filter (·.Meets b.span)).map b.textSpan.clip := by
  obtain ⟨s₁, y, s₃, -, hs, hspan, hy⟩ := exists_slice_of_mem_blocks hb
  obtain ⟨z, hz, hblank⟩ := trimEnd_prefix y
  rw [← hy] at hz
  rw [hs, Block.textSpan, hspan, filter_meets_rangesOf]
  have hshift := map_clip_rangesOf_add (p := p) (size (textOf s₁)) 0 (size b.text) (segments y)
  rw [Nat.add_zero] at hshift
  rw [hshift, hz, map_clip_rangesOf_append_of_blank hblank]

/-- The masked text of a block is cut from the masked text. -/
theorem maskComments_of_mem_blocks : maskComments b.text
    = takeBytes (size b.text) (dropBytes b.span.start (maskComments text)) := by
  obtain ⟨s₁, y, s₃, -, hs, hspan, hy⟩ := exists_slice_of_mem_blocks hb
  obtain ⟨z, hz, hblank⟩ := trimEnd_prefix y
  rw [← hy] at hz
  obtain ⟨z', hz', -⟩ := maskComments_append_of_blank hblank b.text
  rw [maskComments_of_segments hs, hz, hz', hspan, ← size_maskedText s₁,
    ← size_maskComments b.text, dropBytes_size_append, List.append_assoc, takeBytes_size_append]

/-- A run that meets a block lies in it and begins in its text. -/
theorem bounds_of_meets {s : Span} (hs : s ∈ inertRanges text) (hmeets : s.Meets b.span) :
    b.span.start ≤ s.start ∧ s.start < b.textSpan.stop ∧ s.stop ≤ b.span.stop := by
  obtain ⟨s₁, y, s₃, -, hsegments, hspan, -⟩ := exists_slice_of_mem_blocks hb
  rw [inertRanges, rangesFrom_eq_rangesOf] at hs
  have hfilter : s ∈ (rangesOf (fun _ => true) 0 (segments text)).filter (·.Meets b.span) :=
    List.mem_filter.mpr ⟨hs, decide_eq_true hmeets⟩
  -- its clipped span is one of the text of the block, so it is not empty
  have hclip : b.textSpan.clip s ∈ rangesOf (fun _ => true) 0 (segments b.text) := by
    rw [rangesOf_of_mem_blocks hb]
    exact List.mem_map_of_mem hfilter
  have hlt := lt_of_mem_rangesOf hclip
  rw [hsegments, hspan, filter_meets_rangesOf] at hfilter
  have hbounds := bounds_of_mem_rangesOf hfilter
  rw [textOf_segments] at hbounds
  simp only [Span.clip] at hlt
  simp only [Block.textSpan, hspan] at hlt ⊢
  omega

/-- **The same runs are found in a text and in the text of a block of it.**  The runs of the text of
a block are those of the whole text that meet the block, as far as they stand in the text of the
block and counted from its beginning.  They lie in the block, and none begins in the blanks behind
its text.  So the comments of the block are those of the whole text, and it is the same characters
that are blanked out. -/
theorem blocks_inertRanges :
    inertRanges b.text
        = ((inertRanges text).filter (·.Meets b.span)).map b.textSpan.clip
      ∧ (∀ s ∈ inertRanges text, s.Meets b.span →
        b.span.start ≤ s.start ∧ s.start < b.textSpan.stop ∧ s.stop ≤ b.span.stop)
      ∧ commentRanges b.text
        = ((commentRanges text).filter (·.Meets b.span)).map b.textSpan.clip
      ∧ maskComments b.text
        = takeBytes (size b.text) (dropBytes b.span.start (maskComments text)) := by
  refine ⟨?_, fun s hs hmeets => bounds_of_meets hb hs hmeets, ?_, maskComments_of_mem_blocks hb⟩
  · rw [inertRanges, inertRanges, rangesFrom_eq_rangesOf, rangesFrom_eq_rangesOf]
    exact rangesOf_of_mem_blocks hb _
  · rw [commentRanges_eq, commentRanges_eq]
    exact rangesOf_of_mem_blocks hb _

end Blocks

/-- A declaration that the next header cuts off behind a comment, with blanks at the end of the
line. -/
def trimmedComment : List Char :=
  "ex:a a owl:DatatypeProperty ; rdfs:label \"é. \" # ü  \nex:b a owl:DatatypeProperty .".toList

/-- The comment of its first block is found again without the blanks that end its line. -/
theorem trimmedComment_runs : ∃ b ∈ blocks .standard trimmedComment,
    b.span = ⟨0, 55⟩ ∧ b.termination = .truncatedAtNextAnchor
      ∧ inertRanges trimmedComment = [⟨41, 47⟩, ⟨48, 54⟩]
      ∧ inertRanges b.text = [⟨41, 47⟩, ⟨48, 52⟩]
      ∧ commentRanges b.text = [⟨48, 52⟩] := by
  have hruns : inertRanges trimmedComment = [⟨41, 47⟩, ⟨48, 54⟩] := by decide +kernel
  have hcomments : commentRanges trimmedComment = [⟨48, 54⟩] := by decide +kernel
  obtain ⟨b, hb, hspan, hend, htext⟩ : ∃ b ∈ blocks .standard trimmedComment,
      b.span = ⟨0, 55⟩ ∧ b.termination = .truncatedAtNextAnchor ∧ b.textSpan = ⟨0, 52⟩ := by
    decide +kernel
  obtain ⟨hinert, -, hcomment, -⟩ := blocks_inertRanges hb
  rw [hruns, hspan, htext] at hinert
  rw [hcomments, hspan, htext] at hcomment
  exact ⟨b, hb, hspan, hend, hruns, hinert, hcomment⟩

end FormOntology
