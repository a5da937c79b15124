import FormOntology.Proofs.Declaration.Blocks

/-!
# Headers outside runs

A header that begins outside comments, literals and IRIs stands outside them as a whole: none of
its characters opens a run.  So it is a piece of the segments of its text.

## Main definitions

* `LiveHeader` — where a header stands among the segments of a text.

## Main results

* `exists_liveHeader` — every live anchor is a header outside runs.
* `LiveHeader.mem_liveAnchors` — where `owl` is not accepted, every header outside runs is an
  anchor.
* `LiveHeader.fullStop?_mark` — the full stop behind a header is searched behind the header only.
-/

namespace FormOntology

open Text Turtle

/-- A character of a header opens no run. -/
theorem opening_of_isHeaderChar {c : Char} (h : isHeaderChar c = true) (r : List Char) :
    opening c r = none := by
  rw [opening_eq_none_iff]
  refine ⟨?_, ?_, ?_⟩ <;> rintro rfl <;> exact absurd h (by decide)

/-- Characters that open no run are cut one by one. -/
theorem segments_append_of_opening {x : List Char} (h : ∀ c ∈ x, ∀ r, opening c r = none)
    (y : List Char) : segments (x ++ y) = x.map .plain ++ segments y := by
  induction x with
  | nil => rfl
  | cons c x ih =>
    rw [List.cons_append, segments_plain (h c (List.mem_cons_self ..) _),
      ih fun d hd => h d (List.mem_cons_of_mem _ hd)]
    rfl

/-- A header has no runs. -/
theorem HeaderForm.segments_text_append {v : Vocabulary} {f : HeaderForm} (hf : f.Valid v)
    (y : List Char) : segments (f.text ++ y) = f.text.map .plain ++ segments y :=
  segments_append_of_opening (fun c hc r =>
    opening_of_isHeaderChar (f.isHeaderChar_of_mem hf c hc) r) y

/-- Where a header stands among the segments of a text: behind `s`, which is empty or ends in a
delimiter, and in front of `rest`, which does not go on with a word. -/
structure LiveHeader (v : Vocabulary) (text : List Char) (s : List Segment) (f : HeaderForm)
    (rest : List Char) : Prop where
  /-- The header is a part of the text outside every run. -/
  segments_eq : segments text = s ++ (f.text.map .plain ++ segments rest)
  /-- The header is one. -/
  valid : f.Valid v
  /-- It begins where one counts. -/
  free : ∀ c, (textOf s).getLast? = some c → isHeaderDelimiter c = true
  /-- It ends as a word. -/
  ends : startsOutsideWord rest = true

namespace LiveHeader

variable {v : Vocabulary} {text rest : List Char} {s : List Segment} {f : HeaderForm}
  (h : LiveHeader v text s f rest)
include h

theorem text_eq : text = textOf s ++ (f.text ++ rest) := by
  rw [← textOf_segments text, h.segments_eq, textOf_append, textOf_append, textOf_map_plain,
    textOf_segments]

theorem headerAt : HeaderAt v text (textOf s) f rest := ⟨h.text_eq, h.valid, h.free, h.ends⟩

/-- The header begins in no run. -/
theorem contains_inertRanges_start :
    Spans.contains (inertRanges text).toArray (size (textOf s)) = false := by
  obtain ⟨c, x, hx⟩ := List.exists_cons_of_ne_nil f.text_ne_nil
  have hseg : segments text = s ++ .plain c :: (x.map .plain ++ segments rest) := by
    rw [h.segments_eq, hx]
    rfl
  exact contains_inertRanges_of_plain hseg

/-- Where `owl` is not accepted, every header outside runs is an anchor. -/
theorem mem_liveAnchors (howl : v.accepts "owl" = false) :
    ⟨f.header, size (textOf s), size (textOf s) + size f.text⟩ ∈ liveAnchors v text := by
  refine List.mem_filter.mpr ⟨mem_anchors_of_headerAt howl h.headerAt, ?_⟩
  simp [h.contains_inertRanges_start]

/-- The full stop behind a header is searched behind the header only. -/
theorem fullStop?_mark :
    Anchor.fullStop? ⟨f.header, size (textOf s), size (textOf s) + size f.text⟩ (mark text)
      = fullStop? (size (textOf s) + size f.text) (marksOf (segments rest)) := by
  have hsize : markSize (marksOf s ++ marksOf (f.text.map .plain))
      = size (textOf s) + size f.text := by
    simp [markSize]
  rw [Anchor.fullStop?, mark_eq_marksOf, h.segments_eq, marksOf_append, marksOf_append,
    ← List.append_assoc]
  have hdrop := dropMarks_append (marksOf s ++ marksOf (f.text.map .plain))
    (marksOf (segments rest)) 0
  rw [Nat.add_zero, hsize, dropMarks_zero] at hdrop
  rw [hdrop]

end LiveHeader

/-- **Every live anchor is a header outside runs.** -/
theorem exists_liveHeader {v : Vocabulary} {text : List Char} {a : Anchor}
    (ha : a ∈ liveAnchors v text) : ∃ s f rest, LiveHeader v text s f rest
      ∧ a = ⟨f.header, size (textOf s), size (textOf s) + size f.text⟩ := by
  obtain ⟨hmem, hlive⟩ := List.mem_filter.mp ha
  obtain ⟨x, f, rest, hat, rfl⟩ := headerAt_of_mem_anchors hmem
  obtain ⟨c, y, hf⟩ := List.exists_cons_of_ne_nil f.text_ne_nil
  have htext : text = x ++ c :: (y ++ rest) := by rw [hat.text_eq, hf]; rfl
  have hplain : Spans.contains (inertRanges (x ++ c :: (y ++ rest))).toArray (size x) = false := by
    rw [← htext]
    simpa using hlive
  obtain ⟨s, s', hs, hx⟩ := contains_inertRanges_eq_false_iff.mp hplain
  have hrest : segments (f.text ++ rest) = .plain c :: s' := by
    rw [hf]
    exact (segments_of_append hs hx).2
  refine ⟨s, f, rest, ⟨?_, hat.valid, hx ▸ hat.free, hat.ends⟩, by rw [hx]⟩
  rw [htext, hs, ← hrest, f.segments_text_append hat.valid]

end FormOntology
