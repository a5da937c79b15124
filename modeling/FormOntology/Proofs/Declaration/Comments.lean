import Mathlib.Data.List.Sort
import FormOntology.Proofs.Declaration.Masked

/-!
# Blocks and comments

The blocks of a text are told by its own characters, and the attributes of a block by those of the
block with its comments blanked out.  So a comment is not a blank everywhere: in a header it hides
the header, and behind a full stop it keeps that from ending the block.

## Main definitions

* `Block.key` — what a block is told by, apart from its text.

## Main results

* `map_key_blocks_eq_iff` — when a text has the blocks of the masked text.
* `exists_slice_of_mem_blocks` — a block has whole segments of the text, and they are its own.
* `extract_of_span_eq` — the attributes of a block do not depend on comments.
* `blocks_maskComments` — **a comment is a blank to the blocks of a text exactly if it stands in no
  header and behind no full stop.**
-/

namespace FormOntology

open Text Turtle

/-- What a block is told by, apart from its text. -/
def Block.key (b : Block) : String × String × Span × Termination :=
  (b.qualifier, b.identifier, b.span, b.termination)

/-! ### Anchors -/

/-- A header is told by the text that it begins. -/
theorem HeaderForm.eq_of_append {v : Vocabulary} {f f' : HeaderForm} {rest rest' : List Char}
    (hf : f.Valid v) (hf' : f'.Valid v) (hrest : startsOutsideWord rest = true)
    (hrest' : startsOutsideWord rest' = true) (h : f.text ++ rest = f'.text ++ rest') :
    f.header = f'.header ∧ f.text = f'.text := by
  have h₁ := Header.read?_eq_some_iff.mpr ⟨f, hf, rfl, rfl, hrest⟩
  have h₂ := Header.read?_eq_some_iff.mpr ⟨f', hf', rfl, rfl, hrest'⟩
  rw [h, h₂, Option.some.injEq, Prod.mk.injEq] at h₁
  obtain ⟨hheader, rfl⟩ := h₁
  exact ⟨hheader.symm, List.append_cancel_right h⟩

section Anchors

variable {v : Vocabulary} {text : List Char}

/-- Anchors of a text and of the masked text that begin at one place are the same. -/
theorem eq_of_start_eq_masked {a a' : Anchor} (ha : a ∈ liveAnchors v text)
    (ha' : a' ∈ liveAnchors v (maskComments text)) (h : a.span.start = a'.span.start) :
    a = a' := by
  obtain ⟨s, f, rest, hlive, rfl⟩ := exists_liveHeader ha
  obtain ⟨s', f', rest', hlive', rfl⟩ := exists_liveHeader ha'
  have hsize : size (textOf (s.flatMap Segment.blanked)) = size (textOf s') := by
    rw [textOf_flatMap_blanked, size_maskedText]
    exact h
  obtain ⟨-, htext⟩ := append_inj_of_size (hlive.mask.text_eq.symm.trans hlive'.text_eq) hsize
  obtain ⟨hheader, hform⟩ := HeaderForm.eq_of_append hlive.valid hlive'.valid hlive.mask.ends
    hlive'.ends htext
  simp only at h
  rw [hheader, hform, h]

theorem pairwise_liveAnchors (v : Vocabulary) (text : List Char) :
    (liveAnchors v text).Pairwise fun a b => a.span.start < b.span.start := by
  have hpair : (liveAnchors v text).Pairwise fun a b => a.span.stop ≤ b.span.start :=
    (pairwise_anchorsFrom v 0 true text).filter _
  exact hpair.imp_of_mem fun ha _ h => Nat.lt_of_lt_of_le (span_of_mem_liveAnchors ha).1 h

/-- Where the anchors of a masked text are those of the text, they have no number sign. -/
theorem notMem_of_liveAnchors_eq (h : liveAnchors v text = liveAnchors v (maskComments text))
    {a : Anchor} (ha : a ∈ liveAnchors v (maskComments text)) :
    '#' ∉ takeBytes (a.span.stop - a.span.start) (dropBytes a.span.start text) := by
  obtain ⟨s, f, rest, hlive, rfl⟩ := exists_liveHeader (h ▸ ha)
  simp only [Nat.add_sub_cancel_left]
  rw [hlive.text_eq, dropBytes_size_append, takeBytes_size_append]
  exact fun hmem => absurd (f.isHeaderChar_of_mem hlive.valid '#' hmem) (by decide)

/-- Where `owl` is not accepted and no anchor of a masked text has a number sign in the text, the
anchors are those of the text. -/
theorem liveAnchors_eq_of_notMem (howl : v.accepts "owl" = false)
    (h : ∀ a ∈ liveAnchors v (maskComments text),
      '#' ∉ takeBytes (a.span.stop - a.span.start) (dropBytes a.span.start text)) :
    liveAnchors v text = liveAnchors v (maskComments text) := by
  have : Std.Antisymm fun a b : Anchor => a.span.start < b.span.start :=
    ⟨fun _ _ h h' => absurd h (Nat.lt_asymm h')⟩
  have : Std.Irrefl fun a b : Anchor => a.span.start < b.span.start :=
    ⟨fun _ => Nat.lt_irrefl _⟩
  apply (pairwise_liveAnchors v text).eq_of_mem_iff (pairwise_liveAnchors v _)
  intro a
  -- both lists are ordered, so it is enough that they have the same members
  constructor
  · intro ha
    obtain ⟨s, f, rest, hlive, rfl⟩ := exists_liveHeader ha
    have := hlive.mask.mem_liveAnchors howl
    rwa [textOf_flatMap_blanked, size_maskedText] at this
  · intro ha
    have hhash := h a ha
    obtain ⟨s', f, rest', hlive', rfl⟩ := exists_liveHeader ha
    simp only [Nat.add_sub_cancel_left] at hhash
    obtain ⟨s, rest, hlive, hsize⟩ := hlive'.of_mask hhash
    rw [← hsize]
    exact hlive.mem_liveAnchors howl

end Anchors

/-! ### Blocks of the same anchors -/

theorem key_blockAt (text : List Char) (marks : List Mark) (limit : Nat) (a : Anchor) :
    (blockAt text marks limit a).key
      = (String.ofList a.header.qualifier, String.ofList a.header.identifier,
        ⟨a.span.start, (blockEnd (size text) limit (a.fullStop? marks)).1⟩,
        (blockEnd (size text) limit (a.fullStop? marks)).2) := by
  rw [blockAt_eq]
  rfl

theorem map_start_blocksAt (text : List Char) (marks : List Mark) (as : List Anchor) :
    (blocksAt text marks as).map (·.span.start) = as.map (·.span.start) := by
  induction as with
  | nil => rfl
  | cons a as ih => rw [blocksAt_cons, List.map_cons, List.map_cons, ih, span_blockAt]

/-- Blocks of the same anchors are told apart one by one. -/
theorem map_key_blocksAt_eq_iff {x y : List Char} {marks marks' : List Mark} {as : List Anchor} :
    (blocksAt x marks as).map Block.key = (blocksAt y marks' as).map Block.key
      ↔ ∀ before a behind, as = before ++ a :: behind →
        (blockAt x marks (limitOf (size x) behind) a).key
          = (blockAt y marks' (limitOf (size y) behind) a).key := by
  induction as with
  | nil => simp [blocksAt]
  | cons a as ih =>
    rw [blocksAt_cons, blocksAt_cons, List.map_cons, List.map_cons, List.cons.injEq, ih]
    constructor
    · rintro ⟨hhead, htail⟩ before a' behind h
      cases before with
      | nil =>
        obtain ⟨rfl, rfl⟩ := List.cons.inj h
        exact hhead
      | cons b before => exact htail before a' behind (List.cons.inj h).2
    · intro h
      exact ⟨h [] a as rfl, fun before a' behind has =>
        h (a :: before) a' behind (by rw [has]; rfl)⟩

section Keys

variable {v : Vocabulary} {text : List Char}

/-- Anchors that begin at the same places are the same. -/
theorem eq_of_map_start_eq {l l' : List Anchor}
    (h : ∀ a ∈ l, ∀ a' ∈ l', a.span.start = a'.span.start → a = a')
    (hstart : l.map (·.span.start) = l'.map (·.span.start)) : l = l' := by
  induction l generalizing l' with
  | nil => exact (List.map_eq_nil_iff.mp hstart.symm).symm
  | cons a l ih =>
    cases l' with
    | nil => simp at hstart
    | cons a' l' =>
      rw [List.map_cons, List.map_cons, List.cons.injEq] at hstart
      rw [h a (List.mem_cons_self ..) a' (List.mem_cons_self ..) hstart.1,
        ih (fun b hb b' hb' => h b (List.mem_cons_of_mem _ hb) b' (List.mem_cons_of_mem _ hb'))
          hstart.2]

/-- A block ends in a masked text as it does in the text, unless a comment begins behind its full
stop. -/
theorem MaskedStop.blockEnd_eq_iff {offset : Nat} {rest : List Char} {stop? stop'? : Option Nat}
    (h : MaskedStop offset rest stop? stop'?) (total limit : Nat) (behind : Nat → List Char)
    (hbehind : ∀ x y, rest = x ++ '.' :: y → behind (offset + size x + 1) = y) :
    blockEnd total limit stop? = blockEnd total limit stop'?
      ↔ ((blockEnd total limit stop'?).2 = .terminated →
        (behind (blockEnd total limit stop'?).1).head? ≠ some '#') := by
  cases h with
  | same h =>
    apply iff_of_true rfl
    intro hterm
    rcases blockEnd_cases total limit stop? with ⟨s, hs, -, heq⟩ | ⟨-, heq⟩
    · obtain ⟨x, y, hrest, rfl, hy⟩ := h s hs
      rw [heq, hbehind x y hrest]
      exact hy
    · rw [heq] at hterm
      split at hterm <;> simp at hterm
  | @uncovered x y hrest hlater =>
    rcases Nat.lt_or_ge limit (offset + size x + 1) with hlt | hle
    · -- neither full stop comes before the limit
      have hopen : blockEnd total limit stop?
          = blockEnd total limit (some (offset + size x + 1)) := by
        rw [blockEnd_of_forall_lt fun s hs => Nat.lt_trans hlt (hlater s hs),
          blockEnd_of_forall_lt fun s hs => by rwa [← Option.some.inj hs]]
      apply iff_of_true hopen
      intro hterm
      rw [blockEnd_of_forall_lt fun s hs => by rwa [← Option.some.inj hs]] at hterm
      split at hterm <;> simp at hterm
    · -- the uncovered one ends the block of the masked text
      rw [blockEnd_of_le hle]
      refine iff_of_false ?_ ?_
      · intro heq
        rcases blockEnd_cases total limit stop? with ⟨s, hs, -, hend⟩ | ⟨-, hend⟩
        · rw [hend, Prod.mk.injEq] at heq
          have := hlater s hs
          omega
        · rw [hend, Prod.mk.injEq] at heq
          have := heq.2
          split at this <;> simp at this
      · intro hno
        exact hno rfl (by rw [hbehind _ _ hrest]; rfl)

/-- A block of a masked text is one of the text, unless a comment begins behind its full stop. -/
theorem key_blockAt_eq_iff {a : Anchor} (ha : a ∈ liveAnchors v text) (limit : Nat) :
    (blockAt text (mark text) limit a).key
        = (blockAt (maskComments text) (mark (maskComments text)) limit a).key
      ↔ ((blockAt (maskComments text) (mark (maskComments text)) limit a).termination
          = .terminated →
        (dropBytes (blockAt (maskComments text) (mark (maskComments text)) limit a).span.stop
          text).head? ≠ some '#') := by
  obtain ⟨s, f, rest, hlive, rfl⟩ := exists_liveHeader ha
  have hmark := hlive.fullStop?_mark
  have hmark' := hlive.mask.fullStop?_mark
  rw [textOf_flatMap_blanked, size_maskedText, ← mark_eq_marksOf] at hmark'
  rw [← mark_eq_marksOf] at hmark
  have hdrop : ∀ x y : List Char, rest = x ++ '.' :: y →
      dropBytes (size (textOf s) + size f.text + size x + 1) text = y := by
    intro x y hrest
    have htext : text = (textOf s ++ f.text ++ x ++ ['.']) ++ y := by
      rw [hlive.text_eq, hrest]
      simp
    have hsize : size (textOf s ++ f.text ++ x ++ ['.'])
        = size (textOf s) + size f.text + size x + 1 := by
      rw [size_append, size_append, size_append]
      rfl
    rw [htext, ← hsize, dropBytes_size_append]
  rw [key_blockAt, key_blockAt, termination_blockAt, span_blockAt, size_maskComments, hmark,
    hmark']
  rw [← (fullStop?_maskComments _ rest).blockEnd_eq_iff (size text) limit (dropBytes · text) hdrop]
  simp only [Prod.mk.injEq, true_and, Span.mk.injEq]
  exact Prod.ext_iff.symm

/-- **The blocks of a text are those of the masked text** if its anchors are and no comment begins
behind the full stop of one. -/
theorem map_key_blocks_eq_iff :
    (blocks v text).map Block.key = (blocks v (maskComments text)).map Block.key
      ↔ liveAnchors v text = liveAnchors v (maskComments text)
        ∧ ∀ b ∈ blocks v (maskComments text), b.termination = .terminated →
          (dropBytes b.span.stop text).head? ≠ some '#' := by
  -- the blocks tell where the anchors begin, and that tells the anchors
  have hsame : (blocks v text).map Block.key = (blocks v (maskComments text)).map Block.key →
      liveAnchors v text = liveAnchors v (maskComments text) := by
    intro h
    refine eq_of_map_start_eq (fun a ha a' ha' => eq_of_start_eq_masked ha ha') ?_
    have hstart := congrArg (List.map fun key => key.2.2.1.start) h
    rw [List.map_map, List.map_map] at hstart
    rw [← map_start_blocksAt text (mark text), ← map_start_blocksAt (maskComments text) (mark _)]
    exact hstart
  constructor
  · intro h
    have hanchors := hsame h
    refine ⟨hanchors, ?_⟩
    intro b hb
    rw [blocks, hanchors, blocks, map_key_blocksAt_eq_iff] at h
    obtain ⟨before, a, behind, ha, rfl⟩ := mem_blocksAt_iff.mp hb
    have hlive : a ∈ liveAnchors v text := by
      rw [hanchors, ha]
      simp
    have hkey := h before a behind ha
    rw [size_maskComments] at hkey ⊢
    exact (key_blockAt_eq_iff hlive _).mp hkey
  · rintro ⟨hanchors, hstop⟩
    rw [blocks, hanchors, blocks, map_key_blocksAt_eq_iff]
    intro before a behind ha
    have hlive : a ∈ liveAnchors v text := by
      rw [hanchors, ha]
      simp
    have hb := hstop _ (mem_blocksAt_iff.mpr ⟨before, a, behind, ha, rfl⟩)
    rw [size_maskComments] at hb ⊢
    exact (key_blockAt_eq_iff hlive _).mpr hb

end Keys

/-! ### Attributes -/

/-- A plain mark is a plain character. -/
theorem exists_plain_of_marksOf {l : List Segment} {ms ms' : List Mark} {c : Char}
    (h : marksOf l = ms ++ ⟨c, false⟩ :: ms') :
    ∃ l₁ l₂, l = l₁ ++ .plain c :: l₂ ∧ marksOf l₁ = ms := by
  induction l generalizing ms with
  | nil => simp at h
  | cons s l ih =>
    cases s with
    | plain d =>
      rw [marksOf_plain] at h
      cases ms with
      | nil =>
        obtain ⟨hd, -⟩ := List.cons.inj h
        obtain rfl : d = c := by simpa using hd
        exact ⟨[], l, rfl, rfl⟩
      | cons m ms =>
        obtain ⟨rfl, htail⟩ := List.cons.inj h
        obtain ⟨l₁, l₂, rfl, rfl⟩ := ih htail
        exact ⟨.plain d :: l₁, l₂, rfl, rfl⟩
    | inert k t =>
      rw [marksOf_inert] at h
      rcases append_eq_append_cons h with ⟨w, ht, -⟩ | ⟨w, rfl, hw⟩
      · -- the marks of a run are not plain
        have hmem : (⟨c, false⟩ : Mark) ∈ t.map (⟨·, true⟩) := ht ▸ by simp
        simp at hmem
      · obtain ⟨l₁, l₂, rfl, rfl⟩ := ih hw
        exact ⟨.inert k t :: l₁, l₂, rfl, rfl⟩

theorem text_of_mem_blocks {v : Vocabulary} {text : List Char} {b : Block}
    (hb : b ∈ blocks v text) :
    b.text = trimEnd (takeBytes (b.span.stop - b.span.start) (dropBytes b.span.start text)) := by
  obtain ⟨before, a, behind, -, rfl⟩ := mem_blocksAt_iff.mp hb
  rw [blockAt_eq]

/-- A block ends where a segment does. -/
theorem exists_segments_of_mem_blocks {v : Vocabulary} {text : List Char} {b : Block}
    (hb : b ∈ blocks v text) : ∃ s₁ s₂ s₃, segments text = s₁ ++ (s₂ ++ s₃)
      ∧ b.span = ⟨size (textOf s₁), size (textOf s₁) + size (textOf s₂)⟩ := by
  obtain ⟨before, a, behind, ha, rfl⟩ := mem_blocksAt_iff.mp hb
  have hmem : a ∈ liveAnchors v text := ha ▸ by simp
  have horder := (liveAnchors_order ha).2
  obtain ⟨s, f, rest, hlive, rfl⟩ := exists_liveHeader hmem
  have hfull := hlive.fullStop?_mark
  rw [span_blockAt]
  rcases blockEnd_cases (size text) (limitOf (size text) behind)
    (Anchor.fullStop? ⟨f.header, size (textOf s), size (textOf s) + size f.text⟩ (mark text)) with
    ⟨n, hn, -, heq⟩ | ⟨-, heq⟩
  · -- it ends behind a plain character
    rw [heq]
    rw [hfull] at hn
    obtain ⟨ms, ms', hms, -, rfl⟩ := fullStop?_eq_some hn
    obtain ⟨l₁, l₂, hl, rfl⟩ := exists_plain_of_marksOf hms
    refine ⟨s, f.text.map .plain ++ (l₁ ++ [.plain '.']), l₂, ?_, ?_⟩
    · rw [hlive.segments_eq, hl]
      simp
    · have hdot : size (textOf [Segment.plain '.']) = 1 := rfl
      simp only [textOf_append, textOf_map_plain, size_append, markSize, map_char_marksOf, hdot,
        Nat.add_assoc]
  · rw [heq]
    cases behind with
    | nil =>
      refine ⟨s, f.text.map .plain ++ segments rest, [], ?_, ?_⟩
      · rw [hlive.segments_eq, List.append_nil]
      · simp only [limitOf, Span.mk.injEq, true_and]
        rw [hlive.text_eq, size_append, textOf_append, textOf_map_plain, textOf_segments]
    | cons c behind =>
      -- it ends in front of the next header
      have hc : c ∈ liveAnchors v text := ha ▸ by simp
      have hle := horder c (List.mem_cons_self ..)
      obtain ⟨s', f', rest', hlive', rfl⟩ := exists_liveHeader hc
      rcases List.append_eq_append_iff.mp (hlive.segments_eq.symm.trans hlive'.segments_eq) with
        ⟨u, rfl, hu⟩ | ⟨u, rfl, hu⟩
      · refine ⟨s, u, f'.text.map .plain ++ segments rest', ?_, ?_⟩
        · rw [hlive.segments_eq, hu]
        · simp [limitOf]
      · have := size_pos f.text_ne_nil
        simp only [textOf_append, size_append] at hle
        omega

/-- A block has whole segments of the text, and they are the segments of its characters. -/
theorem exists_slice_of_mem_blocks {v : Vocabulary} {text : List Char} {b : Block}
    (hb : b ∈ blocks v text) : ∃ s₁ y s₃, text = textOf s₁ ++ (y ++ textOf s₃)
      ∧ segments text = s₁ ++ (segments y ++ s₃)
      ∧ b.span = ⟨size (textOf s₁), size (textOf s₁) + size y⟩ ∧ b.text = trimEnd y := by
  obtain ⟨s₁, s₂, s₃, hs, hspan⟩ := exists_segments_of_mem_blocks hb
  have htext : text = textOf s₁ ++ (textOf s₂ ++ textOf s₃) := by
    rw [← textOf_segments text, hs, textOf_append, textOf_append]
  have hcut : segments (textOf s₂) = s₂ := by
    rw [htext] at hs
    exact (segments_of_append (segments_of_append hs rfl).2 rfl).1
  refine ⟨s₁, textOf s₂, s₃, htext, by rw [hs, hcut], hspan, ?_⟩
  rw [text_of_mem_blocks hb, hspan, Nat.add_sub_cancel_left]
  simp only
  rw [htext, dropBytes_size_append, takeBytes_size_append]

/-- **A block has the attributes of the block of the masked text that reaches as far.** -/
theorem extract_of_span_eq {v : Vocabulary} {text : List Char} {b b' : Block}
    (hb : b ∈ blocks v text) (hb' : b' ∈ blocks v (maskComments text)) (h : b.span = b'.span) :
    AttributeSet.extract v b.text = AttributeSet.extract v b'.text := by
  obtain ⟨s₁, y, s₃, -, hs, hspan, hy⟩ := exists_slice_of_mem_blocks hb
  rw [hy, text_of_mem_blocks hb', ← h, hspan, Nat.add_sub_cancel_left,
    maskComments_of_segments hs, ← size_maskedText s₁, ← size_maskComments y,
    dropBytes_size_append, takeBytes_size_append, AttributeSet.extract_trimEnd,
    AttributeSet.extract_trimEnd, AttributeSet.extract, AttributeSet.extract,
    maskComments_maskComments]

/-- **A comment is a blank to the blocks of a text exactly if it stands in no header and behind no
full stop.**  The attributes of a block do not depend on comments. -/
theorem blocks_maskComments (v : Vocabulary) (text : List Char) :
    ((blocks v text).map Block.key = (blocks v (maskComments text)).map Block.key
        ↔ liveAnchors v text = liveAnchors v (maskComments text)
          ∧ ∀ b ∈ blocks v (maskComments text), b.termination = .terminated →
            (dropBytes b.span.stop text).head? ≠ some '#')
      ∧ (liveAnchors v text = liveAnchors v (maskComments text) →
        ∀ a ∈ liveAnchors v (maskComments text),
          '#' ∉ takeBytes (a.span.stop - a.span.start) (dropBytes a.span.start text))
      ∧ (v.accepts "owl" = false →
        (∀ a ∈ liveAnchors v (maskComments text),
          '#' ∉ takeBytes (a.span.stop - a.span.start) (dropBytes a.span.start text)) →
        liveAnchors v text = liveAnchors v (maskComments text))
      ∧ (∀ b ∈ blocks v text, ∀ b' ∈ blocks v (maskComments text), b.span = b'.span →
        AttributeSet.extract v b.text = AttributeSet.extract v b'.text)
      ∧ size (maskComments text) = size text :=
  ⟨map_key_blocks_eq_iff, fun h _ ha => notMem_of_liveAnchors_eq h ha, liveAnchors_eq_of_notMem,
    fun _ hb _ hb' h => extract_of_span_eq hb hb' h, size_maskComments text⟩

/-- A header that a comment stands in. -/
def commentedHeader : List Char := "ex:a # c\n a owl:DatatypeProperty .".toList

/-- A declaration with a comment between its clauses. -/
def commentedClause : List Char :=
  "ex:a a owl:DatatypeProperty ; # c .\n rdfs:label \"b\" .".toList

/-- A comment hides the header it stands in, and behind a clause it does no harm. -/
theorem commentedHeader_hidden :
    (blocks .standard commentedHeader = []
      ∧ (blocks .standard (maskComments commentedHeader)).map Block.key
        = [("ex", "a", ⟨0, 34⟩, .terminated)]
      ∧ ¬∀ a ∈ liveAnchors .standard (maskComments commentedHeader),
        '#' ∉ takeBytes (a.span.stop - a.span.start) (dropBytes a.span.start commentedHeader))
      ∧ (blocks .standard commentedClause).map Block.key
        = (blocks .standard (maskComments commentedClause)).map Block.key := by
  refine ⟨⟨by decide +kernel, by decide +kernel, ?_⟩, ?_⟩
  · intro h
    have hsame := (blocks_maskComments .standard commentedHeader).2.2.1 (by decide +kernel) h
    revert hsame
    decide +kernel
  · obtain ⟨hkeys, -, hanchors, -⟩ := blocks_maskComments .standard commentedClause
    exact hkeys.mpr ⟨hanchors (by decide +kernel) (by decide +kernel), by decide +kernel⟩

end FormOntology
