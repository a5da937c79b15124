import FormOntology.Declaration.Iterator
import FormOntology.Proofs.Declaration.Comments

/-!
# Where the blocks of a text stand

There is a block for every place outside comments, literals and IRIs where a header stands, in the
order of these places, if no header can begin at the mark of another one.  A block reaches to the
first full stop behind its header, to the next header or to the end of the text, whichever comes
first.

## Main definitions

* `Inside` — whether an offset lies in a comment, a literal or an IRI.
* `Anchor.StandsIn` — the places where a header stands outside of these.
* `FullStopAt` — the places where a full stop stands alone.
* `Block.IsOf` — what the block of an anchor is.

## Main results

* `mem_liveAnchors_iff` — where `owl` is not accepted, the anchors are all the places of headers.
* `fullStop?_le_of_fullStopAt` — the full stop of an anchor is the first one behind it.
* `blocks_spans` — **the blocks of a text by its headers and full stops.**
-/

namespace FormOntology

open Text Turtle

/-! ### Places -/

/-- Whether an offset lies in a comment, a literal or an IRI of a text. -/
def Inside (text : List Char) (n : Nat) : Prop := ∃ s ∈ inertRanges text, s.Contains n

theorem contains_inertRanges_iff_inside {text : List Char} {n : Nat} :
    Spans.contains (inertRanges text).toArray n = true ↔ Inside text n :=
  contains_inertRanges_iff

/-- Whether an anchor of a text is a header that stands outside comments, literals and IRIs. -/
def Anchor.StandsIn (v : Vocabulary) (text : List Char) (a : Anchor) : Prop :=
  (∃ x f rest, HeaderAt v text x f rest ∧ a = ⟨f.header, size x, size x + size f.text⟩)
    ∧ ¬Inside text a.span.start

/-- **Where `owl` is not accepted, the anchors are all the places of headers.** -/
theorem mem_liveAnchors_iff {v : Vocabulary} (howl : v.accepts "owl" = false) {text : List Char}
    {a : Anchor} : a ∈ liveAnchors v text ↔ a.StandsIn v text := by
  unfold liveAnchors Anchor.StandsIn
  rw [List.mem_filter, Bool.not_eq_true', ← Bool.not_eq_true, contains_inertRanges_iff_inside]
  apply and_congr_left'
  constructor
  · exact headerAt_of_mem_anchors
  · rintro ⟨x, f, rest, hat, rfl⟩
    exact mem_anchors_of_headerAt howl hat

/-- Whether a full stop stands alone at an offset: outside comments, literals and IRIs, with a blank
or the end of the text behind it. -/
def FullStopAt (text : List Char) (n : Nat) : Prop :=
  ∃ x y, text = x ++ '.' :: y ∧ size x = n ∧ ¬Inside text n
    ∧ ∀ c, y.head? = some c → isAsciiBlank c = true

/-! ### The first full stop -/

theorem startsBlank_iff {ms : List Mark} :
    startsBlank ms = true
      ↔ ∀ c, (ms.map Mark.char).head? = some c → isAsciiBlank c = true := by
  cases ms <;> simp [startsBlank]

/-- A full stop that stands alone is a mark outside every run. -/
theorem fullStopAt_iff {text : List Char} {n : Nat} :
    FullStopAt text n ↔ ∃ ms ms', mark text = ms ++ ⟨'.', false⟩ :: ms' ∧ markSize ms = n
      ∧ startsBlank ms' = true := by
  unfold FullStopAt
  rw [mark_eq_marksOf]
  constructor
  · rintro ⟨x, y, rfl, rfl, hinside, hblank⟩
    rw [← contains_inertRanges_iff_inside, Bool.not_eq_true,
      contains_inertRanges_eq_false_iff] at hinside
    obtain ⟨s₁, s₂, hs, rfl⟩ := hinside
    have hy : textOf s₂ = y := by
      have htext := textOf_segments (textOf s₁ ++ '.' :: y)
      rw [hs, textOf_append, textOf_cons] at htext
      exact (List.cons.inj (List.append_cancel_left htext)).2
    refine ⟨marksOf s₁, marksOf s₂, by rw [hs, marksOf_append, marksOf_plain],
      by rw [markSize, map_char_marksOf], startsBlank_iff.mpr ?_⟩
    rw [map_char_marksOf, hy]
    exact hblank
  · rintro ⟨ms, ms', hms, rfl, hblank⟩
    obtain ⟨l₁, l₂, hl, rfl⟩ := exists_plain_of_marksOf hms
    rw [hl, marksOf_append, marksOf_plain, List.append_cancel_left_eq, List.cons.injEq] at hms
    have hinside := contains_inertRanges_of_plain hl
    rw [← Bool.not_eq_true, contains_inertRanges_iff_inside] at hinside
    refine ⟨textOf l₁, textOf l₂, ?_, ?_, ?_, ?_⟩
    · rw [← textOf_segments text, hl, textOf_append, textOf_cons]
      rfl
    · rw [markSize, map_char_marksOf]
    · rwa [markSize, map_char_marksOf]
    · rw [← hms.2, startsBlank_iff, map_char_marksOf] at hblank
      exact hblank

/-- No full stop that stands alone is passed over. -/
theorem fullStop?_le (offset : Nat) (ms : List Mark) {ms' : List Mark}
    (hblank : startsBlank ms' = true) :
    ∃ s, fullStop? offset (ms ++ ⟨'.', false⟩ :: ms') = some s
      ∧ s ≤ offset + markSize ms + 1 := by
  induction ms generalizing offset with
  | nil =>
    refine ⟨offset + 1, fullStop?_of_isFullStop ?_ offset, by simp⟩
    rw [isFullStop, hblank]
    rfl
  | cons m ms ih =>
    rw [List.cons_append]
    cases hm : isFullStop m (ms ++ ⟨'.', false⟩ :: ms') with
    | true => exact ⟨offset + 1, fullStop?_of_isFullStop hm offset, by omega⟩
    | false =>
      obtain ⟨s, hs, hle⟩ := ih (offset + m.char.utf8Size)
      refine ⟨s, by rw [fullStop?_cons hm, hs], ?_⟩
      rw [markSize_cons]
      omega

section FirstFullStop

variable {v : Vocabulary} {text : List Char} {a : Anchor} (ha : a ∈ liveAnchors v text)
include ha

/-- The marks of a text in front of the end of a header and behind it. -/
theorem exists_mark_of_mem_liveAnchors :
    ∃ front behind, mark text = front ++ behind ∧ markSize front = a.span.stop
      ∧ a.fullStop? (mark text) = fullStop? a.span.stop behind := by
  obtain ⟨s, f, rest, hlive, rfl⟩ := exists_liveHeader ha
  refine ⟨marksOf s ++ marksOf (f.text.map .plain), marksOf (segments rest), ?_, ?_,
    hlive.fullStop?_mark⟩
  · rw [mark_eq_marksOf, hlive.segments_eq, marksOf_append, marksOf_append, List.append_assoc]
  · simp [markSize]

/-- The full stop of an anchor stands alone behind it. -/
theorem fullStopAt_of_fullStop? {stop : Nat} (h : a.fullStop? (mark text) = some stop) :
    ∃ n, stop = n + 1 ∧ a.span.stop ≤ n ∧ FullStopAt text n := by
  obtain ⟨front, behind, hmark, hfront, heq⟩ := exists_mark_of_mem_liveAnchors ha
  obtain ⟨ms, ms', rfl, hblank, rfl⟩ := fullStop?_eq_some (heq.symm.trans h)
  refine ⟨a.span.stop + markSize ms, rfl, Nat.le_add_right .., fullStopAt_iff.mpr ?_⟩
  exact ⟨front ++ ms, ms', by rw [hmark, List.append_assoc], by rw [markSize_append, hfront],
    hblank⟩

/-- **The full stop of an anchor is the first one behind it.** -/
theorem fullStop?_le_of_fullStopAt {n : Nat} (hn : FullStopAt text n) (hle : a.span.stop ≤ n) :
    ∃ stop, a.fullStop? (mark text) = some stop ∧ stop ≤ n + 1 := by
  obtain ⟨front, behind, hmark, hfront, heq⟩ := exists_mark_of_mem_liveAnchors ha
  obtain ⟨ms, ms', hms, rfl, hblank⟩ := fullStopAt_iff.mp hn
  rcases append_eq_append_cons (hmark.symm.trans hms) with ⟨w, rfl, -⟩ | ⟨w, rfl, rfl⟩
  · -- a full stop in front of the end of the header does not count
    have hdot : Char.utf8Size '.' = 1 := rfl
    rw [markSize_append, markSize_cons, hdot] at hfront
    omega
  · obtain ⟨stop, hstop, hlast⟩ := fullStop?_le a.span.stop w hblank
    rw [markSize_append, hfront]
    exact ⟨stop, heq.trans hstop, hlast⟩

end FirstFullStop

/-! ### The block of an anchor -/

/-- What the block of an anchor is: its names and its text, and where it ends. -/
structure Block.IsOf (v : Vocabulary) (text : List Char) (a : Anchor) (b : Block) : Prop where
  /-- It has the namespace name of the header. -/
  qualifier : b.qualifier = String.ofList a.header.qualifier
  /-- It has the property of the header. -/
  identifier : b.identifier = String.ofList a.header.identifier
  /-- It begins with the header. -/
  start : b.span.start = a.span.start
  /-- It has whole characters of the text. -/
  cut : ∃ x y z, text = x ++ (y ++ z) ∧ b.span = ⟨size x, size x + size y⟩ ∧ b.text = trimEnd y
  /-- It reaches over the header. -/
  header_le : a.span.stop ≤ b.span.stop
  /-- No other header stands in it. -/
  alone : ∀ c : Anchor, c.StandsIn v text → b.span.Contains c.span.start → c = a
  /-- If it is terminated, it ends behind the first full stop that follows the header. -/
  terminated : b.termination = .terminated →
    ∃ n, b.span.stop = n + 1 ∧ a.span.stop ≤ n ∧ FullStopAt text n
      ∧ ∀ m, FullStopAt text m → a.span.stop ≤ m → n ≤ m
  /-- If it is cut off, it ends at a header, and no full stop stands in between. -/
  truncated : b.termination = .truncatedAtNextAnchor →
    (∃ c : Anchor, c.StandsIn v text ∧ c.span.start = b.span.stop)
      ∧ ∀ m, FullStopAt text m → a.span.stop ≤ m → b.span.stop ≤ m
  /-- If it is open, it ends with the text, and no full stop follows the header. -/
  unterminated : b.termination = .unterminatedAtEnd →
    b.span.stop = size text ∧ ∀ m, FullStopAt text m → m < a.span.stop

/-- A block is a part of its text. -/
theorem exists_cut_of_mem_blocks {v : Vocabulary} {text : List Char} {b : Block}
    (hb : b ∈ blocks v text) :
    ∃ x y z, text = x ++ (y ++ z) ∧ b.span = ⟨size x, size x + size y⟩ ∧ b.text = trimEnd y := by
  obtain ⟨s₁, y, s₃, htext, -, hspan, hy⟩ := exists_slice_of_mem_blocks hb
  exact ⟨textOf s₁, y, textOf s₃, htext, hspan, hy⟩

section Order

variable {v : Vocabulary} {text : List Char} {before behind : List Anchor} {a : Anchor}
  (h : liveAnchors v text = before ++ a :: behind)
include h

/-- A block that no full stop ends has none behind its header. -/
theorem limitOf_le_of_fullStopAt
    (hstop : ∀ stop, a.fullStop? (mark text) = some stop → limitOf (size text) behind < stop)
    {m : Nat} (hm : FullStopAt text m) (hle : a.span.stop ≤ m) :
    limitOf (size text) behind ≤ m := by
  have ha : a ∈ liveAnchors v text := h ▸ by simp
  obtain ⟨stop, hsome, hlast⟩ := fullStop?_le_of_fullStopAt ha hm hle
  have := hstop stop hsome
  omega

/-- **The block of an anchor, from the anchors behind it.** -/
theorem isOf_blockAt (howl : v.accepts "owl" = false) :
    (blockAt text (mark text) (limitOf (size text) behind) a).IsOf v text a := by
  have ha : a ∈ liveAnchors v text := h ▸ by simp
  have hmem : blockAt text (mark text) (limitOf (size text) behind) a ∈ blocks v text :=
    mem_blocksAt_iff.mpr ⟨before, a, behind, h, rfl⟩
  have hbounds := blockEnd_bounds h
  have hlimit := limitOf_bounds h
  have hspan := span_blockAt text (mark text) (limitOf (size text) behind) a
  have hterm := termination_blockAt text (mark text) (limitOf (size text) behind) a
  refine ⟨by rw [blockAt_eq], by rw [blockAt_eq], by rw [hspan], exists_cut_of_mem_blocks hmem,
    by rw [hspan]; exact hbounds.1, ?_, ?_, ?_, ?_⟩
  · -- the anchors in front of `a` end in front of it, those behind begin at the limit or later
    intro c hc hin
    rw [hspan] at hin
    have hlow := hin.1
    have hhigh := hin.2
    simp only at hlow hhigh
    have hpair := pairwise_liveAnchors v text
    rw [h, List.pairwise_append, List.pairwise_cons] at hpair
    rw [← mem_liveAnchors_iff howl, h, List.mem_append, List.mem_cons] at hc
    rcases hc with hc | rfl | hc
    · have := hpair.2.2 c hc a (List.mem_cons_self ..)
      omega
    · rfl
    · cases behind with
      | nil => simp at hc
      | cons d behind =>
        have hle : d.span.start ≤ c.span.start := by
          rcases List.mem_cons.mp hc with rfl | hc
          · exact Nat.le_refl _
          · exact Nat.le_of_lt ((List.pairwise_cons.mp hpair.2.1.2).1 c hc)
        have hend := hbounds.2
        simp only [limitOf] at hend hhigh
        omega
  · intro hend
    rw [hterm] at hend
    rcases blockEnd_cases (size text) (limitOf (size text) behind) (a.fullStop? (mark text)) with
      ⟨stop, hstop, -, heq⟩ | ⟨-, heq⟩
    · obtain ⟨n, rfl, hle, hn⟩ := fullStopAt_of_fullStop? ha hstop
      refine ⟨n, by rw [hspan, heq], hle, hn, ?_⟩
      intro m hm hlem
      obtain ⟨stop, hsome, hlast⟩ := fullStop?_le_of_fullStopAt ha hm hlem
      obtain rfl := Option.some.inj (hstop.symm.trans hsome)
      omega
    · rw [heq] at hend
      split at hend <;> cases hend
  · intro hend
    rw [hterm] at hend
    rcases blockEnd_cases (size text) (limitOf (size text) behind) (a.fullStop? (mark text)) with
      ⟨stop, -, -, heq⟩ | ⟨hstop, heq⟩
    · rw [heq] at hend
      cases hend
    · rw [hspan, heq]
      refine ⟨?_, fun m hm hle => limitOf_le_of_fullStopAt h hstop hm hle⟩
      -- the limit is not the end of the text, so it is a header
      cases behind with
      | nil =>
        rw [heq, limitOf, if_neg (Nat.lt_irrefl _)] at hend
        cases hend
      | cons d behind => exact ⟨d, (mem_liveAnchors_iff howl).mp (h ▸ by simp), rfl⟩
  · intro hend
    rw [hterm] at hend
    rcases blockEnd_cases (size text) (limitOf (size text) behind) (a.fullStop? (mark text)) with
      ⟨stop, -, -, heq⟩ | ⟨hstop, heq⟩
    · rw [heq] at hend
      cases hend
    · have hlast : limitOf (size text) behind = size text := by
        rw [heq] at hend
        split at hend
        · cases hend
        · omega
      refine ⟨by rw [hspan, heq, hlast], ?_⟩
      intro m hm
      apply Nat.lt_of_not_le
      intro hle
      have := limitOf_le_of_fullStopAt h hstop hm hle
      -- a full stop has a place in the text
      obtain ⟨x, y, rfl, rfl, -⟩ := hm
      rw [hlast, size_append, size_cons] at this
      have := Char.utf8Size_pos '.'
      omega

/-- A block in front of another one does not reach over the end of the text. -/
theorem termination_blockAt_ne {c : Anchor} (hc : c ∈ behind) :
    (blockAt text (mark text) (limitOf (size text) behind) a).termination
      ≠ .unterminatedAtEnd := by
  rw [termination_blockAt]
  rcases blockEnd_cases (size text) (limitOf (size text) behind) (a.fullStop? (mark text)) with
    ⟨stop, -, -, heq⟩ | ⟨-, heq⟩
  · rw [heq]
    exact Termination.noConfusion
  · cases behind with
    | nil => simp at hc
    | cons d behind =>
      have hd := span_of_mem_liveAnchors (h ▸ by simp : d ∈ liveAnchors v text)
      rw [heq, limitOf, if_pos (by omega)]
      exact Termination.noConfusion

end Order

/-! ### The blocks of a text -/

/-- A relation of every anchor and its block is one of all anchors and their blocks. -/
theorem forall₂_blocksAt {R : Anchor → Block → Prop} {text : List Char} {marks : List Mark}
    {as : List Anchor} (h : ∀ before a behind, as = before ++ a :: behind →
      R a (blockAt text marks (limitOf (size text) behind) a)) :
    List.Forall₂ R as (blocksAt text marks as) := by
  induction as with
  | nil => exact .nil
  | cons a as ih =>
    rw [blocksAt_cons]
    exact .cons (h [] a as rfl) (ih fun before a' behind has =>
      h (a :: before) a' behind (by rw [has]; rfl))

/-- Blocks come one behind the other, and only the last may be open. -/
theorem pairwise_blocks (v : Vocabulary) (text : List Char) :
    (blocks v text).Pairwise fun b b' =>
      b.span.stop ≤ b'.span.start ∧ b.termination ≠ .unterminatedAtEnd := by
  -- the induction runs over the last anchors of the text
  have key : ∀ as before, liveAnchors v text = before ++ as →
      (blocksAt text (mark text) as).Pairwise fun b b' =>
        b.span.stop ≤ b'.span.start ∧ b.termination ≠ .unterminatedAtEnd := by
    intro as
    induction as with
    | nil => exact fun _ _ => .nil
    | cons a as ih =>
      intro before h
      rw [blocksAt_cons, List.pairwise_cons]
      refine ⟨?_, ih (before ++ [a]) (by rw [h, List.append_assoc, List.singleton_append])⟩
      intro b hb
      obtain ⟨between, c, behind, rfl, rfl⟩ := mem_blocksAt_iff.mp hb
      refine ⟨?_, termination_blockAt_ne h (c := c) (by simp)⟩
      have hlimit : limitOf (size text) (between ++ c :: behind) ≤ c.span.start := by
        cases between with
        | nil => exact Nat.le_refl _
        | cons d between =>
          have hpair := pairwise_liveAnchors v text
          rw [h, List.pairwise_append, List.pairwise_cons] at hpair
          exact Nat.le_of_lt ((List.pairwise_cons.mp hpair.2.1.2).1 c (by simp))
      rw [span_blockAt, span_blockAt]
      exact Nat.le_trans (blockEnd_bounds h).2 hlimit
  exact key _ [] rfl

/-- **The blocks of a text by its headers and full stops.**  There is one block for every header
outside comments, literals and IRIs, in order; it is the block of this header and shares nothing
with the others, and only the last may be open at the end.  Taking the blocks one by one gives all
of them, and at every step as many are left as is told. -/
theorem blocks_spans {v : Vocabulary} (howl : v.accepts "owl" = false) (text : List Char) :
    (∃ as : List Anchor, (as.Pairwise fun a a' => a.span.start < a'.span.start)
        ∧ (∀ a, a ∈ as ↔ a.StandsIn v text)
        ∧ List.Forall₂ (Block.IsOf v text) as (blocks v text))
      ∧ ((blocks v text).Pairwise fun b b' =>
        b.span.stop ≤ b'.span.start ∧ b.termination ≠ .unterminatedAtEnd)
      ∧ ∀ taken i, BlockIterator.Takes (.ofText v text) taken i →
        ∃ coming, blocks v text = taken ++ coming ∧ i.Yields coming
          ∧ i.remaining = coming.length := by
  refine ⟨⟨liveAnchors v text, pairwise_liveAnchors v text, fun a => mem_liveAnchors_iff howl,
    forall₂_blocksAt fun before a behind h => isOf_blockAt h howl⟩, pairwise_blocks v text, ?_⟩
  intro taken i htakes
  exact ⟨i.coming, htakes.coming_eq, i.yields_coming, i.length_coming.symm⟩

/-- Three declarations, with a header in a comment between them and a full stop in a literal. -/
def threeEnds : List Char :=
  ("ex:a a owl:DatatypeProperty ; rdfs:label \"b. c\" .\n# ex:x a owl:DatatypeProperty\n"
    ++ "ex:b a owl:DatatypeProperty ; ex:c a owl:DatatypeProperty").toList

/-- Of these blocks one is terminated, one is cut off by the next header and one is open. -/
theorem threeEnds_spans :
    Vocabulary.standard.accepts "owl" = false
      ∧ (blocks .standard threeEnds).map Block.key
        = [("ex", "a", ⟨0, 49⟩, .terminated), ("ex", "b", ⟨80, 110⟩, .truncatedAtNextAnchor),
          ("ex", "c", ⟨110, 137⟩, .unterminatedAtEnd)]
      ∧ ∃ as : List Anchor, (∀ a, a ∈ as ↔ a.StandsIn .standard threeEnds)
        ∧ List.Forall₂ (Block.IsOf .standard threeEnds) as (blocks .standard threeEnds) := by
  have howl : Vocabulary.standard.accepts "owl" = false := by decide +kernel
  obtain ⟨⟨as, -, hmem, hof⟩, -⟩ := blocks_spans howl threeEnds
  exact ⟨howl, by decide +kernel, as, hmem, hof⟩

end FormOntology
