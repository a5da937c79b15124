import FormOntology.Proofs.Source.Documents
import FormOntology.Proofs.Declaration.Live
import FormOntology.Proofs.Turtle.Closed

/-!
# Documents that leave nothing open

A document is self-contained if full stops end its declarations, its literals are closed and its
last piece is a full stop.  Then no literal, no block and no header goes on behind its end, so a
source of such documents declares what each of them declares alone.

## Main definitions

* `SelfContained` — whether nothing goes on behind the end of a text.

## Main results

* `liveAnchors_append_of_selfContained`, `blocks_append_of_selfContained` — the anchors and the
  blocks of a text behind a self-contained one.
* `SelfContained.append` — self-contained texts put together are self-contained.
* `Combined.declarationsBy_ofDocuments` — **a source of self-contained documents has the
  declarations of each, in order.**
-/

namespace FormOntology

open Text Turtle

/-- Whether nothing of a text goes on behind its end. -/
structure SelfContained (v : Vocabulary) (text : List Char) : Prop where
  /-- Every block ends at a full stop. -/
  terminated : ∀ b ∈ blocks v text, b.termination = .terminated
  /-- Every literal is closed. -/
  closed : LiteralsClosed text
  /-- What is no comment and no blank ends with a full stop. -/
  ends : lastPiece? text = none ∨ lastPiece? text = some (.plain '.')

instance (v : Vocabulary) (text : List Char) : Decidable (SelfContained v text) :=
  decidable_of_iff (_ ∧ _ ∧ _) ⟨fun h => ⟨h.1, h.2.1, h.2.2⟩, fun h => ⟨h.1, h.2, h.3⟩⟩

theorem SelfContained.nil (v : Vocabulary) : SelfContained v [] where
  terminated := by simp [blocks, liveAnchors, anchors, blocksAt]
  closed := by simp [LiteralsClosed]
  ends := by simp [lastPiece?]

/-! ### Texts with a line border in between -/

@[simp] theorem Anchor.shift_zero : Anchor.shift 0 = id := by
  funext a
  simp [Anchor.shift, Span.shift]

@[simp] theorem Block.shift_zero : Block.shift 0 = id := by
  funext b
  simp [Block.shift, Span.shift]

/-- The blocks of anchors that stand elsewhere, if each is the block it was. -/
theorem blocksAt_map_shift {x text : List Char} {marks marks' : List Mark} {k : Nat}
    {as bs : List Anchor}
    (h : ∀ before a after, as = before ++ a :: after →
      blockAt text marks' (limitOf (size text) ((after ++ bs).map (Anchor.shift k))) (a.shift k)
        = (blockAt x marks (limitOf (size x) after) a).shift k) :
    blocksAt text marks' ((as ++ bs).map (Anchor.shift k))
      = (blocksAt x marks as).map (Block.shift k)
        ++ blocksAt text marks' (bs.map (Anchor.shift k)) := by
  induction as with
  | nil => rfl
  | cons a as ih =>
    rw [List.cons_append, List.map_cons, blocksAt_cons, blocksAt_cons, List.map_cons,
      List.cons_append, h [] a as rfl,
      ih fun before a' after has => h (a :: before) a' after (by rw [has]; rfl)]

/-- The blocks of a text between borders that end in it are those that it has alone. -/
theorem blocksAt_of_borders {v : Vocabulary} {x y z : List Char}
    (hx : x = [] ∨ x.getLast? = some '\n') (hopen : endsInert x = false) (hyz : LineBorder y z)
    (hy : SelfContained v y) {behind : List Anchor} (hmem : ∀ b ∈ behind, b ∈ anchors v (y ++ z))
    (hstop : ∀ b ∈ behind, size y < b.span.stop) :
    blocksAt (x ++ (y ++ z)) (mark (x ++ (y ++ z)))
        ((liveAnchors v y ++ behind).map (Anchor.shift (size x)))
      = (blocks v y).map (Block.shift (size x))
        ++ blocksAt (x ++ (y ++ z)) (mark (x ++ (y ++ z)))
          (behind.map (Anchor.shift (size x))) := by
  apply blocksAt_map_shift
  intro before a after ha
  apply blockAt_of_ended hx hopen hyz ha hmem hstop
  rw [hy.terminated _ (mem_blocksAt_iff.mpr ⟨before, a, after, ha, rfl⟩)]
  exact Termination.noConfusion

section Append

variable {v : Vocabulary} {x s : List Char} (hx : SelfContained v x) (hs : ∀ c ∈ s, c = '\n')
  (hline : x ++ s = [] ∨ (x ++ s).getLast? = some '\n')
include hs hline

/-- A line ends behind a text, or with what stands behind it. -/
theorem lineBorder_of_lineFeeds (y : List Char) : LineBorder x (s ++ y) := by
  cases s with
  | nil =>
    rw [List.append_nil] at hline
    exact hline.elim .inl fun h => .inr (.inr (.inl h))
  | cons c s =>
    obtain rfl := hs c (List.mem_cons_self ..)
    exact .inr (.inr (.inr rfl))

include hx

/-- A self-contained text and what stands behind it are cut apart. -/
theorem segments_append_of_selfContained (y : List Char) :
    segments (x ++ (s ++ y)) = segments x ++ (s.map .plain ++ segments y) := by
  have hopen : ∀ c ∈ s, ∀ r, opening c r = none := by
    intro c hc r
    obtain rfl := hs c hc
    exact opening_eq_none_iff.mpr ⟨by decide, by decide, fun h => absurd h (by decide)⟩
  rw [segments_append_of_literalsClosed hx.closed (lineBorder_of_lineFeeds hs hline y),
    segments_append_of_opening hopen]

theorem segments_append_append_of_selfContained (y : List Char) :
    segments ((x ++ s) ++ y) = segments (x ++ s) ++ segments y := by
  have hfront := segments_append_of_selfContained hx hs hline []
  rw [List.append_nil, segments_nil, List.append_nil] at hfront
  rw [List.append_assoc, segments_append_of_selfContained hx hs hline, hfront, List.append_assoc]

theorem endsInert_of_selfContained : endsInert (x ++ s) = false := by
  rw [endsInert, segments_append_append_of_selfContained hx hs hline, segments_letter,
    bne_self_eq_false]

/-- **No header stands across the end of a self-contained text.** -/
theorem le_start_of_selfContained {y : List Char} {a : Anchor}
    (ha : a ∈ liveAnchors v (x ++ (s ++ y))) (hstop : size x < a.span.stop) :
    size (x ++ s) ≤ a.span.start := by
  obtain ⟨l, f, rest, hlive, rfl⟩ := exists_liveHeader ha
  obtain ⟨c, t, hf⟩ := List.exists_cons_of_ne_nil f.text_ne_nil
  have hblank : isBlank c = false := by
    have := f.stopsBefore_isBlank_text hlive.valid []
    rw [List.append_nil, hf] at this
    exact stopsBefore_cons.mp this
  have hseg := hlive.segments_eq
  rw [segments_append_of_selfContained hx hs hline, hf, List.map_cons, List.cons_append] at hseg
  simp only at hstop ⊢
  rcases append_eq_append_cons hseg with ⟨w, hxl, hw⟩ | ⟨w, rfl, hw⟩
  · -- a header that begins in the text would end it, and not with a full stop
    exfalso
    rcases List.append_eq_append_iff.mp hw with ⟨u, rfl, -⟩ | ⟨u, hu, -⟩
    · have htext := congrArg (fun l => size (textOf l)) hxl
      simp only [textOf_segments, textOf_append, textOf_cons, Segment.text_plain, textOf_map_plain,
        size_append, size_cons, size_nil] at htext
      rw [hf, size_cons] at hstop
      omega
    · obtain ⟨t₁, t₂, rfl, rfl, -⟩ := List.map_eq_append_iff.mp hu
      obtain ⟨d, hd, hlast⟩ := exists_lastPiece?_of_map_plain (t := c :: t₁) hxl
        (List.mem_cons_self ..) hblank
      have hdot : d = '.' := by
        rcases hx.ends with hends | hends
        · cases hlast.symm.trans hends
        · exact Segment.plain.inj (Option.some.inj (hlast.symm.trans hends))
      have hmem : d ∈ f.text := by
        rw [hf, ← List.cons_append]
        exact List.mem_append_left _ hd
      have := f.isHeaderChar_of_mem hlive.valid d hmem
      rw [hdot] at this
      exact absurd this (by decide)
  · -- a header that begins behind the text does not begin with a line feed
    rcases append_eq_append_cons hw with ⟨u, hu, -⟩ | ⟨u, rfl, -⟩
    · have hmem : Segment.plain c ∈ s.map Segment.plain := by simp [hu]
      obtain ⟨d, hd, heq⟩ := List.mem_map.mp hmem
      obtain rfl := Segment.plain.inj heq
      obtain rfl := hs d hd
      exact absurd hblank (by decide)
    · simp only [textOf_append, textOf_segments, textOf_map_plain, size_append]
      omega

/-- **The anchors behind a self-contained text** are those that what follows has alone. -/
theorem liveAnchors_append_of_selfContained (howl : v.accepts "owl" = false) (y : List Char) :
    liveAnchors v (x ++ (s ++ y))
      = liveAnchors v x ++ (liveAnchors v y).map (Anchor.shift (size (x ++ s))) := by
  have hlast : ∀ c, (x ++ s).getLast? = some c → c = '\n' := by
    intro c hc
    rcases hline with h | h
    · simp [h] at hc
    · exact (Option.some.inj (h.symm.trans hc)).symm
  obtain ⟨front, hfront, hlt⟩ := liveAnchors_append_of_line hlast
    (segments_append_append_of_selfContained hx hs hline y) (.inl howl)
  obtain ⟨behind, hbehind, -, hstop⟩ :=
    liveAnchors_append_of_lineBorder (v := v) (lineBorder_of_lineFeeds hs hline y)
  rw [List.append_assoc] at hfront
  rw [hfront]
  congr 1
  -- both lists are the anchors that begin in the text
  rcases List.append_eq_append_iff.mp (hbehind.symm.trans hfront) with
    ⟨w, rfl, hw⟩ | ⟨w, hw, hmap⟩
  · have hnil : w = [] := by
      apply List.eq_nil_iff_forall_not_mem.mpr
      intro a ha
      have hmem : a ∈ behind := hw ▸ List.mem_append_left _ ha
      have hle := le_start_of_selfContained hx hs hline
        (hbehind ▸ List.mem_append_right _ hmem) (hstop a hmem)
      have := hlt a (List.mem_append_right _ ha)
      omega
    rw [hnil, List.append_nil]
  · have hnil : w = [] := by
      apply List.eq_nil_iff_forall_not_mem.mpr
      intro a ha
      have hmem : a ∈ liveAnchors v x := hw ▸ List.mem_append_right _ ha
      have hspan := span_of_mem_liveAnchors hmem
      obtain ⟨b, -, rfl⟩ := List.mem_map.mp (hmap ▸ List.mem_append_left _ ha)
      simp only [Anchor.shift, Span.shift, size_append] at hspan
      omega
    rw [hw, hnil, List.append_nil]

/-- **The blocks behind a self-contained text** are those that what follows has alone. -/
theorem blocks_append_of_selfContained (howl : v.accepts "owl" = false) {y : List Char}
    (hy : SelfContained v y) : blocks v (x ++ (s ++ y))
      = blocks v x ++ (blocks v y).map (Block.shift (size (x ++ s))) := by
  have hanchors := liveAnchors_append_of_selfContained hx hs hline howl y
  have hborder := lineBorder_of_lineFeeds hs hline y
  have hopen := endsInert_of_selfContained hx hs hline
  obtain ⟨behind, hbehind, hmem, hstop⟩ := liveAnchors_append_of_lineBorder (v := v) hborder
  obtain rfl : behind = (liveAnchors v y).map (Anchor.shift (size (x ++ s))) :=
    List.append_cancel_left (hbehind.symm.trans hanchors)
  -- the text in front has nothing in front of it, and the one behind has nothing behind it
  have hfirst := blocksAt_of_borders (.inl rfl) endsInert_nil hborder hx hmem hstop
  have hsecond := blocksAt_of_borders hline hopen (.inr (.inl rfl)) hy (List.forall_mem_nil _)
    (List.forall_mem_nil _)
  simp only [List.nil_append, size_nil, Anchor.shift_zero, Block.shift_zero, List.map_id] at hfirst
  simp only [List.append_nil, List.map_nil, blocksAt, List.append_assoc] at hsecond
  rw [blocks, hanchors, hfirst, hsecond]

/-- **Self-contained texts put together are self-contained.** -/
theorem SelfContained.append (howl : v.accepts "owl" = false) {y : List Char}
    (hy : SelfContained v y) : SelfContained v (x ++ (s ++ y)) := by
  have hcut := segments_append_append_of_selfContained hx hs hline y
  have hfront := segments_append_of_selfContained hx hs hline []
  rw [List.append_nil, segments_nil, List.append_nil] at hfront
  have hclosed : LiteralsClosed (x ++ s) := by
    intro p hp hliteral
    rw [hfront] at hp
    rcases List.mem_append.mp hp with hp | hp
    · exact hx.closed p hp hliteral
    · obtain ⟨c, -, rfl⟩ := List.mem_map.mp hp
      cases hliteral
  have hlast : lastPiece? (x ++ s) = lastPiece? x := by
    have hblank : (s.map Segment.plain).filter Segment.counts = [] := by
      rw [List.filter_eq_nil_iff]
      intro p hp
      obtain ⟨c, hc, rfl⟩ := List.mem_map.mp hp
      rw [hs c hc]
      decide
    rw [lastPiece?, hfront, List.filter_append, hblank, List.append_nil, lastPiece?]
  refine ⟨?_, ?_, ?_⟩
  · intro b hb
    rw [blocks_append_of_selfContained hx hs hline howl hy] at hb
    rcases List.mem_append.mp hb with hb | hb
    · exact hx.terminated b hb
    · obtain ⟨b', hb', rfl⟩ := List.mem_map.mp hb
      exact hy.terminated b' hb'
  · rw [← List.append_assoc]
    exact hclosed.append hy.closed hcut
  · rw [← List.append_assoc, lastPiece?_append hcut, hlast]
    rcases hy.ends with hends | hends
    · rw [hends, Option.none_or]
      exact hx.ends
    · rw [hends, Option.some_or]
      exact .inr rfl

end Append

/-! ### Sources -/

namespace Combined

section Documents

variable {v : Vocabulary} (howl : v.accepts "owl" = false)
include howl

/-- A source of self-contained documents is self-contained, and a further one adds its blocks. -/
theorem selfContained_ofDocuments {ds : List Document}
    (h : ∀ d ∈ ds, SelfContained v d.content.toList) : SelfContained v (ofDocuments ds).text := by
  induction ds using List.reverseRecOn with
  | nil => exact .nil v
  | append_singleton ds d ih =>
    rw [ofDocuments_concat, push]
    simp only [List.append_assoc]
    exact (ih fun e he => h e (by simp [he])).append (fun _ => eq_of_mem_separator)
      (front_eq_nil_or ds) howl (h d (by simp))

/-- The blocks of a source with one document more. -/
theorem blocks_ofDocuments_concat {ds : List Document} {d : Document}
    (h : ∀ e ∈ ds, SelfContained v e.content.toList) (hd : SelfContained v d.content.toList) :
    blocks v (ofDocuments (ds ++ [d])).text = blocks v (ofDocuments ds).text
      ++ (blocks v d.content.toList).map (Block.shift (size (front ds))) := by
  rw [ofDocuments_concat, push]
  simp only [List.append_assoc]
  exact blocks_append_of_selfContained (selfContained_ofDocuments howl h)
    (fun _ => eq_of_mem_separator) (front_eq_nil_or ds) howl hd

variable [PatternLibrary]

/-- The declarations of the first documents of a source, if more follow. -/
theorem map_blocks_ofDocuments (extract : List Char → AttributeSet) {ds : List Document}
    (h : ∀ d ∈ ds, SelfContained v d.content.toList) (post : List Document) :
    (blocks v (ofDocuments ds).text).map (fun b => Declaration.resolve b (extract b.text)
        ((ofDocuments (ds ++ post)).locate b.span.start))
      = ds.flatMap fun d => (ofDocuments [d]).declarationsBy v extract := by
  induction ds using List.reverseRecOn generalizing post with
  | nil => rfl
  | append_singleton ds d ih =>
    have hds : ∀ e ∈ ds, SelfContained v e.content.toList := fun e he => h e (by simp [he])
    have hlast := ih hds (d :: post)
    rw [blocks_ofDocuments_concat howl hds (h d (by simp)), List.map_append, List.flatMap_append,
      List.append_assoc, List.singleton_append, hlast]
    congr 1
    rw [List.flatMap_singleton, declarationsBy, List.map_map]
    apply List.map_congr_left
    intro b hb
    have hspan := span_of_mem_blocks hb
    rw [Function.comp_apply, ← locate_shift ds d post (Nat.lt_of_lt_of_le hspan.1 hspan.2)]
    rfl

/-- **A source of self-contained documents has the declarations of each, in order**, with the
diagnostics for them; each is told as a line of its own document. -/
theorem declarationsBy_ofDocuments (extract : List Char → AttributeSet) {ds : List Document}
    (h : ∀ d ∈ ds, SelfContained v d.content.toList) :
    (ofDocuments ds).declarationsBy v extract
        = ds.flatMap (fun d => (ofDocuments [d]).declarationsBy v extract)
      ∧ ∀ d ∈ ds, (ofDocuments [d]).declarationsBy v extract
        = (blocks v d.content.toList).map fun b => Declaration.resolve b (extract b.text)
          ⟨d.name, lineFeeds (takeBytes b.span.start d.content.toList) + 1⟩ := by
  constructor
  · have := map_blocks_ofDocuments howl extract h []
    rwa [List.append_nil] at this
  · intro d _
    apply List.map_congr_left
    intro b hb
    have hspan := span_of_mem_blocks hb
    have hlocate := locate_of_document [] d [] (Nat.lt_of_lt_of_le hspan.1 hspan.2)
    rw [List.nil_append, show front [] = [] from rfl, size_nil, Nat.zero_add] at hlocate
    rw [hlocate]

end Documents

/-- Documents that leave nothing open: one of comments, an empty one, and two with a declaration,
of which the first does not end with its line. -/
def closedDocuments : List Document :=
  [⟨"a.ttl", "# a < \"b"⟩, ⟨"b.ttl", ""⟩,
    ⟨"c.ttl", "\nex:a a owl:DatatypeProperty ; rdfs:label \"A. b\" . # done"⟩,
    ⟨"d.ttl", "ex:b a owl:DatatypeProperty ; rdfs:range xsd:date .\n"⟩]

/-- What these documents declare, and where. -/
theorem closedDocuments_declarations :
    Vocabulary.standard.accepts "owl" = false
      ∧ (∀ d ∈ closedDocuments, SelfContained .standard d.content.toList)
      ∧ (ofDocuments closedDocuments).declarations .standard
        = closedDocuments.flatMap (fun d => (ofDocuments [d]).declarations .standard)
      ∧ ((ofDocuments closedDocuments).declarations .standard).map
          (fun p => (p.1.identifier, p.1.location))
        = [("a", ⟨"c.ttl", 2⟩), ("b", ⟨"d.ttl", 1⟩)] := by
  have howl : Vocabulary.standard.accepts "owl" = false := by decide +kernel
  have hclosed : ∀ d ∈ closedDocuments, SelfContained .standard d.content.toList := by
    decide +kernel
  obtain ⟨hall, -⟩ := declarationsBy_ofDocuments howl (AttributeSet.extract .standard) hclosed
  exact ⟨howl, hclosed, hall, by decide +kernel⟩

end Combined

end FormOntology
