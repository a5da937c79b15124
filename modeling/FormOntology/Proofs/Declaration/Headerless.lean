import FormOntology.Proofs.Declaration.Comments
import FormOntology.Proofs.Declaration.Passing
import FormOntology.Proofs.Turtle.Written

/-!
# Declarations that end at their own full stop

A block reaches from its header to its full stop if there is no other full stop and no other header
between the two.  Full stops and headers in comments, literals and IRIs do not count, so only what
is outside of these has to be looked at.

## Main definitions

* `Headerless` — segments in which no header begins outside runs.
* `Mute` — a quiet text, in front of a given one, in which no header begins outside runs.
* `HeaderForm.block` — the block that a header and what is behind it make.

## Main results

* `Headerless.le_start` — an anchor that does not stand in front of such segments stands behind
  them.
* `Mute.append`, `Mute.of_plain`, `Mute.writtenText` — what is mute.
* `HeaderForm.block_mem_blocks` — **a header, a mute text and a full stop make a block**, whatever
  is in front of them and behind them.
-/

namespace FormOntology

open Text Turtle

/-! ### Segments without headers -/

/-- Whether no header begins outside runs in segments with `y` behind them. -/
def Headerless (v : Vocabulary) (l : List Segment) (y : List Char) : Prop :=
  ∀ l₁ c l₂, l = l₁ ++ .plain c :: l₂ → Header.read? v (c :: (textOf l₂ ++ y)) = none

namespace Headerless

variable {v : Vocabulary} {l l' : List Segment} {y : List Char}

theorem append (h : Headerless v l (textOf l' ++ y)) (h' : Headerless v l' y) :
    Headerless v (l ++ l') y := by
  intro l₁ c l₂ hl
  rcases append_eq_append_cons hl with ⟨w, hw, rfl⟩ | ⟨w, -, hw⟩
  · rw [textOf_append, List.append_assoc]
    exact h l₁ c w hw
  · exact h' w c l₂ hw

/-- Runs have no headers that count. -/
theorem inert (v : Vocabulary) (k : Inert) (x y : List Char) : Headerless v [.inert k x] y := by
  intro l₁ c l₂ hl
  have hmem : Segment.plain c ∈ [Segment.inert k x] := hl ▸ by simp
  cases List.mem_singleton.mp hmem

/-- No header begins in a text that is passed over. -/
theorem of_passes {x : List Char} (h : Passes (Header.behindNames? v) readTypeAssertion? x y) :
    Headerless v (x.map .plain) y := by
  intro l₁ c l₂ hl
  obtain ⟨u, w, rfl, -, hw⟩ := List.map_eq_append_iff.mp hl
  obtain ⟨d, w, rfl, hd, rfl⟩ := List.map_eq_cons_iff.mp hw
  obtain rfl := Segment.plain.inj hd
  rw [textOf_map_plain]
  exact Header.read?_eq_none (h u (d :: w) rfl (List.cons_ne_nil _ _))

/-- **An anchor that does not stand in front of such segments stands behind them.** -/
theorem le_start {text : List Char} {front : List Segment} (h : Headerless v l y)
    (htext : segments text = front ++ (l ++ segments y)) {a : Anchor}
    (ha : a ∈ liveAnchors v text) (hfront : size (textOf front) ≤ a.span.start) :
    size (textOf front) + size (textOf l) ≤ a.span.start := by
  obtain ⟨s, f, rest, hlive, rfl⟩ := exists_liveHeader ha
  obtain ⟨c, x, hx⟩ := List.exists_cons_of_ne_nil f.text_ne_nil
  have hcut := htext.symm.trans hlive.segments_eq
  rw [hx, List.map_cons, List.cons_append, ← List.append_assoc] at hcut
  rcases append_eq_append_cons hcut with ⟨w, hw, hrest⟩ | ⟨w, rfl, -⟩
  · rcases append_eq_append_cons hw with ⟨u, rfl, -⟩ | ⟨u, -, hl⟩
    · -- the header begins in front of the segments
      simp only [textOf_append, textOf_cons, size_append] at hfront
      have hpos := size_pos (x := [c]) (List.cons_ne_nil _ _)
      simp only [Segment.text] at hfront
      omega
    · -- the header begins in them, but none is read there
      have hnone := h u c w hl
      have hbehind := congrArg textOf hrest
      rw [textOf_append, textOf_append, textOf_map_plain, textOf_segments, textOf_segments]
        at hbehind
      have hread := Header.read?_eq_some_iff.mpr ⟨f, hlive.valid, rfl, rfl, hlive.ends⟩
      rw [hx, List.cons_append, hbehind, hnone] at hread
      cases hread
  · simp only [textOf_append, size_append]
    exact Nat.le_add_right _ _

end Headerless

/-! ### Mute texts -/

/-- The segments that are cut off from `y` have the characters in front of it. -/
theorem textOf_of_cut {x y : List Char} {l : List Segment}
    (h : segments (x ++ y) = l ++ segments y) : textOf l = x := by
  have htext := congrArg textOf h
  rw [textOf_segments, textOf_append, textOf_segments] at htext
  exact (List.append_cancel_right htext).symm

/-- Whether a text in front of `y` is quiet, and no header begins in it outside runs. -/
structure Mute (v : Vocabulary) (x y : List Char) : Prop where
  /-- It has no comment and no full stop. -/
  quiet : Quiet x y
  /-- It has no header. -/
  headerless : ∀ l, segments (x ++ y) = l ++ segments y → Headerless v l y

namespace Mute

variable {v : Vocabulary} {x x' y : List Char}

theorem append (h : Mute v x (x' ++ y)) (h' : Mute v x' y) : Mute v (x ++ x') y where
  quiet := h.quiet.append h'.quiet
  headerless := by
    intro l hl
    obtain ⟨l₁, h₁, -⟩ := h.quiet
    obtain ⟨l₂, h₂, -⟩ := h'.quiet
    obtain rfl : l = l₁ ++ l₂ := by
      rw [List.append_assoc, h₁, h₂, ← List.append_assoc] at hl
      exact (List.append_cancel_right hl).symm
    refine .append ?_ (h'.headerless l₂ h₂)
    rw [textOf_of_cut h₂]
    exact h.headerless l₁ h₁

/-- Characters that open no run, and no full stops, in a text that is passed over. -/
theorem of_plain (h : ∀ c ∈ x, c ∉ ['.', '#', '"', '<'])
    (hpass : Passes (Header.behindNames? v) readTypeAssertion? x y) : Mute v x y where
  quiet := .of_plain h y
  headerless := by
    intro l hl
    have hopen : ∀ c ∈ x, ∀ r, opening c r = none := by
      intro c hc r
      have hchar := h c hc
      simp only [List.mem_cons, not_or] at hchar
      exact opening_eq_none_iff.mpr ⟨hchar.2.1, hchar.2.2.1, fun hlt => absurd hlt hchar.2.2.2.1⟩
    rw [segments_append_of_opening hopen] at hl
    obtain rfl := List.append_cancel_right hl
    exact .of_passes hpass

/-- Characters that open no run, no full stops and no characters of names. -/
theorem of_not_isTermChar (h : ∀ c ∈ x, c ∉ ['.', '#', '"', '<'] ∧ isTermChar c = false)
    (y : List Char) : Mute v x y :=
  of_plain (fun c hc => (h c hc).1)
    (.of_not_isTermChar (Header.nameReader v) (fun c hc => (h c hc).2) y)

/-- Blanks and commas. -/
theorem of_separator (h : ∀ c ∈ x, isTokenSeparator c = true) (y : List Char) : Mute v x y := by
  refine of_not_isTermChar (fun c hc => ⟨notMem_of_all (by decide) (h c hc), ?_⟩) y
  rcases Bool.or_eq_true_iff.mp (h c hc) with hblank | hcomma
  · exact isTermChar_eq_false_of_isBlank hblank
  · rw [beq_iff_eq.mp hcomma]
    decide

theorem of_blank (h : ∀ c ∈ x, isBlank c = true) (y : List Char) : Mute v x y :=
  of_separator (fun c hc => by rw [isTokenSeparator, h c hc, Bool.true_or]) y

/-- A written text is mute, whatever its characters. -/
theorem writtenText {text : List Char} (hy : text = [] → y.head? ≠ some '"') :
    Mute v (writtenText text) y where
  quiet := .writtenText hy
  headerless := by
    intro l hl
    have hrun : [.inert .shortLiteral (Turtle.writtenText text)] ++ segments y = l ++ segments y :=
      (segments_writtenText hy).symm.trans hl
    obtain rfl := List.append_cancel_right hrun
    exact .inert v _ _ y

end Mute

/-! ### Blocks -/

/-- The block that a header behind `x` makes with `body`, its full stop included. -/
def HeaderForm.block (f : HeaderForm) (x body : List Char) : Block where
  qualifier := String.ofList f.header.qualifier
  identifier := String.ofList f.header.identifier
  text := f.text ++ body
  span := ⟨size x, size x + size (f.text ++ body)⟩
  termination := .terminated

section Block

variable {v : Vocabulary} {f : HeaderForm} {x body y : List Char}

/-- The first full stop behind a quiet text is the one that follows it. -/
theorem fullStop?_of_quiet (h : Quiet body ('.' :: y)) (hy : y.head?.all isAsciiBlank = true)
    (offset : Nat) : fullStop? offset (marksOf (segments (body ++ '.' :: y)))
      = some (offset + size body + 1) := by
  obtain ⟨l, hl, hquiet⟩ := h
  have hopen : opening '.' y = none := opening_eq_none_iff.mpr (by simp)
  have hmarks : ∀ m ∈ marksOf l, (m.char == '.' && !m.inert) = false := by
    intro m hm
    obtain ⟨ms, ms', hms⟩ := List.append_of_mem hm
    rw [← Bool.not_eq_true]
    intro hstop
    simp only [Bool.and_eq_true, beq_iff_eq, Bool.not_eq_true'] at hstop
    obtain ⟨c, b⟩ := m
    obtain ⟨rfl, rfl⟩ := hstop
    obtain ⟨l₁, l₂, rfl, -⟩ := exists_plain_of_marksOf hms
    exact (hquiet (.plain '.') (by simp)).2 rfl
  have hstop : isFullStop ⟨'.', false⟩ (marksOf (segments y)) = true := by
    rw [isFullStop, ← mark_eq_marksOf, startsBlank_mark, hy]
    rfl
  rw [hl, marksOf_append, fullStop?_append_of_forall hmarks, segments_plain hopen, marksOf_plain,
    fullStop?_of_isFullStop hstop, markSize, map_char_marksOf, textOf_of_cut hl]

/-- A header at the start of a text is an anchor. -/
theorem mem_liveAnchors_start (hf : f.Valid v) (hy : startsOutsideWord y = true) :
    ⟨f.header, 0, size f.text⟩ ∈ liveAnchors v (f.text ++ y) := by
  have hlive : LiveHeader v (f.text ++ y) [] f y :=
    ⟨f.segments_text_append hf y, hf, by simp, hy⟩
  have houtside := hlive.contains_inertRanges_start
  rw [textOf_nil, size_nil] at houtside
  refine List.mem_filter.mpr ⟨?_, by simp [houtside]⟩
  rw [anchors, anchorsFrom_header hf 0 hy, Nat.zero_add]
  exact List.mem_cons_self ..

/-- An anchor that stands where a header is written is that header. -/
theorem exists_liveHeader_of_mem (hf : f.Valid v)
    (ha : ⟨f.header, size x, size x + size f.text⟩ ∈ liveAnchors v (x ++ (f.text ++ y))) :
    ∃ s, textOf s = x ∧ LiveHeader v (x ++ (f.text ++ y)) s f y := by
  obtain ⟨s, f', rest, hlive, hanchor⟩ := exists_liveHeader ha
  obtain ⟨-, hstart, hstop⟩ : f.header = f'.header ∧ size x = size (textOf s)
      ∧ size x + size f.text = size (textOf s) + size f'.text := by
    simpa using hanchor
  obtain ⟨hfront, htext⟩ := append_inj_of_size hlive.text_eq hstart
  obtain ⟨hform, rfl⟩ := append_inj_of_size htext (by omega)
  exact ⟨s, hfront.symm, by rw [hlive.segments_eq, hform], hf, hlive.free, hlive.ends⟩

/-- The block of a header ends at the full stop behind a mute text, since no other header begins in
front of it. -/
theorem le_limitOf_of_mute {s : List Segment}
    (hlive : LiveHeader v (x ++ (f.text ++ (body ++ '.' :: y))) s f (body ++ '.' :: y))
    (hs : textOf s = x) (hbody : Mute v body ('.' :: y)) {before behind : List Anchor}
    (hanchors : liveAnchors v (x ++ (f.text ++ (body ++ '.' :: y)))
      = before ++ ⟨f.header, size x, size x + size f.text⟩ :: behind) :
    size x + size f.text + size body + 1
      ≤ limitOf (size (x ++ (f.text ++ (body ++ '.' :: y)))) behind := by
  obtain ⟨l, hl, -⟩ := hbody.quiet
  have hopen : opening '.' y = none := opening_eq_none_iff.mpr (by simp)
  have hsize : size ('.' :: y) = 1 + size y := rfl
  cases behind with
  | nil =>
    rw [limitOf, size_append, size_append, size_append, hsize]
    omega
  | cons b behind =>
    have hb : b ∈ liveAnchors v (x ++ (f.text ++ (body ++ '.' :: y))) := hanchors ▸ by simp
    have hfront : size (textOf (s ++ f.text.map .plain)) ≤ b.span.start := by
      rw [textOf_append, textOf_map_plain, size_append, hs]
      exact (liveAnchors_order hanchors).2 b (List.mem_cons_self ..)
    have hstop : Headerless v (l ++ [.plain '.']) y := by
      refine .append (hbody.headerless l hl) (.of_passes (x := ['.']) (.of_not_isTermChar
        (Header.nameReader v) (List.forall_mem_singleton.mpr (by decide)) y))
    have hsegments : segments (x ++ (f.text ++ (body ++ '.' :: y)))
        = (s ++ f.text.map .plain) ++ ((l ++ [.plain '.']) ++ segments y) := by
      rw [hlive.segments_eq, hl, segments_plain hopen]
      simp
    have hle := hstop.le_start hsegments hb hfront
    rw [textOf_append, textOf_map_plain, textOf_append, size_append, size_append, hs,
      textOf_of_cut hl] at hle
    exact hle

/-- **A header, a mute text and a full stop make a block**, if a blank or the end of the text is
behind the full stop. -/
theorem HeaderForm.block_mem_blocks (hf : f.Valid v) (hbody : Mute v body ('.' :: y))
    (hy : y.head?.all isAsciiBlank = true)
    (ha : ⟨f.header, size x, size x + size f.text⟩
      ∈ liveAnchors v (x ++ (f.text ++ (body ++ '.' :: y)))) :
    f.block x (body ++ ['.']) ∈ blocks v (x ++ (f.text ++ (body ++ '.' :: y))) := by
  obtain ⟨s, hs, hlive⟩ := exists_liveHeader_of_mem hf ha
  obtain ⟨before, behind, hanchors⟩ := List.append_of_mem ha
  have hlimit := le_limitOf_of_mute hlive hs hbody hanchors
  have hstop := hlive.fullStop?_mark
  rw [fullStop?_of_quiet hbody.quiet hy, hs] at hstop
  have hend : size x + size f.text + size body + 1 = size x + size (f.text ++ (body ++ ['.'])) := by
    rw [size_append, size_append, ← Nat.add_assoc, ← Nat.add_assoc]
    rfl
  rw [hend] at hlimit hstop
  have htext : takeBytes (size (f.text ++ (body ++ ['.'])))
      (dropBytes (size x) (x ++ (f.text ++ (body ++ '.' :: y)))) = f.text ++ (body ++ ['.']) := by
    have hsplit : f.text ++ (body ++ '.' :: y) = (f.text ++ (body ++ ['.'])) ++ y := by simp
    rw [dropBytes_size_append, hsplit, takeBytes_size_append]
  have htrim : trimEnd (f.text ++ (body ++ ['.'])) = f.text ++ (body ++ ['.']) := by
    rw [← List.append_assoc]
    exact trimEnd_concat (by decide) _
  refine mem_blocksAt_iff.mpr ⟨before, _, behind, hanchors, ?_⟩
  rw [blockAt_eq, hstop, blockEnd_of_le hlimit]
  simp only [Nat.add_sub_cancel_left, htext, htrim]
  rfl

/-- A block of a quiet text has no comment to blank out. -/
theorem HeaderForm.maskComments_of_quiet (hf : f.Valid v) (hbody : Quiet body ['.']) :
    maskComments (f.text ++ (body ++ ['.'])) = f.text ++ (body ++ ['.']) := by
  obtain ⟨l, hl, hquiet⟩ := hbody
  have hstop : segments ['.'] = [.plain '.'] := by
    rw [segments_plain (opening_eq_none_iff.mpr (by simp)), segments_nil]
  apply maskComments_of_not_hasComment
  rw [hasComment, f.segments_text_append hf, hl, hstop, List.any_eq_false]
  intro s hs
  simp only [List.mem_append, List.mem_map, List.mem_singleton] at hs
  rcases hs with ⟨c, -, rfl⟩ | hs | rfl
  · simp [Segment.isComment]
  · simp [hquiet s hs]
  · simp [Segment.isComment]

end Block

end FormOntology
