import FormOntology.Proofs.Text.Bytes
import FormOntology.Proofs.Turtle.Marks
import FormOntology.Proofs.Turtle.Masking

/-!
# Comments are blanked out byte by byte

Comments can be masked in the bytes of a text: the runs that begin with the byte `#` are filled
with spaces, and what is left is taken for a text again if it is one.  It always is, as a comment
begins and ends between two characters, and it is the masked text.

## Main definitions

* `beginsComment`, `commentRanges` — the runs that begin with the byte `#`.
* `blankFrom` — bytes with spaces at spans.
* `Masked`, `maskBytes` — the text that is left, as it was or as a new one.

## Main results

* `encode_maskComments` — **the masked text is what is left of the bytes.**
* `getElem?_maskComments_outside`, `getElem?_maskComments_inside` — its bytes, one by one.
* `inertRanges_maskComments` — its runs are those of the text, without the comments.
* `maskComments_faithful` — **masking blanks out the comments of a text and nothing else, and it
  does so once.**
-/

namespace FormOntology.Turtle

open Text

/-! ### Comments among the runs -/

/-- Whether the first byte of a span is a `#`. -/
def beginsComment (text : List Char) (s : Span) : Bool := (encode text)[s.start]? == some 35

/-- The spans of the comments of a text, in order. -/
def commentRanges (text : List Char) : List Span := (inertRanges text).filter (beginsComment text)

/-- The spans of the runs of some kinds, when the first segment begins at `offset`. -/
def rangesOf (p : Inert → Bool) (offset : Nat) : List Segment → List Span
  | [] => []
  | .plain c :: r => rangesOf p (offset + c.utf8Size) r
  | .inert k t :: r =>
    if p k then ⟨offset, offset + size t⟩ :: rangesOf p (offset + size t) r
    else rangesOf p (offset + size t) r

/-- How a run begins: a comment with `#`, the others with another byte; a comment is on one line. -/
structure Opens (k : Inert) (t : List Char) : Prop where
  /-- The first byte is that of the kind. -/
  head : ∃ b r, encode t = b :: r ∧ (b = 35 ↔ k = .comment)
  /-- A comment has no line feed. -/
  line : k = .comment → '\n' ∉ t

/-- A comment ends in front of the next line feed. -/
theorem notMem_take_commentTail (r : List Char) : '\n' ∉ r.take (commentTail r) := by
  have htake : r.take (commentTail r) = r.takeWhile (· ≠ '\n') :=
    List.prefix_iff_eq_take.mp (List.takeWhile_prefix _) |>.symm
  rw [htake]
  intro hmem
  simpa using List.all_eq_true.mp List.all_takeWhile _ hmem

/-- Every run of a text opens as its kind does. -/
theorem opens_of_mem_segments {text : List Char} {k : Inert} {t : List Char}
    (h : .inert k t ∈ segments text) : Opens k t := by
  fun_induction segments text with
  | case1 => simp at h
  | case2 c r ho ih =>
    rcases List.mem_cons.mp h with h | h
    · cases h
    · exact ih h
  | case3 c r k' n ho ih =>
    rcases List.mem_cons.mp h with h | h
    · obtain ⟨rfl, rfl⟩ := Segment.inert.inj h
      rcases opening_eq_some ho with ⟨rfl, rfl, rfl⟩ | ⟨rfl, -, rfl, -⟩ | ⟨rfl, -, rfl, -⟩
        | ⟨rfl, rfl, -⟩
      · refine ⟨⟨35, _, rfl, by simp⟩, fun _ => ?_⟩
        exact List.not_mem_cons_of_ne_of_not_mem (by decide) (notMem_take_commentTail r)
      · exact ⟨⟨34, _, rfl, by decide⟩, by simp⟩
      · exact ⟨⟨34, _, rfl, by decide⟩, by simp⟩
      · exact ⟨⟨60, _, rfl, by decide⟩, by simp⟩
    · exact ih h

/-! ### Spans of comments -/

theorem rangesOf_sublist (p : Inert → Bool) (offset : Nat) (l : List Segment) :
    List.Sublist (rangesOf p offset l) (rangesFrom offset l) := by
  induction l generalizing offset with
  | nil => exact .slnil
  | cons s l ih =>
    cases s with
    | plain c => exact ih _
    | inert k t =>
      rw [rangesOf, rangesFrom]
      split
      · exact (ih _).cons_cons _
      · exact (ih _).cons _

/-- Whether a run is a comment is told by its first byte. -/
theorem beginsComment_run {x y t : List Char} {k : Inert} (h : Opens k t) :
    beginsComment (x ++ (t ++ y)) ⟨size x, size x + size t⟩ = (k == .comment) := by
  obtain ⟨b, r, ht, hb⟩ := h.head
  have hget : (encode (x ++ (t ++ y)))[size x]? = some b := by
    rw [encode_append, encode_append, ht, List.getElem?_append_right (by simp)]
    simp
  rw [beginsComment, hget, Bool.eq_iff_iff]
  simp [hb]

/-- The runs that begin with the byte `#` are the comments. -/
theorem filter_rangesFrom (f : Bool → Bool) {l : List Segment} (x : List Char)
    (h : ∀ k t, .inert k t ∈ l → Opens k t) :
    (rangesFrom (size x) l).filter (fun s => f (beginsComment (x ++ textOf l) s))
      = rangesOf (fun k => f (k == .comment)) (size x) l := by
  induction l generalizing x with
  | nil => rfl
  | cons s l ih =>
    have hl : ∀ k t, .inert k t ∈ l → Opens k t := fun k t hk => h k t (List.mem_cons_of_mem _ hk)
    cases s with
    | plain c =>
      have hrest := ih (x ++ [c]) hl
      rw [size_append, size_cons, size_nil, Nat.add_zero, List.append_assoc] at hrest
      exact hrest
    | inert k t =>
      have hrest := ih (x ++ t) hl
      have hrun := beginsComment_run (x := x) (y := textOf l) (h k t (List.mem_cons_self ..))
      rw [size_append, List.append_assoc] at hrest
      rw [rangesFrom, rangesOf, textOf_cons, Segment.text_inert, List.filter_cons, hrest, hrun]

theorem commentRanges_eq (text : List Char) :
    commentRanges text = rangesOf (· == .comment) 0 (segments text) := by
  have h := filter_rangesFrom id (l := segments text) [] fun _ _ => opens_of_mem_segments
  rw [List.nil_append, textOf_segments] at h
  exact h

/-- Plain characters have no spans. -/
theorem rangesFrom_map_plain (offset : Nat) (x : List Char) :
    rangesFrom offset (x.map .plain) = [] := by
  induction x generalizing offset with
  | nil => rfl
  | cons c x ih => exact ih _

/-- A comment leaves plain blanks of its size, so the other runs stay where they are. -/
theorem rangesFrom_flatMap_blanked (offset : Nat) (l : List Segment) :
    rangesFrom offset (l.flatMap Segment.blanked)
      = rangesOf (fun k => !(k == .comment)) offset l := by
  induction l generalizing offset with
  | nil => rfl
  | cons s l ih =>
    rw [List.flatMap_cons, rangesFrom_append, ih, textOf_blanked, Segment.size_masked]
    cases s with
    | plain c => rfl
    | inert k t =>
      cases k with
      | comment =>
        rw [Segment.blanked, rangesFrom_map_plain]
        rfl
      | _ => rfl

/-- **The runs of a masked text are those of the text, without the comments.** -/
theorem inertRanges_maskComments (text : List Char) :
    inertRanges (maskComments text) = (inertRanges text).filter (!beginsComment text ·) := by
  have h := filter_rangesFrom not (l := segments text) [] fun _ _ => opens_of_mem_segments
  rw [List.nil_append, textOf_segments] at h
  rw [inertRanges, segments_maskComments, rangesFrom_flatMap_blanked]
  exact h.symm

/-- Segments have a comment exactly if there is a span of one. -/
theorem any_isComment (offset : Nat) (l : List Segment) :
    l.any Segment.isComment = !(rangesOf (· == .comment) offset l).isEmpty := by
  induction l generalizing offset with
  | nil => rfl
  | cons s l ih =>
    cases s with
    | plain c => exact ih _
    | inert k t => cases k with
      | comment => rfl
      | _ => exact ih _

/-- There is a comment to blank out exactly if a run begins with the byte `#`. -/
theorem hasComment_eq (text : List Char) : hasComment text = !(commentRanges text).isEmpty := by
  rw [commentRanges_eq]
  exact any_isComment 0 _

/-! ### Filling bytes -/

/-- The bytes from an offset on, with spaces at spans. -/
def blankFrom (spans : List Span) : Nat → List UInt8 → List UInt8
  | _, [] => []
  | i, b :: r => (if spans.any (·.Contains i) then 32 else b) :: blankFrom spans (i + 1) r

theorem getElem?_blankFrom (spans : List Span) (offset : Nat) (bytes : List UInt8) (i : Nat) :
    (blankFrom spans offset bytes)[i]?
      = bytes[i]?.map fun b => if spans.any (·.Contains (offset + i)) then 32 else b := by
  induction bytes generalizing offset i with
  | nil => rfl
  | cons b r ih =>
    cases i with
    | zero => rfl
    | succ i =>
      rw [blankFrom, List.getElem?_cons_succ, List.getElem?_cons_succ, ih, Nat.add_assoc,
        Nat.add_comm 1 i]

theorem blankFrom_append (spans : List Span) (offset : Nat) (x y : List UInt8) :
    blankFrom spans offset (x ++ y)
      = blankFrom spans offset x ++ blankFrom spans (offset + x.length) y := by
  induction x generalizing offset with
  | nil => rfl
  | cons b x ih =>
    rw [List.cons_append, blankFrom, blankFrom, ih, List.length_cons, List.cons_append,
      Nat.add_assoc, Nat.add_comm 1 x.length]

/-- Spans that end in front of the bytes or begin behind them change nothing. -/
theorem blankFrom_cons_of_le {s : Span} {offset : Nat} (h : s.stop ≤ offset) (spans : List Span)
    (bytes : List UInt8) : blankFrom (s :: spans) offset bytes = blankFrom spans offset bytes := by
  induction bytes generalizing offset with
  | nil => rfl
  | cons b r ih =>
    have hnot : ¬s.Contains offset := fun hs => Nat.not_lt_of_le h hs.2
    rw [blankFrom, blankFrom, ih (by omega), List.any_cons, decide_eq_false hnot, Bool.false_or]

theorem blankFrom_of_le {spans : List Span} {offset : Nat} {bytes : List UInt8}
    (h : ∀ s ∈ spans, offset + bytes.length ≤ s.start) : blankFrom spans offset bytes = bytes := by
  induction bytes generalizing offset with
  | nil => rfl
  | cons b r ih =>
    have hnone : spans.any (·.Contains offset) = false := by
      rw [List.any_eq_false]
      intro s hs hin
      have hstart := h s hs
      rw [List.length_cons] at hstart
      have hle : s.start ≤ offset := (of_decide_eq_true hin).1
      omega
    have hrest : ∀ s ∈ spans, offset + 1 + r.length ≤ s.start := by
      intro s hs
      have hstart := h s hs
      rw [List.length_cons] at hstart
      omega
    rw [blankFrom, hnone, ih hrest]
    rfl

/-- Bytes inside a span become spaces. -/
theorem blankFrom_of_contains {s : Span} {spans : List Span} (hs : s ∈ spans) {offset : Nat}
    {bytes : List UInt8} (hstart : s.start ≤ offset) (hstop : offset + bytes.length ≤ s.stop) :
    blankFrom spans offset bytes = List.replicate bytes.length 32 := by
  induction bytes generalizing offset with
  | nil => rfl
  | cons b r ih =>
    rw [List.length_cons] at hstop
    have hany : spans.any (·.Contains offset) = true :=
      List.any_eq_true.mpr ⟨s, hs, decide_eq_true ⟨hstart, by omega⟩⟩
    rw [blankFrom, hany, ih (by omega) (by omega), List.length_cons, List.replicate_succ]
    rfl

/-! ### The masked text -/

/-- The spans of a list of segments begin behind its offset. -/
theorem le_of_mem_rangesOf {p : Inert → Bool} {offset : Nat} {l : List Segment} {s : Span}
    (h : s ∈ rangesOf p offset l) : offset ≤ s.start :=
  (le_of_mem_rangesFrom ((rangesOf_sublist p offset l).subset h)).1

/-- The comments of a list of segments are blanked out one by one. -/
theorem encode_maskedText (offset : Nat) (l : List Segment) : encode (maskedText l)
    = blankFrom (rangesOf (· == .comment) offset l) offset (encode (textOf l)) := by
  induction l generalizing offset with
  | nil => rfl
  | cons s l ih =>
    have hkept : ∀ t, blankFrom (rangesOf (· == .comment) (offset + size t) l) offset (encode t)
        = encode t := fun t => blankFrom_of_le fun s hs => by
      rw [length_encode]
      exact le_of_mem_rangesOf hs
    have hplain : ∀ t, encode (t ++ maskedText l)
        = blankFrom (rangesOf (· == .comment) (offset + size t) l) offset
          (encode (t ++ textOf l)) := by
      intro t
      rw [encode_append, encode_append, blankFrom_append, hkept, length_encode, ← ih]
    cases s with
    | plain c => exact hplain [c]
    | inert k t =>
      cases k with
      | comment =>
        have hranges : rangesOf (· == .comment) offset (.inert .comment t :: l)
            = ⟨offset, offset + size t⟩ :: rangesOf (· == .comment) (offset + size t) l := rfl
        have hblank : blankFrom (rangesOf (· == .comment) offset (.inert .comment t :: l)) offset
            (encode t) = List.replicate (size t) 32 := by
          rw [hranges, blankFrom_of_contains (List.mem_cons_self ..) (Nat.le_refl _) (by simp),
            length_encode]
        rw [textOf_cons, maskedText_cons, Segment.text_inert, Segment.masked, encode_append,
          encode_append, blankFrom_append, hblank, length_encode, hranges,
          blankFrom_cons_of_le (Nat.le_refl _), ← ih, encode_replicate_space]
      | _ => exact hplain t

/-- **The masked text is what is left of the bytes** when every comment is filled with spaces. -/
theorem encode_maskComments (text : List Char) :
    encode (maskComments text) = blankFrom (commentRanges text) 0 (encode text) := by
  have h := encode_maskedText 0 (segments text)
  rw [textOf_segments] at h
  rw [maskComments_eq_maskedText, commentRanges_eq]
  exact h

/-- A comment is a run of the text. -/
theorem exists_of_mem_commentRanges {text : List Char} {s : Span} (h : s ∈ commentRanges text) :
    ∃ x t y, text = x ++ (t ++ y) ∧ '\n' ∉ t ∧ s = ⟨size x, size x + size t⟩ := by
  obtain ⟨hrun, hcomment⟩ := List.mem_filter.mp h
  obtain ⟨s₁, k, t, s₂, hsegments, hs⟩ := exists_of_mem_rangesFrom hrun
  rw [Nat.zero_add] at hs
  have htext : text = textOf s₁ ++ (t ++ textOf s₂) := by
    rw [← textOf_segments text, hsegments, textOf_append]
    rfl
  have hopens : Opens k t := opens_of_mem_segments (by rw [hsegments]; simp)
  rw [htext, hs, beginsComment_run hopens, beq_iff_eq] at hcomment
  exact ⟨_, t, _, htext, hopens.line hcomment, hs⟩

/-- There is no line feed in a comment. -/
theorem getElem?_ne_lineFeed {text : List Char} {s : Span} (h : s ∈ commentRanges text) {i : Nat}
    (hi : s.Contains i) : (encode text)[i]? ≠ some 10 := by
  obtain ⟨x, t, y, rfl, hline, rfl⟩ := exists_of_mem_commentRanges h
  obtain ⟨hstart, hstop⟩ := hi
  simp only at hstart hstop
  intro hten
  rw [encode_append, encode_append, List.getElem?_append_right (by simpa using hstart),
    List.getElem?_append_left (by simp; omega)] at hten
  exact hline (mem_of_mem_encode (List.mem_of_getElem? hten))

/-- A byte of the masked text is that of the text, or a space in a comment. -/
theorem getElem?_maskComments (text : List Char) (i : Nat) : (encode (maskComments text))[i]?
    = (encode text)[i]?.map fun b =>
      if (commentRanges text).any (·.Contains i) then 32 else b := by
  rw [encode_maskComments, getElem?_blankFrom, Nat.zero_add]

/-- Outside the comments the bytes are kept. -/
theorem getElem?_maskComments_outside {text : List Char} {i : Nat}
    (hi : ∀ s ∈ commentRanges text, ¬s.Contains i) :
    (encode (maskComments text))[i]? = (encode text)[i]? := by
  have hnone : (commentRanges text).any (·.Contains i) = false := by
    simpa using hi
  rw [getElem?_maskComments, hnone]
  simp

/-- The bytes of a comment are spaces. -/
theorem getElem?_maskComments_inside {text : List Char} {s : Span} (hs : s ∈ commentRanges text)
    {i : Nat} (hi : s.Contains i) : (encode (maskComments text))[i]? = some 32 := by
  have hany : (commentRanges text).any (·.Contains i) = true :=
    List.any_eq_true.mpr ⟨s, hs, decide_eq_true hi⟩
  -- a comment ends within the text
  obtain ⟨x, t, y, htext, -, rfl⟩ := exists_of_mem_commentRanges hs
  have hlt : i < (encode text).length := by
    have hstop := hi.2
    simp only at hstop
    rw [htext, length_encode, size_append, size_append]
    omega
  rw [getElem?_maskComments, hany, List.getElem?_eq_getElem hlt]
  rfl

/-- A text as it was, or a new one. -/
inductive Masked where
  /-- The text as it was. -/
  | borrowed
  /-- A new text. -/
  | owned (text : List Char)
  deriving DecidableEq, Repr

/-- The text that is left when comments are blanked out of its bytes: the text as it was if it has
no comment, or if what is left is no UTF-8. -/
def maskBytes (text : List Char) : Masked :=
  if (commentRanges text).isEmpty then .borrowed
  else
    match String.fromUTF8? (blankFrom (commentRanges text) 0 (encode text)).toByteArray with
    | some s => .owned s.toList
    | none => .borrowed

/-- What is left is a text, and a new one if there is a comment. -/
theorem maskBytes_eq (text : List Char) :
    maskBytes text = if hasComment text then .owned (maskComments text) else .borrowed := by
  rw [maskBytes, hasComment_eq, ← encode_maskComments, fromUTF8?_encode]
  cases (commentRanges text).isEmpty with
  | true => rfl
  | false => exact congrArg Masked.owned String.toList_ofList

/-- **Masking blanks out the comments of a text and nothing else.**  It keeps the number of bytes,
every byte outside the comments and the places of the line feeds; the bytes of comments are spaces.
What is left is always UTF-8.  Its runs are those of the text without the comments, so masking twice
is masking once, and the text stays as it was exactly if it has no comment. -/
theorem maskComments_faithful (text : List Char) :
    (encode (maskComments text)).length = (encode text).length
      ∧ (∀ i : Nat, (∀ s ∈ commentRanges text, ¬s.Contains i) →
        (encode (maskComments text))[i]? = (encode text)[i]?)
      ∧ (∀ s ∈ commentRanges text, ∀ i, s.Contains i → (encode (maskComments text))[i]? = some 32)
      ∧ (∀ i : Nat, (encode (maskComments text))[i]? = some 10 ↔ (encode text)[i]? = some 10)
      ∧ String.fromUTF8? (blankFrom (commentRanges text) 0 (encode text)).toByteArray
        = some (String.ofList (maskComments text))
      ∧ inertRanges (maskComments text) = (inertRanges text).filter (!beginsComment text ·)
      ∧ maskComments (maskComments text) = maskComments text
      ∧ maskBytes text
        = if commentRanges text = [] then .borrowed else .owned (maskComments text) := by
  refine ⟨by simp [size_maskComments], fun _ hi => getElem?_maskComments_outside hi,
    fun _ hs _ hi => getElem?_maskComments_inside hs hi, ?lineFeeds, ?utf8,
    inertRanges_maskComments text, maskComments_maskComments text, ?same⟩
  case lineFeeds =>
    intro i
    by_cases hi : ∃ s ∈ commentRanges text, s.Contains i
    · obtain ⟨s, hs, hin⟩ := hi
      rw [getElem?_maskComments_inside hs hin]
      exact iff_of_false (by decide) (getElem?_ne_lineFeed hs hin)
    · rw [getElem?_maskComments_outside fun s hs hin => hi ⟨s, hs, hin⟩]
  case utf8 => rw [← encode_maskComments, fromUTF8?_encode]
  case same =>
    rw [maskBytes_eq, hasComment_eq]
    cases commentRanges text <;> rfl

/-- A `#` in an IRI opens no comment, and a `<` that opens no IRI does not hide one. -/
example : maskComments "<a#b> <c #é>".toList = "<a#b> <c     ".toList := by decide +kernel

end FormOntology.Turtle
