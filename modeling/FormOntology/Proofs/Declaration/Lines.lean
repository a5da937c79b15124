import FormOntology.Proofs.Declaration.Spans

/-!
# Short literals and lines

A short literal that is not closed ends with its line.  In its body a backslash hides the character
behind it, and a line feed is no exception: where a line ends in a backslash that is not hidden
itself, the literal goes on behind it.

## Main definitions

* `hidesNext` — whether a text ends in an odd number of backslashes.
* `GoesOn` — whether a short literal goes on behind the end of its line.

## Main results

* `mem_take_shortTail_iff` — a short literal has a line feed exactly if it goes on.
* `eq_of_mem_inertRanges` — a span that begins at a quote is that of the literal there.
* `shortLiteral_lines` — **which lines a short literal reaches.**
-/

namespace FormOntology.Turtle

open Text

/-! ### Hidden characters -/

/-- Whether a text ends in an odd number of backslashes, so that the last of them is not hidden by
another one. -/
def hidesNext (text : List Char) : Bool := (text.reverse.takeWhile (· == '\\')).length % 2 == 1

@[simp] theorem hidesNext_nil : hidesNext [] = false := rfl

@[simp] theorem hidesNext_backslash : hidesNext ['\\'] = true := rfl

/-- The backslashes at the end of a text do not depend on what is in front of another character. -/
theorem hidesNext_cons {c : Char} (h : c ≠ '\\') (text : List Char) :
    hidesNext (c :: text) = hidesNext text := by
  rw [hidesNext, List.reverse_cons, List.takeWhile_append]
  split
  · next hall =>
    rw [List.takeWhile_cons_of_neg (by simpa using h), List.append_nil, hidesNext,
      List.length_reverse, hall, List.length_reverse]
  · rfl

/-- A backslash and the character that it hides do not count. -/
@[simp] theorem hidesNext_escape (d : Char) (text : List Char) :
    hidesNext ('\\' :: d :: text) = hidesNext text := by
  rw [hidesNext, List.reverse_cons, List.reverse_cons, List.append_assoc, List.takeWhile_append]
  split
  · next hall =>
    rw [List.length_append, hidesNext, hall]
    by_cases hd : d = '\\' <;> simp [hd]
  · rfl

/-! ### The end of a short literal -/

/-- In a short literal a line feed is hidden, and so is every quote but the closing one. -/
theorem of_take_shortTail {r u w : List Char} {d : Char} (h : r.take (shortTail r) = u ++ d :: w)
    (hu : hidesNext u = false) : d ≠ '\n' ∧ (d = '"' → w = []) := by
  -- along the steps of the scan: one character, or a backslash with the one behind it
  fun_induction shortTail r generalizing u with
  | case1 => simp at h
  | case2 | case4 =>
    rw [List.take_succ_cons, List.take_zero, List.singleton_eq_append_iff] at h
    rcases h with ⟨rfl, h⟩ | ⟨-, h⟩
    · obtain ⟨rfl, rfl⟩ := List.cons.inj h
      exact ⟨by decide, fun _ => rfl⟩
    · cases h
  | case3 r => simp at h
  | case5 e r _ _ ih =>
    rw [List.take_succ_cons, List.take_succ_cons] at h
    rcases u with - | ⟨b, - | ⟨b', u⟩⟩
    · obtain ⟨rfl, -⟩ := List.cons.inj h
      exact ⟨by decide, fun hd => absurd hd (by decide)⟩
    · obtain ⟨rfl, -⟩ := List.cons.inj h
      simp at hu
    · simp only [List.cons_append, List.cons.injEq] at h
      obtain ⟨rfl, rfl, h⟩ := h
      exact ih h (by simpa using hu)
  | case6 c r hq hn hb ih =>
    rw [List.take_succ_cons] at h
    cases u with
    | nil =>
      obtain ⟨rfl, -⟩ := List.cons.inj h
      exact ⟨hn, fun hd => absurd hd hq⟩
    | cons b u =>
      rw [List.cons_append, List.cons.injEq] at h
      obtain ⟨rfl, h⟩ := h
      exact ih h (by rwa [hidesNext_cons hb] at hu)

/-- A short literal ends with a quote that is not hidden, in front of a line feed that is not
hidden, or with the text. -/
theorem take_shortTail_ends (r : List Char) :
    (∃ u, r.take (shortTail r) = u ++ ['"'] ∧ hidesNext u = false)
      ∨ (hidesNext (r.take (shortTail r)) = false
        ∧ (r.drop (shortTail r)).head? = some '\n')
      ∨ r.drop (shortTail r) = [] := by
  fun_induction shortTail r with
  | case1 => exact .inr (.inr rfl)
  | case2 r => exact .inl ⟨[], rfl, rfl⟩
  | case3 r => exact .inr (.inl ⟨rfl, rfl⟩)
  | case4 => exact .inr (.inr rfl)
  | case5 d r _ _ ih =>
    rw [List.take_succ_cons, List.take_succ_cons, List.drop_succ_cons, List.drop_succ_cons]
    rcases ih with ⟨u, h, hu⟩ | ⟨h, hline⟩ | h
    · exact .inl ⟨'\\' :: d :: u, by rw [h]; rfl, by rwa [hidesNext_escape]⟩
    · exact .inr (.inl ⟨by rwa [hidesNext_escape], hline⟩)
    · exact .inr (.inr h)
  | case6 c r hq hn hb ih =>
    rw [List.take_succ_cons, List.drop_succ_cons]
    rcases ih with ⟨u, h, hu⟩ | ⟨h, hline⟩ | h
    · exact .inl ⟨c :: u, by rw [h]; rfl, by rwa [hidesNext_cons hb]⟩
    · exact .inr (.inl ⟨by rwa [hidesNext_cons hb], hline⟩)
    · exact .inr (.inr h)

/-! ### Literals that go on -/

/-- Whether a short literal, told by what stands behind its opening quote, goes on behind the end of
its line: no quote closes it there, and the line ends in a backslash that is not hidden. -/
def GoesOn (r : List Char) : Prop :=
  ∃ line rest, r = line ++ '\n' :: rest ∧ '\n' ∉ line ∧ hidesNext line = true
    ∧ ∀ u w, line = u ++ '"' :: w → hidesNext u = true

/-- **A short literal has a line feed exactly if it goes on behind the end of its line.** -/
theorem mem_take_shortTail_iff (r : List Char) : '\n' ∈ r.take (shortTail r) ↔ GoesOn r := by
  constructor
  · intro h
    obtain ⟨line, w, hbody, hline⟩ := List.eq_append_cons_of_mem h
    refine ⟨line, w ++ r.drop (shortTail r), ?_, hline, ?_, ?_⟩
    · rw [← List.cons_append, ← List.append_assoc, ← hbody, List.take_append_drop]
    · by_contra hopen
      exact (of_take_shortTail hbody (by simpa using hopen)).1 rfl
    · intro u t ht
      by_contra hopen
      rw [ht, List.append_assoc, List.cons_append] at hbody
      have := (of_take_shortTail hbody (by simpa using hopen)).2 rfl
      simp at this
  · rintro ⟨line, rest, hr, hline, hhidden, hquotes⟩
    have hcut : r.take (shortTail r) ++ r.drop (shortTail r) = line ++ '\n' :: rest := by
      rw [List.take_append_drop, hr]
    -- nothing in the line ends the literal
    have hlong : ∀ t, line = r.take (shortTail r) ++ t →
        r.drop (shortTail r) ≠ t ++ '\n' :: rest := by
      intro t hfront hback
      rcases take_shortTail_ends r with ⟨u, hu, hopen⟩ | ⟨hopen, hhead⟩ | hend
      · have := hquotes u t (by rw [hfront, hu, List.append_assoc]; rfl)
        simp [hopen] at this
      · cases t with
        | nil => simp [hfront, hopen] at hhidden
        | cons d t =>
          rw [hback, List.cons_append, List.head?_cons, Option.some.injEq] at hhead
          exact hline (by simp [hfront, hhead])
      · simp [hend] at hback
    rcases List.append_eq_append_iff.mp hcut with ⟨t, hfront, hback⟩ | ⟨t, hfront, hback⟩
    · exact absurd hback (hlong t hfront)
    · cases t with
      | nil => exact absurd hback.symm (hlong [] (by simpa using hfront.symm))
      | cons d t =>
        obtain ⟨rfl, -⟩ := List.cons.inj hback
        simp [hfront]

/-! ### Spans -/

/-- **A span that begins at a quote is that of the literal there.** -/
theorem eq_of_mem_inertRanges {x r : List Char} (hshort : ¬startsTriple ('"' :: r) = true)
    {stop : Nat} (h : ⟨size x, stop⟩ ∈ inertRanges (x ++ '"' :: r)) :
    stop = size (x ++ '"' :: r.take (shortTail r)) := by
  obtain ⟨s₁, k, t, s₂, hs, hspan⟩ := exists_of_mem_rangesFrom h
  rw [Nat.zero_add, Span.mk.injEq] at hspan
  obtain ⟨hstart, rfl⟩ := hspan
  have htext : x ++ '"' :: r = textOf s₁ ++ textOf (.inert k t :: s₂) := by
    rw [← textOf_append, ← hs, textOf_segments]
  obtain ⟨rfl, -⟩ := append_inj_of_size htext hstart
  have hrun := (segments_of_append hs rfl).2
  rw [segments_inert (opening_quote hshort), List.cons.injEq, Segment.inert.injEq] at hrun
  rw [← hrun.1.2, size_append]

end FormOntology.Turtle

namespace FormOntology

open Text Turtle

/-! ### What a short literal hides -/

section ShortLiteral

variable {x r : List Char} (hshort : ¬startsTriple ('"' :: r) = true) {stop : Nat}
  (hspan : ⟨size x, stop⟩ ∈ inertRanges (x ++ '"' :: r))
include hshort hspan

/-- **Which lines a short literal reaches.**  A short literal reaches over the end of its line
exactly if the line has no quote to close it and ends in a backslash that is not hidden.  Every line
feed in it stands behind such a backslash, so a place in it, be it that of a header or of a full
stop, is on the line of its opening quote or behind such a line feed. -/
theorem shortLiteral_lines :
    ∃ body y, r = body ++ y ∧ stop = size (x ++ '"' :: body)
      ∧ ('\n' ∈ body ↔ GoesOn r)
      ∧ (∀ u w, body = u ++ '\n' :: w → hidesNext u = true)
      ∧ ∀ p q, x ++ '"' :: r = p ++ q → Span.Contains ⟨size x, stop⟩ (size p) →
        lineFeeds p = lineFeeds x
          ∨ ∃ u w, p = x ++ '"' :: (u ++ '\n' :: w) ∧ hidesNext u = true := by
  have hhidden : ∀ u w, r.take (shortTail r) = u ++ '\n' :: w → hidesNext u = true := by
    intro u w h
    by_contra hopen
    exact (of_take_shortTail h (by simpa using hopen)).1 rfl
  refine ⟨r.take (shortTail r), r.drop (shortTail r), (List.take_append_drop ..).symm,
    eq_of_mem_inertRanges hshort hspan, mem_take_shortTail_iff r, hhidden, ?_⟩
  intro p q htext hin
  obtain ⟨b, rfl, hb⟩ := exists_append_of_size_le htext.symm hin.1
  rw [lineFeeds_append]
  rcases b with - | ⟨d, b⟩
  · exact .inl rfl
  · obtain ⟨rfl, hr⟩ := List.cons.inj hb
    by_cases hline : '\n' ∈ b
    · -- what is in front of the place is a part of the literal
      obtain ⟨w, hbody, -⟩ :
          ∃ w, r.take (shortTail r) = b ++ w ∧ q = w ++ r.drop (shortTail r) := by
        have hlt := hin.2
        simp only [eq_of_mem_inertRanges hshort hspan, size_append, size_cons] at hlt
        exact exists_append_of_size_le ((List.take_append_drop ..).trans hr) (by omega)
      obtain ⟨u, t, rfl⟩ := List.append_of_mem hline
      exact .inr ⟨u, t, rfl, hhidden u (t ++ w) (by rw [hbody, List.append_assoc]; rfl)⟩
    · left
      have : lineFeeds ('"' :: b) = 0 := by
        rw [lineFeeds, List.countP_eq_zero]
        intro d hd
        rw [beq_iff_eq]
        rintro rfl
        exact hline ((List.mem_cons.mp hd).resolve_left (by decide))
      rw [this, Nat.add_zero]

end ShortLiteral

/-- A declaration whose default value is not closed, in front of the opening quote. -/
def pathFront : List Char := "ex:path a owl:DatatypeProperty ; ex:defaultValue ".toList

/-- The value, which ends in a backslash, and a declaration on the next line. -/
def pathRest : List Char := "C:\\\nex:name a owl:DatatypeProperty .".toList

/-- The value reaches over the end of its line, so the declaration behind it, which is one where it
stands alone, is none. -/
theorem pathRest_goesOn :
    ¬startsTriple ('"' :: pathRest) = true
      ∧ ⟨size pathFront, 86⟩ ∈ inertRanges (pathFront ++ '"' :: pathRest)
      ∧ (∃ body y, pathRest = body ++ y ∧ 86 = size (pathFront ++ '"' :: body) ∧ '\n' ∈ body)
      ∧ (blocks .standard (pathFront ++ '"' :: pathRest)).map Block.key
        = [("ex", "path", ⟨0, 86⟩, .unterminatedAtEnd)]
      ∧ (blocks .standard (pathRest.drop 4)).map Block.key
        = [("ex", "name", ⟨0, 32⟩, .terminated)] := by
  have hshort : ¬startsTriple ('"' :: pathRest) = true := by decide
  have hspan : ⟨size pathFront, 86⟩ ∈ inertRanges (pathFront ++ '"' :: pathRest) := by
    decide +kernel
  have hgoes : GoesOn pathRest := by
    refine ⟨"C:\\".toList, "ex:name a owl:DatatypeProperty .".toList, by decide, by decide,
      by decide, ?_⟩
    intro u w h
    have hquote : '"' ∈ "C:\\".toList := h ▸ by simp
    exact absurd hquote (by decide)
  obtain ⟨body, y, hbody, hstop, hline, -⟩ := shortLiteral_lines hshort hspan
  exact ⟨hshort, hspan, ⟨body, y, hbody, hstop, hline.mpr hgoes⟩, by decide +kernel,
    by decide +kernel⟩

end FormOntology
