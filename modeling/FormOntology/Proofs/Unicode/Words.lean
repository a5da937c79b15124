import FormOntology.Unicode.Property

/-!
# Blanks do not belong to words

A character of words is looked up in tables, and a blank is told by a short list.  The tables have
none of the blanks of that list.

## Main results

* `isWord_eq_false_of_isBlank` — **no blank belongs to a word.**
-/

namespace FormOntology

/-- A number that is found in spans lies in one of them. -/
theorem Spans.exists_of_contains {spans : Array Span} {n : Nat} (h : contains spans n = true) :
    ∃ s ∈ spans.toList, s.Contains n := by
  rw [contains, Option.any_eq_true] at h
  obtain ⟨s, hs, hn⟩ := h
  exact ⟨s, Array.mem_toList_iff.mpr (Array.mem_of_getElem? hs), by simpa using hn⟩

namespace Unicode

/-- The blanks beyond ASCII. -/
def wideBlanks : List Span :=
  [⟨0x85, 0x86⟩, ⟨0xA0, 0xA1⟩, ⟨0x1680, 0x1681⟩, ⟨0x2000, 0x200B⟩, ⟨0x2028, 0x202A⟩,
    ⟨0x202F, 0x2030⟩, ⟨0x205F, 0x2060⟩, ⟨0x3000, 0x3001⟩]

theorem exists_wideBlank {c : Char} (h : Text.isBlank c = true) (hc : ¬c.toNat < 128) :
    ∃ b ∈ wideBlanks, b.Contains c.toNat := by
  simp only [Text.isBlank, Bool.or_eq_true, Bool.and_eq_true, decide_eq_true_eq, beq_iff_eq] at h
  simp only [wideBlanks, List.mem_cons, List.not_mem_nil, or_false, exists_eq_or_imp,
    exists_eq_left, Span.Contains]
  omega

/-- Whether a span has no blank beyond ASCII. -/
def avoidsBlanks (s : Span) : Bool :=
  wideBlanks.all fun b => s.stop ≤ b.start || b.stop ≤ s.start

/-- A table of spans without blanks has no blank. -/
theorem contains_eq_false_of_avoidsBlanks {spans : Array Span}
    (h : spans.toList.all avoidsBlanks = true) {c : Char} (hb : Text.isBlank c = true)
    (hc : ¬c.toNat < 128) : Spans.contains spans c.toNat = false := by
  rw [← Bool.not_eq_true]
  intro hin
  obtain ⟨s, hs, hn⟩ := Spans.exists_of_contains hin
  obtain ⟨b, hb, hn'⟩ := exists_wideBlank hb hc
  have havoid := List.all_eq_true.mp (List.all_eq_true.mp h s hs) b hb
  simp only [Bool.or_eq_true, decide_eq_true_eq] at havoid
  simp only [Span.Contains] at hn hn'
  omega

theorem avoidsBlanks_otherAlphabetic : otherAlphabetic.toList.all avoidsBlanks = true := by
  simp only [otherAlphabetic, parseTable, List.flatMap_cons, List.flatMap_nil]
  repeat rw [String.toList_ofList]
  decide +kernel

/-- The categories of the characters of words. -/
def wordCategories : List Category := [.lu, .ll, .lt, .lm, .lo, .nl, .mn, .mc, .me, .nd, .pc]

theorem avoidsBlanks_spans :
    ∀ k ∈ wordCategories, k.spans.toList.all avoidsBlanks = true := by
  intro k hk
  simp only [wordCategories, List.mem_cons, List.not_mem_nil, or_false] at hk
  rcases hk with rfl | rfl | rfl | rfl | rfl | rfl | rfl | rfl | rfl | rfl | rfl
  all_goals
    simp only [Category.spans, Category.uppercaseLetter, Category.lowercaseLetter,
      Category.titlecaseLetter, Category.modifierLetter, Category.otherLetter,
      Category.letterNumber, Category.nonspacingMark, Category.spacingMark,
      Category.enclosingMark, Category.decimalNumber, Category.connectorPunctuation,
      parseTable, List.flatMap_cons, List.flatMap_nil]
    repeat rw [String.toList_ofList]
    decide +kernel

/-- **No blank belongs to a word.** -/
theorem isWord_eq_false_of_isBlank {c : Char} (h : Text.isBlank c = true) : isWord c = false := by
  by_cases hc : c.toNat < 128
  · simp only [Text.isBlank, Bool.or_eq_true, Bool.and_eq_true, decide_eq_true_eq,
      beq_iff_eq] at h
    rw [isWord, if_pos hc]
    have hmem : c.toNat ∈ [9, 10, 11, 12, 13, 32] := by
      simp only [List.mem_cons, List.not_mem_nil, or_false]
      omega
    have hplain : ∀ n ∈ [9, 10, 11, 12, 13, 32],
        ((Char.ofNat n).isAlphanum || Char.ofNat n == '_') = false := by decide
    rw [← Char.ofNat_toNat c]
    exact hplain _ hmem
  · have hspans : ∀ k ∈ wordCategories, k.contains c = false := fun k hk =>
      contains_eq_false_of_avoidsBlanks (avoidsBlanks_spans k hk) h hc
    have hother := contains_eq_false_of_avoidsBlanks avoidsBlanks_otherAlphabetic h hc
    have hjoiner : c.toNat ≠ 0x200C ∧ c.toNat ≠ 0x200D := by
      simp only [Text.isBlank, Bool.or_eq_true, Bool.and_eq_true, decide_eq_true_eq,
        beq_iff_eq] at h
      omega
    simp only [wordCategories, List.mem_cons, List.not_mem_nil, or_false, forall_eq_or_imp,
      forall_eq] at hspans
    simp [isWord, isAlphabetic, hc, hspans, hother, hjoiner]

end Unicode

end FormOntology
