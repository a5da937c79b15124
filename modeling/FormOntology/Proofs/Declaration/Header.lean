import FormOntology.Proofs.Declaration.Tokens

/-!
# Written headers

A header is read exactly where it is written: its names, its assertion and its mark with blanks
between them, and no character of words behind it.  It has three words, and of these only the mark
can begin another header.

## Main definitions

* `HeaderForm` — the parts of a header as written.
* `afterWord` — a text from its second word on.

## Main results

* `Header.read?_eq_some_iff` — a header is read exactly where it is written.
* `HeaderForm.mark_of_inside` — a header that begins inside another one begins at its mark.
-/

namespace FormOntology

open Text

/-! ### Characters -/

theorem isNameChar_eq_false_of_isBlank {c : Char} (h : isBlank c = true) :
    isNameChar c = false := by
  rw [← Bool.not_eq_true]
  intro hn
  have hdef : isNameChar c = ((decide ('A'.val ≤ c.val ∧ c.val ≤ 'Z'.val)
      || decide ('a'.val ≤ c.val) && decide (c.val ≤ 'z'.val)
      || decide ('0'.val ≤ c.val) && decide (c.val ≤ '9'.val)) || c == '_' || c == '-') := rfl
  simp only [hdef, Bool.or_eq_true, Bool.and_eq_true, decide_eq_true_eq, beq_iff_eq,
    UInt32.le_iff_toNat_le] at hn
  simp only [isBlank, Bool.or_eq_true, Bool.and_eq_true, decide_eq_true_eq, beq_iff_eq,
    Char.toNat] at h
  rcases hn with (hn | rfl) | rfl
  · have hval : c.val.toNat = c.toNat := rfl
    simp at hn
    omega
  · simp at h
  · simp at h

theorem isNameChar_of_isName {name : List Char} (h : isName name = true) :
    ∀ c ∈ name, isNameChar c = true := by
  cases name with
  | nil => simp
  | cons c r =>
    rw [isName, Bool.and_eq_true, List.all_eq_true] at h
    intro d hd
    rcases List.mem_cons.mp hd with rfl | hd
    · exact isNameChar_of_isNameStart h.1
    · exact h.2 d hd

/-- Whether a character can stand in a header. -/
def isHeaderChar (c : Char) : Bool := isNameChar c || c == ':' || isBlank c

/-! ### Forms -/

/-- What marks a property in its header. -/
def Header.mark : List Char := "owl:DatatypeProperty".toList

/-- The parts of a header as written. -/
structure HeaderForm where
  /-- The names. -/
  header : Header
  /-- The blanks behind the names. -/
  gap : List Char
  /-- What stands between the names and the mark. -/
  assertion : List Char
  /-- The blanks in front of the mark. -/
  gap' : List Char

theorem Header.length_mark : Header.mark.length = 20 := by decide

/-- A mark has no blanks. -/
theorem Header.isBlank_eq_false_of_mem_mark {c : Char} (h : c ∈ Header.mark) :
    isBlank c = false := by
  have hall : Header.mark.all (!isBlank ·) = true := by decide
  simpa using List.all_eq_true.mp hall c h

/-- An assertion is a word. -/
theorem assertion_cases {a : List Char} (h : a = ['a'] ∨ a = "rdf:type".toList) :
    a ≠ [] ∧ (∀ c ∈ a, isBlank c = false) ∧ ∀ c ∈ a, isHeaderChar c = true := by
  have hall : a ≠ [] ∧ a.all (!isBlank ·) = true ∧ a.all isHeaderChar = true := by
    rcases h with rfl | rfl <;> decide
  exact ⟨hall.1, fun c hc => by simpa using List.all_eq_true.mp hall.2.1 c hc,
    List.all_eq_true.mp hall.2.2⟩

namespace HeaderForm

/-- A header as written. -/
def text (f : HeaderForm) : List Char :=
  f.header.qualifier ++ ':' :: (f.header.identifier
    ++ (f.gap ++ (f.assertion ++ (f.gap' ++ Header.mark))))

/-- A header is longer than its mark. -/
theorem length_mark_lt_text (f : HeaderForm) : Header.mark.length < f.text.length := by
  simp only [text, List.length_append, List.length_cons]
  omega

theorem text_ne_nil (f : HeaderForm) : f.text ≠ [] := by
  simp [text]

/-- Whether the parts make a header. -/
structure Valid (v : Vocabulary) (f : HeaderForm) : Prop where
  /-- The namespace name has characters of names. -/
  qualifier : ∀ c ∈ f.header.qualifier, isNameChar c = true
  /-- The namespace name is accepted. -/
  accepted : v.accepts (String.ofList f.header.qualifier) = true
  /-- The property has a name. -/
  identifier : isName f.header.identifier = true
  /-- There is a blank behind the names. -/
  gap_ne : f.gap ≠ []
  /-- There are only blanks behind the names. -/
  gap_blank : ∀ c ∈ f.gap, isBlank c = true
  /-- The assertion is one of two. -/
  assertion : f.assertion = ['a'] ∨ f.assertion = "rdf:type".toList
  /-- There is a blank in front of the mark. -/
  gap'_ne : f.gap' ≠ []
  /-- There are only blanks in front of the mark. -/
  gap'_blank : ∀ c ∈ f.gap', isBlank c = true

end HeaderForm

theorem stopsBefore_append_of_ne_nil {p : Char → Bool} {x y : List Char} (hx : x ≠ [])
    (h : ∀ c ∈ x, p c = false) : StopsBefore p (x ++ y) := by
  obtain ⟨c, x, rfl⟩ := List.exists_cons_of_ne_nil hx
  exact stopsBefore_cons.mpr (h c (List.mem_cons_self ..))

theorem stopsBefore_isBlank_mark (rest : List Char) :
    StopsBefore isBlank (Header.mark ++ rest) :=
  stopsBefore_append_of_ne_nil (by decide) fun _ => Header.isBlank_eq_false_of_mem_mark

theorem readTypeAssertion?_eq_some_iff {text rest : List Char} :
    readTypeAssertion? text = some rest
      ↔ ∃ w, (w = ['a'] ∨ w = "rdf:type".toList) ∧ text = w ++ rest := by
  rw [readTypeAssertion?, Option.or_eq_some_iff, readWord?_eq_some_iff, readWord?_eq_some_iff]
  constructor
  · rintro (h | ⟨-, h⟩)
    · exact ⟨_, .inl rfl, h⟩
    · exact ⟨_, .inr rfl, h⟩
  · rintro ⟨w, rfl | rfl, h⟩
    · exact .inl h
    · refine .inr ⟨?_, h⟩
      subst h
      rfl

theorem startsOutsideWord_iff {text : List Char} :
    startsOutsideWord text = true ↔ StopsBefore Unicode.isWord text := by
  cases text <;> simp [startsOutsideWord]

/-- **A header is read exactly where it is written.** -/
theorem Header.read?_eq_some_iff {v : Vocabulary} {text rest : List Char} {h : Header} :
    Header.read? v text = some (h, rest)
      ↔ ∃ f : HeaderForm, f.Valid v ∧ f.header = h ∧ text = f.text ++ rest
        ∧ startsOutsideWord rest = true := by
  constructor
  · -- every reader takes one part off the front
    intro hread
    simp only [Header.read?, Option.bind_eq_bind, Option.bind_eq_some_iff] at hread
    obtain ⟨⟨q, r₁⟩, hq, ⟨i, r₂⟩, hi, r₃, hgap, r₄, ha, r₅, hgap', r₆, hmark, hend⟩ := hread
    obtain ⟨rfl, hqn, hqv⟩ := Vocabulary.read?_eq_some_iff.mp hq
    obtain ⟨rfl, hin, -⟩ := readIdentifier?_eq_some_iff.mp hi
    obtain ⟨gap, rfl, hgn, hgb, -⟩ := readBlanks?_eq_some_iff.mp hgap
    obtain ⟨a, hav, rfl⟩ := readTypeAssertion?_eq_some_iff.mp ha
    obtain ⟨gap', rfl, hgn', hgb', -⟩ := readBlanks?_eq_some_iff.mp hgap'
    have hr₅ : r₅ = Header.mark ++ r₆ := readWord?_eq_some_iff.mp hmark
    subst hr₅
    split at hend
    · next hstop =>
      simp only [Option.some.injEq, Prod.mk.injEq] at hend
      obtain ⟨rfl, rfl⟩ := hend
      exact ⟨⟨⟨q, i⟩, gap, a, gap'⟩, ⟨hqn, hqv, hin, hgn, hgb, hav, hgn', hgb'⟩, rfl,
        by simp only [HeaderForm.text, List.append_assoc, List.cons_append], hstop⟩
    · simp at hend
  · -- every part ends where the next one begins, for no part begins as the one before goes on
    rintro ⟨⟨⟨q, i⟩, gap, a, gap'⟩, hf, rfl, rfl, hstop⟩
    have hgap : StopsBefore isNameChar (gap ++ (a ++ (gap' ++ (mark ++ rest)))) :=
      stopsBefore_append_of_ne_nil hf.gap_ne fun c hc =>
        isNameChar_eq_false_of_isBlank (hf.gap_blank c hc)
    have ha : StopsBefore isBlank (a ++ (gap' ++ (mark ++ rest))) :=
      stopsBefore_append_of_ne_nil (assertion_cases hf.assertion).1
        (assertion_cases hf.assertion).2.1
    simp only [HeaderForm.text, List.append_assoc, List.cons_append]
    rw [Header.read?, Vocabulary.read?_eq_some_iff.mpr ⟨rfl, hf.qualifier, hf.accepted⟩]
    simp only [Option.bind_eq_bind, Option.bind_some]
    rw [readIdentifier?_eq_some_iff.mpr ⟨rfl, hf.identifier, hgap⟩, Option.bind_some,
      readBlanks?_eq_some_iff.mpr ⟨gap, rfl, hf.gap_ne, hf.gap_blank, ha⟩, Option.bind_some,
      readTypeAssertion?_eq_some_iff.mpr ⟨a, hf.assertion, rfl⟩, Option.bind_some,
      readBlanks?_eq_some_iff.mpr ⟨gap', rfl, hf.gap'_ne, hf.gap'_blank,
        stopsBefore_isBlank_mark rest⟩, Option.bind_some,
      show readWord? "owl:DatatypeProperty".toList (mark ++ rest) = some rest from
        readWord?_append _ _, Option.bind_some, if_pos hstop]

/-! ### Headers in longer and shorter texts -/

/-- A header is read the same in a longer text, if no word goes on there. -/
theorem Header.read?_append {v : Vocabulary} {x rest y : List Char} {h : Header}
    (hread : Header.read? v x = some (h, rest)) (hy : rest ≠ [] ∨ startsOutsideWord y = true) :
    Header.read? v (x ++ y) = some (h, rest ++ y) := by
  obtain ⟨f, hf, hh, rfl, hstop⟩ := read?_eq_some_iff.mp hread
  refine read?_eq_some_iff.mpr ⟨f, hf, hh, List.append_assoc .., ?_⟩
  cases rest with
  | nil => simpa using hy
  | cons c r => exact hstop

/-- A header that ends in a shorter text is read there. -/
theorem Header.read?_of_append {v : Vocabulary} {x y rest : List Char} {h : Header}
    (hread : Header.read? v (x ++ y) = some (h, rest)) (hlen : y.length ≤ rest.length) :
    ∃ rest', rest = rest' ++ y ∧ Header.read? v x = some (h, rest') := by
  obtain ⟨f, hf, hh, htext, hstop⟩ := read?_eq_some_iff.mp hread
  rcases List.append_eq_append_iff.mp htext with ⟨z, hz, hy⟩ | ⟨z, hx, hrest⟩
  · obtain rfl : z = [] := by
      have := congrArg List.length hy
      rw [List.length_append] at this
      exact List.eq_nil_of_length_eq_zero (by omega)
    rw [List.nil_append] at hy
    subst hy
    exact ⟨[], rfl, read?_eq_some_iff.mpr ⟨f, hf, hh, by simpa using hz.symm, rfl⟩⟩
  · refine ⟨z, hrest, read?_eq_some_iff.mpr ⟨f, hf, hh, hx, ?_⟩⟩
    cases z with
    | nil => rfl
    | cons c z => rwa [hrest] at hstop

/-! ### Words of a header -/

/-- A text from its second word on, where a word is a run of characters that are not blank. -/
def afterWord (text : List Char) : List Char := trimStart (text.dropWhile fun c => !isBlank c)

theorem afterWord_append {w gap rest : List Char} (hw : ∀ c ∈ w, isBlank c = false)
    (hne : gap ≠ []) (hgap : ∀ c ∈ gap, isBlank c = true) (hrest : StopsBefore isBlank rest) :
    afterWord (w ++ (gap ++ rest)) = rest := by
  have hstop : StopsBefore (fun c => !isBlank c) (gap ++ rest) :=
    stopsBefore_append_of_ne_nil hne fun c hc => by simp [hgap c hc]
  rw [afterWord, dropWhile_append_of_stopsBefore (fun c hc => by simp [hw c hc]) hstop, trimStart,
    dropWhile_append_of_stopsBefore hgap hrest]

/-- Of two starts of a text the longer has the characters of the shorter. -/
theorem mem_of_append_eq_append {a b x y : List Char} (h : a ++ x = b ++ y)
    (hle : a.length ≤ b.length) {c : Char} (hc : c ∈ a) : c ∈ b :=
  (List.prefix_of_prefix_length_le (List.prefix_append a x) (h ▸ List.prefix_append b y) hle).mem hc

/-- Whether a word can begin behind a text: it is empty or ends in a blank. -/
def EndsBlank (text : List Char) : Prop := ∀ c, text.getLast? = some c → isBlank c = true

theorem EndsBlank.of_suffix {u u' : List Char} (h : EndsBlank u) (hs : u' <:+ u) :
    EndsBlank u' := by
  obtain ⟨z, rfl⟩ := hs
  intro c hc
  exact h c (by rw [List.getLast?_append, hc, Option.some_or])

/-- A word that does not begin a text is one of the words from the second on. -/
theorem afterWord_eq_append {u s : List Char} (hu : u ≠ []) (hend : EndsBlank u)
    (hs : StopsBefore isBlank s) : ∃ u', afterWord (u ++ s) = u' ++ s ∧ EndsBlank u' := by
  have hne : (u.dropWhile fun c => !isBlank c).isEmpty = false := by
    rw [List.isEmpty_eq_false_iff]
    intro hnil
    have hall := List.all_takeWhile (p := fun c => !isBlank c) (l := u)
    rw [← List.append_nil (u.takeWhile _), ← hnil, List.takeWhile_append_dropWhile] at hall
    have := List.all_eq_true.mp hall _ (List.getLast_mem hu)
    simp [hend _ (List.getLast?_eq_some_getLast hu)] at this
  refine ⟨trimStart (u.dropWhile fun c => !isBlank c), ?_,
    hend.of_suffix ((List.dropWhile_suffix _).trans (List.dropWhile_suffix _))⟩
  rw [afterWord, List.dropWhile_append, hne, if_neg (by decide), trimStart, List.dropWhile_append]
  split
  · next hempty =>
    rw [trimStart, List.isEmpty_iff.mp hempty]
    simpa using dropWhile_append_of_stopsBefore (x := []) (by simp) hs
  · rfl

namespace HeaderForm

variable {v : Vocabulary} {f : HeaderForm} (hf : f.Valid v)
include hf

theorem isNameChar_of_mem_identifier : ∀ c ∈ f.header.identifier, isNameChar c = true :=
  isNameChar_of_isName hf.identifier

/-- A header has characters of names, colons and blanks only. -/
theorem isHeaderChar_of_mem : ∀ c ∈ f.text, isHeaderChar c = true := by
  intro c hc
  simp only [text, List.mem_append, List.mem_cons] at hc
  rcases hc with hc | rfl | hc | hc | hc | hc | hc
  · simp [isHeaderChar, hf.qualifier c hc]
  · rfl
  · simp [isHeaderChar, isNameChar_of_mem_identifier hf c hc]
  · simp [isHeaderChar, hf.gap_blank c hc]
  · exact (assertion_cases hf.assertion).2.2 c hc
  · simp [isHeaderChar, hf.gap'_blank c hc]
  · have hall : Header.mark.all isHeaderChar = true := by decide
    exact List.all_eq_true.mp hall c hc

/-- The names of a header make one word. -/
theorem isBlank_eq_false_of_mem_names :
    ∀ c ∈ f.header.qualifier ++ ':' :: f.header.identifier, isBlank c = false := by
  intro c hc
  rw [← Bool.not_eq_true]
  intro hb
  have hn := isNameChar_eq_false_of_isBlank hb
  rcases List.mem_append.mp hc with hc | hc
  · simp [hf.qualifier c hc] at hn
  rcases List.mem_cons.mp hc with rfl | hc
  · simp [isBlank] at hb
  · simp [isNameChar_of_mem_identifier hf c hc] at hn

/-- The second word of a header is its assertion. -/
theorem afterWord_text (rest : List Char) :
    afterWord (f.text ++ rest) = f.assertion ++ (f.gap' ++ (Header.mark ++ rest)) := by
  rw [← afterWord_append (isBlank_eq_false_of_mem_names hf) hf.gap_ne hf.gap_blank
    (stopsBefore_append_of_ne_nil (assertion_cases hf.assertion).1
      (assertion_cases hf.assertion).2.1)]
  simp only [text, List.append_assoc, List.cons_append]

/-- The third word of a header is its mark. -/
theorem afterWord_assertion (rest : List Char) :
    afterWord (f.assertion ++ (f.gap' ++ (Header.mark ++ rest))) = Header.mark ++ rest :=
  afterWord_append (assertion_cases hf.assertion).2.1 hf.gap'_ne hf.gap'_blank
    (stopsBefore_isBlank_mark rest)

/-- A header does not begin with a blank. -/
theorem stopsBefore_isBlank_text (rest : List Char) : StopsBefore isBlank (f.text ++ rest) := by
  unfold text
  cases hq : f.header.qualifier with
  | nil => exact stopsBefore_cons.mpr (by decide)
  | cons c r =>
    apply stopsBefore_cons.mpr
    rw [← Bool.not_eq_true]
    intro hb
    have := hf.qualifier c (by simp [hq])
    simp [isNameChar_eq_false_of_isBlank hb] at this

/-- A header has a blank, so it is no part of a mark. -/
theorem length_mark_lt {rest rest' : List Char} (h : f.text ++ rest' = Header.mark ++ rest) :
    Header.mark.length < f.text.length := by
  apply Nat.lt_of_not_le
  intro hle
  obtain ⟨c, gap, hc⟩ := List.exists_cons_of_ne_nil hf.gap'_ne
  have hb : isBlank c = true := hf.gap'_blank c (by simp [hc])
  have hmem : c ∈ Header.mark := mem_of_append_eq_append h hle (by simp [text, hc])
  simp [Header.isBlank_eq_false_of_mem_mark hmem] at hb

/-- **A header that begins inside another one begins at its mark**, so `owl` is accepted and the
second header ends behind the first. -/
theorem mark_of_inside {rest u s : List Char} (htext : f.text ++ rest = u ++ s) (hu : u ≠ [])
    (hfree : ∀ c, u.getLast? = some c → isHeaderDelimiter c = true)
    (hlen : u.length < f.text.length) {h : Header} {rest' : List Char}
    (hread : Header.read? v s = some (h, rest')) :
    s = Header.mark ++ rest ∧ v.accepts "owl" = true ∧ rest'.length < rest.length := by
  obtain ⟨f', hf', -, rfl, -⟩ := Header.read?_eq_some_iff.mp hread
  have hend : EndsBlank u := by
    intro c hc
    have hmem : c ∈ f.text :=
      mem_of_append_eq_append htext.symm (Nat.le_of_lt hlen) (List.mem_of_getLast? hc)
    have hd := hfree c hc
    simp only [isHeaderDelimiter, Bool.or_eq_true, beq_iff_eq] at hd
    have hchar := isHeaderChar_of_mem hf c hmem
    rcases hd with (hd | rfl) | rfl
    · exact hd
    · simp [isHeaderChar, isNameChar, isBlank] at hchar
    · simp [isHeaderChar, isNameChar, isBlank] at hchar
  have hs := stopsBefore_isBlank_text hf' rest'
  -- the second header begins with the second or the third word of the first
  obtain ⟨u', hu', hend'⟩ := afterWord_eq_append hu hend hs
  rw [← htext, afterWord_text hf] at hu'
  by_cases hnil : u' = []
  · -- at the second word, the assertion would be the mark
    rw [hnil, List.nil_append] at hu'
    have hmark := afterWord_assertion hf rest
    rw [hu', afterWord_text hf'] at hmark
    rcases hf'.assertion with ha | ha <;> rw [ha] at hmark <;> cases hmark
  obtain ⟨u'', hu'', hend''⟩ := afterWord_eq_append hnil hend' hs
  rw [← hu', afterWord_assertion hf] at hu''
  by_cases hnil' : u'' = []
  · rw [hnil', List.nil_append] at hu''
    have hlong := length_mark_lt hf' hu''.symm
    refine ⟨hu''.symm, ?_, ?_⟩
    · have hq := congrArg (List.takeWhile isNameChar) hu''
      rw [text, List.append_assoc, List.cons_append, takeWhile_append_of_stopsBefore
        hf'.qualifier (stopsBefore_cons.mpr (by decide))] at hq
      have := hf'.accepted
      rw [← hq] at this
      exact this
    · have := congrArg List.length hu''
      simp only [List.length_append] at this
      omega
  · apply absurd hlen
    have hlt : Header.mark.length < u''.length := by
      apply Nat.lt_of_not_le
      intro hle
      have hlast := List.getLast?_eq_some_getLast hnil'
      have hb := hend'' _ hlast
      have hmem := mem_of_append_eq_append hu''.symm hle (List.mem_of_getLast? hlast)
      simp [Header.isBlank_eq_false_of_mem_mark hmem] at hb
    have h₁ := congrArg List.length htext
    have h₂ := congrArg List.length hu''
    simp only [List.length_append] at h₁ h₂
    omega

end HeaderForm

end FormOntology
