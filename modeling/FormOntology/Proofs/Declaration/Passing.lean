import FormOntology.Proofs.Declaration.Literals

/-!
# Texts that are passed over

The searches for anchors and for the objects of terms try every place of a text.  At each they read
a name with a colon, blanks and something behind them.  So a text without colons is passed over,
and so is a text without blanks, if nothing can be read behind the blanks that follow it.

## Main definitions

* `NameReader` — a reader of something that has a colon.
* `Passes` — whether nothing is read at any place of a text, with a given text behind it.

## Main results

* `Passes.append` — texts that are passed over one behind the other.
* `Passes.of_notMem`, `Passes.of_word` — texts without colons, and texts without blanks.
* `HeaderForm.passes_text_of_parts` — a header, part by part.
* `firstObject?_of_passes`, `anchorsFrom_of_passes` — nothing is found in such a text.
-/

namespace FormOntology

open Text Turtle

/-- A reader of something that has a colon and ends with its characters. -/
structure NameReader (head? : List Char → Option (List Char)) : Prop where
  /-- It does not see what follows, if that begins with another character. -/
  append : ∀ {y : List Char}, StopsBefore isTermChar y → ∀ x : List Char,
    head? (x ++ y) = (head? x).map (· ++ y)
  /-- What it reads has a colon. -/
  colon : ∀ {x r : List Char}, head? x = some r →
    ∃ p, x = p ++ r ∧ (∀ c ∈ p, isTermChar c = true) ∧ ':' ∈ p

/-- A term has a colon. -/
theorem Term.nameReader (t : Term) (v : Vocabulary) : NameReader (t.read? v) :=
  ⟨fun hy => Term.read?_append hy t v, Term.exists_of_read?⟩

/-- What follows the names of a header. -/
def Header.behindNames? (v : Vocabulary) (text : List Char) : Option (List Char) :=
  (v.read? text).bind fun p => (readIdentifier? p.2).map Prod.snd

/-- An identifier is read without what follows, if no character of a name does. -/
theorem readIdentifier?_append {y : List Char} (hy : StopsBefore isNameChar y) (x : List Char) :
    readIdentifier? (x ++ y) = (readIdentifier? x).map fun p => (p.1, p.2 ++ y) := by
  cases x with
  | nil =>
    cases y with
    | nil => rfl
    | cons d y =>
      have hd : ¬isNameStart d = true := fun h => by
        simp [isNameChar_of_isNameStart h] at hy
      simp [readIdentifier?, hd]
  | cons c x =>
    rw [List.cons_append, readIdentifier?, readIdentifier?, takeWhile_append_of_stops hy,
      dropWhile_append_of_stops hy]
    split <;> rfl

/-- The names of a header have a colon between them. -/
theorem Header.nameReader (v : Vocabulary) : NameReader (behindNames? v) where
  append := by
    intro y hy x
    have hname : StopsBefore isNameChar y := fun c hc => (Bool.or_eq_false_iff.mp (hy c hc)).1
    rw [behindNames?, Vocabulary.read?_append hy, behindNames?]
    cases v.read? x with
    | none => rfl
    | some p =>
      simp only [Option.map_some, Option.bind_some, readIdentifier?_append hname, Option.map_map]
      rfl
  colon := by
    intro x r h
    obtain ⟨⟨q, rest⟩, hq, h⟩ := Option.bind_eq_some_iff.mp h
    obtain ⟨⟨i, r'⟩, hi, rfl⟩ := Option.map_eq_some_iff.mp h
    obtain ⟨rfl, hqn, -⟩ := Vocabulary.read?_eq_some_iff.mp hq
    obtain ⟨hrest, hin, -⟩ := readIdentifier?_eq_some_iff.mp hi
    refine ⟨q ++ ':' :: i, by simpa using hrest, ?_, by simp⟩
    have hname : ∀ c ∈ i, isNameChar c = true := by
      cases i with
      | nil => simp
      | cons d i =>
        rw [isName, Bool.and_eq_true, List.all_eq_true] at hin
        intro c hc
        rcases List.mem_cons.mp hc with rfl | hc
        · exact isNameChar_of_isNameStart hin.1
        · exact hin.2 c hc
    intro c hc
    rw [isTermChar, Bool.or_eq_true]
    rcases List.mem_append.mp hc with hc | hc
    · exact .inl (hqn c hc)
    · rcases List.mem_cons.mp hc with rfl | hc
      · exact .inr rfl
      · exact .inl (hname c hc)

theorem isTermChar_eq_false_of_isBlank {c : Char} (hc : isBlank c = true) :
    isTermChar c = false := by
  have hblank : ∀ d ∈ [c], isBlank d = true := by
    simpa using hc
  simpa using stopsBefore_isTermChar_of_blank hblank

/-! ### Places where nothing is read -/

section Passes

variable {α : Type} {head? : List Char → Option (List Char)} {object? : List Char → Option α}

/-- Whether nothing is read at any place of `x`, with `y` behind it. -/
def Passes (head? : List Char → Option (List Char)) (object? : List Char → Option α)
    (x y : List Char) : Prop :=
  ∀ u w, x = u ++ w → w ≠ [] → ((head? (w ++ y)).bind readBlanks?).bind object? = none

namespace Passes

variable {x x' y : List Char}

theorem nil (y : List Char) : Passes head? object? [] y := by
  intro u w h hw
  exact absurd (List.append_eq_nil_iff.mp h.symm).2 hw

/-- Nothing is read in texts that are passed over one behind the other. -/
theorem append (h : Passes head? object? x (x' ++ y)) (h' : Passes head? object? x' y) :
    Passes head? object? (x ++ x') y := by
  intro u w huw hw
  rcases List.append_eq_append_iff.mp huw with ⟨a, rfl, ha⟩ | ⟨a, ha, rfl⟩
  · exact h' a w ha hw
  · by_cases hnil : a = []
    · subst hnil
      exact h' [] x' rfl hw
    · rw [List.append_assoc]
      exact h u a ha hnil

theorem tail {c : Char} (h : Passes head? object? (c :: x) y) : Passes head? object? x y :=
  fun u w huw hw => h (c :: u) w (by rw [huw]; rfl) hw

/-- Characters of no name are passed over. -/
theorem of_not_isTermChar (hr : NameReader head?) (hx : ∀ c ∈ x, isTermChar c = false)
    (y : List Char) : Passes head? object? x y := by
  rintro u w rfl hw
  obtain ⟨c, w, rfl⟩ := List.exists_cons_of_ne_nil hw
  cases h : head? (c :: w ++ y) with
  | none => rfl
  | some r =>
    -- a name would begin with this character
    obtain ⟨p, hp, hchars, hcolon⟩ := hr.colon h
    obtain ⟨d, p, rfl⟩ := List.exists_cons_of_ne_nil (List.ne_nil_of_mem hcolon)
    obtain ⟨rfl, -⟩ := List.cons.inj hp
    have := hx c (by simp)
    rw [hchars c (List.mem_cons_self ..)] at this
    cases this

theorem of_blank (hr : NameReader head?) (hx : ∀ c ∈ x, isBlank c = true) (y : List Char) :
    Passes head? object? x y :=
  of_not_isTermChar hr (fun c hc => isTermChar_eq_false_of_isBlank (hx c hc)) y

/-- A text without colons is passed over, if no name goes on behind it. -/
theorem of_notMem (hr : NameReader head?) (hx : ':' ∉ x) (hy : StopsBefore isTermChar y) :
    Passes head? object? x y := by
  rintro u w rfl -
  rw [hr.append hy]
  cases h : head? w with
  | none => rfl
  | some r =>
    obtain ⟨p, rfl, -, hcolon⟩ := hr.colon h
    exact absurd (by simp [hcolon]) hx

/-- A text without blanks is passed over, if nothing is read behind the blanks that follow it. -/
theorem of_word (hr : NameReader head?) (hx : ∀ c ∈ x, isBlank c = false) {gap z : List Char}
    (hne : gap ≠ []) (hgap : ∀ c ∈ gap, isBlank c = true) (hz : StopsBefore isBlank z)
    (h : ∀ u w, x = u ++ w → head? w = some [] → object? z = none) :
    Passes head? object? x (gap ++ z) := by
  rintro u w rfl -
  obtain ⟨c, gap, rfl⟩ := List.exists_cons_of_ne_nil hne
  have hstop : StopsBefore isTermChar (c :: gap ++ z) :=
    stopsBefore_cons.mpr (isTermChar_eq_false_of_isBlank (hgap c (List.mem_cons_self ..)))
  rw [hr.append hstop]
  cases hw : head? w with
  | none => rfl
  | some r =>
    cases r with
    | nil =>
      have hblanks : readBlanks? (c :: gap ++ z) = some z :=
        readBlanks?_eq_some_iff.mpr ⟨_, rfl, hne, hgap, hz⟩
      rw [Option.map_some, Option.bind_some, List.nil_append, hblanks, Option.bind_some]
      exact h u w rfl hw
    | cons d r =>
      obtain ⟨p, rfl, -⟩ := hr.colon hw
      have hd := hx d (by simp)
      rw [Option.map_some, Option.bind_some, List.cons_append, readBlanks?, hd,
        if_neg Bool.false_ne_true, Option.bind_none]

end Passes

/-- A header is passed over if nothing is read behind its names, behind its assertion and in its
mark. -/
theorem HeaderForm.passes_text_of_parts (hr : NameReader head?) {v : Vocabulary} {f : HeaderForm}
    (hf : f.Valid v) {y : List Char}
    (hnames : ∀ u w, f.header.qualifier ++ ':' :: f.header.identifier = u ++ w →
      head? w = some [] → object? (f.assertion ++ (f.gap' ++ (Header.mark ++ y))) = none)
    (hassertion : ∀ u w, f.assertion = u ++ w → head? w = some [] →
      object? (Header.mark ++ y) = none)
    (hmark : Passes head? object? Header.mark y) : Passes head? object? f.text y := by
  obtain ⟨hne, hword, -⟩ := assertion_cases hf.assertion
  have htext : f.text = (f.header.qualifier ++ ':' :: f.header.identifier)
      ++ (f.gap ++ (f.assertion ++ (f.gap' ++ Header.mark))) := by
    simp [text]
  rw [htext]
  refine .append ?names (.append (.of_blank hr hf.gap_blank _) (.append ?assertion
    (.append (.of_blank hr hf.gap'_blank _) hmark)))
  case names =>
    simp only [List.append_assoc]
    exact .of_word hr (f.isBlank_eq_false_of_mem_names hf) hf.gap_ne hf.gap_blank
      (stopsBefore_append_of_ne_nil hne hword) hnames
  case assertion =>
    rw [List.append_assoc]
    exact .of_word hr hword hf.gap'_ne hf.gap'_blank (stopsBefore_isBlank_mark y) hassertion

/-! ### Searches -/

/-- No object is found in a text that is passed over. -/
theorem objectIn?_of_passes {v : Vocabulary} {t : Term} {x y : List Char}
    (h : Passes (t.read? v) object? x y) (inWord : Bool) :
    objectIn? v t object? inWord x y = none :=
  objectIn?_of_forall v t object? (fun u w huw hw _ => .inl (h u w huw hw)) fun h => absurd rfl h

theorem firstObject?_of_passes {v : Vocabulary} {t : Term} {x y : List Char}
    (h : Passes (t.read? v) object? x y) (inWord : Bool) :
    firstObject? v t object? inWord (x ++ y)
      = firstObject? v t object? (inWordBehind inWord x) y := by
  rw [firstObject?_append, objectIn?_of_passes h, Option.none_or]

end Passes

/-- No header is read where no assertion follows the names. -/
theorem Header.read?_eq_none {v : Vocabulary} {text : List Char}
    (h : ((behindNames? v text).bind readBlanks?).bind readTypeAssertion? = none) :
    Header.read? v text = none := by
  apply Option.eq_none_iff_forall_ne_some.mpr
  intro p hread
  simp only [Header.read?, Option.bind_eq_bind, Option.bind_eq_some_iff] at hread
  obtain ⟨⟨q, r₁⟩, hq, ⟨i, r₂⟩, hi, r₃, hgap, r₄, ha, -⟩ := hread
  have hnames : behindNames? v text = some r₂ := by
    rw [behindNames?, hq, Option.bind_some, hi]
    rfl
  rw [hnames, Option.bind_some, hgap, Option.bind_some, ha] at h
  cases h

/-- No anchor is found in a text that is passed over. -/
theorem anchorsFrom_of_passes {v : Vocabulary} {x : List Char}
    (h : Passes (Header.behindNames? v) readTypeAssertion? x []) (offset : Nat) (free : Bool) :
    anchorsFrom v offset 0 free x = [] := by
  induction x generalizing offset free with
  | nil => simp
  | cons c x ih =>
    have hnone := h [] (c :: x) rfl (List.cons_ne_nil c x)
    rw [List.append_nil] at hnone
    rw [anchorsFrom_of_none fun _ => Header.read?_eq_none hnone, ih h.tail]

end FormOntology
