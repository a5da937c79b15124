import FormOntology.Proofs.Declaration.Passing
import FormOntology.Proofs.Turtle.Written

/-!
# Written declarations

A declaration is written clause by clause, in any order: a semicolon, a term and its object.  What
the attributes leave open is the style: the namespace names, the blanks, and how a truth value is
written.  Each object is read back from what was written for it, whatever stands behind it.

## Main definitions

* `Style` — what the attributes leave open.
* `RangeWord` — the words that name a range.
* `AttributeSet.written` — a declaration as written.
* `AttributeSet.Writable` — the attributes that can be read back.
* `IsObject` — what every written object has in common.

## Main results

* `RangeWord.name?_append`, `flag?_writtenFlag` — names and truth values are read back.
* `AttributeSet.Writable.isObject` — what is written behind a term is an object.
-/

namespace FormOntology

open Text Turtle

/-! ### Names -/

/-- The words that name a range. -/
inductive RangeWord : List Char → Prop
  /-- An IRI with its angle brackets. -/
  | bracket {body : List Char} (h : ∀ c ∈ body, isBracketChar c = true) :
    RangeWord ('<' :: (body ++ ['>']))
  /-- A word without a colon. -/
  | word {c : Char} {r : List Char} (hc : isNameStart c = true)
    (hr : ∀ d ∈ r, isLocalChar d = true) : RangeWord (c :: r)
  /-- Two words with a colon between them; the second may be empty. -/
  | qualified {c : Char} {r n : List Char} (hc : isNameStart c = true)
    (hr : ∀ d ∈ r, isLocalChar d = true) (hn : ∀ d ∈ n, isLocalChar d = true) :
    RangeWord (c :: r ++ ':' :: n)

/-- A character that is no start of a name opens no name. -/
theorem ne_of_isNameStart {c d : Char} (hc : isNameStart c = true) (hd : isNameStart d = false) :
    c ≠ d := by
  rintro rfl
  simp [hc] at hd

theorem isBlank_eq_false_of_isLocalChar {c : Char} (h : isLocalChar c = true) :
    isBlank c = false := by
  rw [← Bool.not_eq_true]
  intro hb
  simp [isLocalChar_eq_false_of_isBlank hb] at h

theorem isBlank_eq_false_of_isNameStart {c : Char} (h : isNameStart c = true) :
    isBlank c = false := by
  rw [← Bool.not_eq_true]
  intro hb
  simp [isNameStart_eq_false_of_isBlank hb] at h

namespace RangeWord

variable {w : List Char}

/-- **A range word is read back**, if a blank stands behind it. -/
theorem name?_append (h : RangeWord w) (z : List Char) : name? (w ++ ' ' :: z) = some w := by
  have hstop : StopsBefore isLocalChar (' ' :: z) := stopsBefore_cons.mpr (by decide)
  cases h with
  | @bracket body h =>
    have hclose : StopsBefore isBracketChar ('>' :: ' ' :: z) := stopsBefore_cons.mpr (by decide)
    rw [List.cons_append, List.append_assoc, List.singleton_append, name?_bracket,
      takeWhile_append_of_stopsBefore h hclose, dropWhile_append_of_stopsBefore h hclose]
    rfl
  | @word c r hc hr =>
    rw [List.cons_append, name?_word (ne_of_isNameStart hc (by decide)), if_pos hc,
      takeWhile_append_of_stopsBefore hr hstop, dropWhile_append_of_stopsBefore hr hstop]
    exact nameFrom?_of_ne (by decide) _ z
  | @qualified c r n hc hr hn =>
    have hcolon : StopsBefore isLocalChar (':' :: (n ++ ' ' :: z)) :=
      stopsBefore_cons.mpr (by decide)
    rw [List.append_assoc, List.cons_append, List.cons_append,
      name?_word (ne_of_isNameStart hc (by decide)), if_pos hc,
      takeWhile_append_of_stopsBefore hr hcolon, dropWhile_append_of_stopsBefore hr hcolon,
      nameFrom?, takeWhile_append_of_stopsBefore hn hstop]

theorem ne_nil (h : RangeWord w) : w ≠ [] := by
  cases h <;> exact List.cons_ne_nil _ _

/-- A range word has no blanks. -/
theorem isBlank_eq_false (h : RangeWord w) : ∀ c ∈ w, isBlank c = false := by
  intro d hd
  cases h with
  | bracket h =>
    simp only [List.mem_cons, List.mem_append, List.not_mem_nil, or_false] at hd
    rcases hd with rfl | hd | rfl
    · decide
    · have := h d hd
      simp only [isBracketChar, Bool.and_eq_true, Bool.not_eq_true'] at this
      exact this.2
    · decide
  | word hc hr =>
    rcases List.mem_cons.mp hd with rfl | hd
    · exact isBlank_eq_false_of_isNameStart hc
    · exact isBlank_eq_false_of_isLocalChar (hr d hd)
  | qualified hc hr hn =>
    simp only [List.mem_cons, List.mem_append] at hd
    rcases hd with (rfl | hd) | rfl | hd
    · exact isBlank_eq_false_of_isNameStart hc
    · exact isBlank_eq_false_of_isLocalChar (hr d hd)
    · decide
    · exact isBlank_eq_false_of_isLocalChar (hn d hd)

/-- A range word has no full stop outside its angle brackets. -/
theorem quiet (h : RangeWord w) (z : List Char) : Quiet w z := by
  have hstart : ∀ {c}, isNameStart c = true → c ∉ ['.', '#', '"', '<'] :=
    notMem_of_all (by decide)
  have hlocal : ∀ {c}, isLocalChar c = true → c ∉ ['.', '#', '"', '<'] :=
    notMem_of_all (by decide)
  cases h with
  | @bracket body h =>
    -- what stands between the angle brackets is an IRI, whatever its characters
    have htail := iriTail?_of_bracket h z
    have hopen : opening '<' (body ++ '>' :: z) = some (.iri, body.length + 1) := by
      rw [opening_angle, htail]
      rfl
    refine .of_run (k := .iri) (by decide) ?_
    rw [List.cons_append, List.append_assoc, List.singleton_append, segments_inert hopen,
      List.take_length_add_append, List.drop_length_add_append]
    rfl
  | word hc hr =>
    apply Quiet.of_plain
    intro d hd
    rcases List.mem_cons.mp hd with rfl | hd
    · exact hstart hc
    · exact hlocal (hr d hd)
  | qualified hc hr hn =>
    apply Quiet.of_plain
    intro d hd
    simp only [List.mem_cons, List.mem_append] at hd
    rcases hd with (rfl | hd) | rfl | hd
    · exact hstart hc
    · exact hlocal (hr d hd)
    · decide
    · exact hlocal (hn d hd)

end RangeWord

/-! ### Truth values -/

/-- The word for a truth value. -/
def flagWord (b : Bool) : List Char := (if b then "true" else "false").toList

/-- A truth value as written, with or without quotes and its data type. -/
def writtenFlag (quoted typed b : Bool) : List Char :=
  (if quoted then literal (flagWord b) else flagWord b)
    ++ (if typed then "^^xsd:boolean".toList else [])

/-- **A truth value is read back**, if a blank stands behind it. -/
theorem flag?_writtenFlag (quoted typed b : Bool) (z : List Char) :
    flag? (writtenFlag quoted typed b ++ ' ' :: z) = some b := by
  cases quoted <;> cases typed <;> cases b <;> rfl

theorem quiet_writtenFlag (quoted typed b : Bool) (z : List Char) :
    Quiet (writtenFlag quoted typed b) (' ' :: z) := by
  have htype : Quiet (if typed then "^^xsd:boolean".toList else []) (' ' :: z) := by
    cases typed <;> exact .of_plain (List.all_iff_forall_prop.mp (by decide)) _
  refine Quiet.append ?_ htype
  cases quoted with
  | false => cases b <;> exact .of_plain (List.all_iff_forall_prop.mp (by decide)) _
  | true =>
    -- a word needs no escapes, so between quotes it is a written text
    have hword : literal (flagWord b) = writtenText (flagWord b) := by
      cases b <;> rfl
    have hne : flagWord b ≠ [] := by
      cases b <;> decide
    rw [if_pos rfl, hword]
    exact Quiet.writtenText fun h => absurd h hne

/-! ### Terms -/

namespace Term

/-- The terms. -/
def all : List Term := [label, domain, range, required, helpText, enumeration, conditionalDisplay,
  validationPattern, defaultValue, formType]

theorem mem_all (t : Term) : t ∈ all := by
  cases t <;> decide

/-- A term as written, under a namespace name if it needs one. -/
def text (qualifier : String) (t : Term) : List Char :=
  if t.isExtension then qualifier.toList ++ ':' :: t.word.toList else t.word.toList

theorem accepts_standard {q : String} (h : Vocabulary.standard.accepts q = true) :
    q ∈ Vocabulary.defaultNames := by
  simpa [Vocabulary.accepts, Vocabulary.standard] using h

section Text

variable {q : String} (hq : Vocabulary.standard.accepts q = true) (t : Term)
include hq

/-- A term as written has characters of terms only. -/
theorem isTermChar_of_mem_text : ∀ c ∈ t.text q, isTermChar c = true := by
  have hall : ∀ q ∈ Vocabulary.defaultNames, ∀ t ∈ all, (t.text q).all isTermChar = true := by
    decide +kernel
  exact List.all_eq_true.mp (hall q (accepts_standard hq) t t.mem_all)

/-- **A term is read back**, whatever stands behind it. -/
theorem read?_text_append (z : List Char) : t.read? .standard (t.text q ++ z) = some z := by
  unfold read? text
  split
  · have hname : ∀ q ∈ Vocabulary.defaultNames, q.toList.all isNameChar = true := by decide
    have hread : Vocabulary.standard.read? (q.toList ++ ':' :: (t.word.toList ++ z))
        = some (q.toList, t.word.toList ++ z) := by
      refine Vocabulary.read?_eq_some_iff.mpr ⟨rfl, ?_, by rwa [String.ofList_toList]⟩
      exact List.all_eq_true.mp (hname q (accepts_standard hq))
    rw [List.append_assoc, List.cons_append, hread, Option.bind_some]
    exact readWord?_append _ _
  · rw [readWord?_append]

/-- No other term ends with a term. -/
theorem eq_of_suffix {t' : Term} {u w : List Char} (h : t.text q = u ++ w)
    (hread : t'.read? .standard w = some []) : t' = t := by
  have hall : ∀ q ∈ Vocabulary.defaultNames, ∀ t ∈ all, ∀ t' ∈ all, ∀ w ∈ (t.text q).tails,
      t'.read? .standard w = some [] → t' = t := by
    decide +kernel
  exact hall q (accepts_standard hq) t t.mem_all t' t'.mem_all w
    ((List.mem_tails _ _).mpr ⟨u, h.symm⟩) hread

/-- A term without a namespace name of its own does not end with the names of a header. -/
theorem isExtension_of_suffix {u w : List Char} (h : t.text q = u ++ w)
    (hread : Header.behindNames? .standard w = some []) : t.isExtension = true := by
  have hall : ∀ q ∈ Vocabulary.defaultNames, ∀ t ∈ all, ∀ w ∈ (t.text q).tails,
      Header.behindNames? .standard w = some [] → t.isExtension = true := by
    decide +kernel
  exact hall q (accepts_standard hq) t t.mem_all w ((List.mem_tails _ _).mpr ⟨u, h.symm⟩) hread

end Text

end Term

/-! ### Styles -/

/-- How a declaration is written, as far as its attributes leave that open. -/
structure Style where
  /-- The namespace name of each term that stands under one. -/
  qualifier : Term → String
  /-- The namespace name of the class. -/
  classQualifier : String
  /-- The blanks behind a semicolon. -/
  lead : Term → List Char
  /-- The blanks between a term and its object. -/
  gap : Term → List Char
  /-- What stands between two values of a list. -/
  listGap : List Char
  /-- Whether a truth value stands between quotes. -/
  quoted : Bool
  /-- Whether a truth value has its data type behind it. -/
  typed : Bool
  /-- Whether a property that needs no value says so. -/
  writesFalse : Bool
  /-- The namespace names are accepted. -/
  accepts_qualifier : ∀ t, Vocabulary.standard.accepts (qualifier t) = true
  /-- So is that of the class. -/
  accepts_classQualifier : Vocabulary.standard.accepts classQualifier = true
  /-- There are only blanks behind a semicolon. -/
  lead_blank : ∀ t, ∀ c ∈ lead t, isBlank c = true
  /-- There is a blank in front of an object. -/
  gap_ne : ∀ t, gap t ≠ []
  /-- There are only blanks in front of an object. -/
  gap_blank : ∀ t, ∀ c ∈ gap t, isBlank c = true
  /-- Values are separated by blanks and commas. -/
  listGap_separator : ∀ c ∈ listGap, isTokenSeparator c = true

/-! ### Attributes -/

namespace AttributeSet

/-- The text of an attribute that is written as a literal. -/
def text? (a : AttributeSet) : Term → Option String
  | .label => a.label
  | .helpText => a.helpText
  | .conditionalDisplay => a.conditionalDisplay
  | .validationPattern => a.validationPattern
  | .defaultValue => a.defaultValue
  | .formType => a.formType
  | _ => none

/-- The object of a term as written, if the attribute is there. -/
def object? (a : AttributeSet) (s : Style) (t : Term) : Option (List Char) :=
  match t with
  | .domain => a.domain.map fun n => s.classQualifier.toList ++ ':' :: n.toList
  | .range => a.range.map String.toList
  | .required =>
    (if a.required || s.writesFalse then some a.required else none).map
      (writtenFlag s.quoted s.typed)
  | .enumeration =>
    (if a.enumeration.isEmpty then none else some a.enumeration).map (writtenList s.listGap)
  | _ => (a.text? t).map fun x => writtenText x.toList

/-- The clause of a term as written; nothing if the attribute is not there. -/
def clause (a : AttributeSet) (s : Style) (t : Term) : List Char :=
  match a.object? s t with
  | none => []
  | some o => " ;".toList ++ (s.lead t ++ (t.text (s.qualifier t) ++ (s.gap t ++ o)))

/-- A declaration as written behind its header, with the clauses in a given order. -/
def body (a : AttributeSet) (s : Style) (order : List Term) : List Char :=
  order.flatMap (a.clause s) ++ " .".toList

/-- A declaration as written, with the clauses in a given order. -/
def written (a : AttributeSet) (s : Style) (f : HeaderForm) (order : List Term) : List Char :=
  f.text ++ a.body s order

/-- The attributes that can be written and read back. -/
structure Writable (a : AttributeSet) : Prop where
  /-- No text has a colon. -/
  text : ∀ t x, a.text? t = some x → ':' ∉ x.toList
  /-- The label is not blank. -/
  label : ∀ x, a.label = some x → isBlankString x = false
  /-- The class is a local name. -/
  domain : ∀ n, a.domain = some n → n ≠ "" ∧ ∀ c ∈ n.toList, isLocalChar c = true
  /-- The range is a name. -/
  range : ∀ w, a.range = some w → RangeWord w.toList
  /-- The values to choose from are trimmed and not empty. -/
  enumeration : ∀ x ∈ a.enumeration, ':' ∉ x.toList ∧ x ≠ "" ∧ strip x = x
  /-- The condition needs no escapes, which would be kept in it. -/
  conditionalDisplay : ∀ x, a.conditionalDisplay = some x →
    ∀ c ∈ x.toList, c ∉ ['\\', '"', '\n', '\r', '\t']
  /-- The name of the control is trimmed and needs no escapes either. -/
  formType : ∀ x, a.formType = some x →
    strip x = x ∧ ∀ c ∈ x.toList, c ∉ ['\\', '"', '\n', '\r', '\t']

end AttributeSet

/-! ### Objects -/

/-- What every object that is written behind a term has in common. -/
structure IsObject (t : Term) (o : List Char) : Prop where
  /-- It has no colon or no blank. -/
  colon : ':' ∉ o ∨ ∀ c ∈ o, isBlank c = false
  /-- It does not begin with a blank. -/
  stopsBefore : ∀ y, StopsBefore isBlank (o ++ y)
  /-- It has no comment and no full stop. -/
  quiet : ∀ z, Quiet o (' ' :: z)
  /-- Behind a term that could be the name of a property it does not begin like a header. -/
  no_assertion : t.isExtension = true → ∀ y, readTypeAssertion? (o ++ y) = none

/-- A word of letters is an object. -/
theorem RangeWord.isObject {w : List Char} (h : RangeWord w) {t : Term}
    (ht : t.isExtension = false) : IsObject t w where
  colon := .inr h.isBlank_eq_false
  stopsBefore y := stopsBefore_append_of_ne_nil h.ne_nil h.isBlank_eq_false
  quiet z := h.quiet _
  no_assertion := fun hext => by simp [ht] at hext

/-- What begins with another character than an assertion is no assertion. -/
theorem readTypeAssertion?_cons {c : Char} (hc : c ≠ 'a') (hr : c ≠ 'r') (r : List Char) :
    readTypeAssertion? (c :: r) = none := by
  have hword : "rdf:type".toList = 'r' :: "df:type".toList := rfl
  rw [readTypeAssertion?, hword, readWord?, if_neg hc, readWord?, if_neg hr]
  rfl

theorem isObject_writtenText {x : List Char} (h : ':' ∉ x) (t : Term) :
    IsObject t (writtenText x) where
  colon := .inl (notMem_writtenText h)
  stopsBefore y := by
    rw [writtenText_append]
    exact stopsBefore_cons.mpr (by decide)
  quiet z := Quiet.writtenText fun _ => by simp
  no_assertion := by
    intro _ y
    rw [writtenText_append]
    exact readTypeAssertion?_cons (by decide) (by decide) _

theorem isObject_writtenList {gap : List Char} (hgap : ∀ c ∈ gap, isTokenSeparator c = true)
    {values : List String} (h : ∀ x ∈ values, ':' ∉ x.toList ∧ x ≠ "" ∧ strip x = x) (t : Term) :
    IsObject t (writtenList gap values) where
  colon := .inl (notMem_writtenList hgap fun x hx => (h x hx).1)
  stopsBefore y := stopsBefore_cons.mpr (by decide)
  quiet z := Quiet.writtenList hgap (fun x hx => (h x hx).2.1) _
  no_assertion := fun _ y => readTypeAssertion?_cons (by decide) (by decide) _

theorem isObject_writtenFlag (quoted typed b : Bool) (t : Term) :
    IsObject t (writtenFlag quoted typed b) := by
  have hchars : ∀ c ∈ writtenFlag quoted typed b, isBlank c = false := by
    cases quoted <;> cases typed <;> cases b <;> exact List.all_iff_forall_prop.mp (by decide)
  have hhead : ∃ c r, writtenFlag quoted typed b = c :: r ∧ c ≠ 'a' ∧ c ≠ 'r' := by
    cases quoted <;> cases typed <;> cases b <;> exact ⟨_, _, rfl, by decide, by decide⟩
  obtain ⟨c, r, heq, hc, hr⟩ := hhead
  refine ⟨.inr hchars, fun y => ?_, quiet_writtenFlag quoted typed b, fun _ y => ?_⟩
  · exact stopsBefore_append_of_ne_nil (by rw [heq]; exact List.cons_ne_nil c r) hchars
  · rw [heq]
    exact readTypeAssertion?_cons hc hr _

/-- The class under an accepted namespace name is a word of a range, too. -/
theorem rangeWord_qualified {q n : String} (hq : Vocabulary.standard.accepts q = true)
    (hn : ∀ c ∈ n.toList, isLocalChar c = true) : RangeWord (q.toList ++ ':' :: n.toList) := by
  rcases List.mem_pair.mp (Term.accepts_standard hq) with rfl | rfl
  · exact .qualified (c := 'a') (r := "utoins".toList) (by decide)
      (List.all_eq_true.mp (by decide)) hn
  · exact .qualified (c := 'e') (r := ['x']) (by decide) (List.all_eq_true.mp (by decide)) hn

/-- **What is written behind a term is an object.** -/
theorem AttributeSet.Writable.isObject {a : AttributeSet} (ha : a.Writable) {s : Style} {t : Term}
    {o : List Char} (h : a.object? s t = some o) : IsObject t o := by
  have htext : ∀ t', (a.text? t').map (fun x => writtenText x.toList) = some o → IsObject t o := by
    intro t' h
    obtain ⟨x, hx, rfl⟩ := Option.map_eq_some_iff.mp h
    exact isObject_writtenText (ha.text t' x hx) t
  cases t with
  | domain =>
    obtain ⟨n, hn, rfl⟩ := Option.map_eq_some_iff.mp h
    exact (rangeWord_qualified s.accepts_classQualifier (ha.domain n hn).2).isObject rfl
  | range =>
    obtain ⟨w, hw, rfl⟩ := Option.map_eq_some_iff.mp h
    exact (ha.range w hw).isObject rfl
  | required =>
    obtain ⟨b, -, rfl⟩ := Option.map_eq_some_iff.mp h
    exact isObject_writtenFlag s.quoted s.typed b _
  | enumeration =>
    obtain ⟨values, hvalues, rfl⟩ := Option.map_eq_some_iff.mp h
    split at hvalues
    · cases hvalues
    · obtain rfl := Option.some.inj hvalues
      exact isObject_writtenList s.listGap_separator ha.enumeration _
  | _ => exact htext _ h

end FormOntology
