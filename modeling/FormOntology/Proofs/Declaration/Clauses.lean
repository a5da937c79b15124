import FormOntology.Proofs.Declaration.Writing

/-!
# Clauses in the search

A clause stands behind a semicolon: a term, blanks and its object.  A search takes the object of a
clause if the clause has its term, and goes on in the object otherwise.  The term of a clause may
stand behind a longer namespace name than the accepted one, since a word begins behind a hyphen.

## Main definitions

* `MarkAhead` — whether the next thing in a text that is no blank is a mark.
* `Clause` — a clause as written.
* `GoesOnWith`, `Qualifies` — whether a namespace name goes on with another one behind a hyphen, and
  whether an accepted one stands at its end.
* `Clause.Gives` — whether a clause has the term of a search.

## Main results

* `Clause.gives_iff` — where the term of a search stands in that of a clause.
* `Clause.firstObject?_of_gives`, `Clause.firstObject?_of_not_gives` — what is found in a clause.
-/

namespace FormOntology

open Text Turtle

/-! ### Marks ahead -/

/-- Whether the next thing in a text that is no blank is the mark behind a clause, if there is
anything. -/
def MarkAhead (z : List Char) : Prop :=
  ∃ lead rest, z = lead ++ rest ∧ (∀ c ∈ lead, isBlank c = true)
    ∧ ∀ c, rest.head? = some c → c = ';' ∨ c = '.'

namespace MarkAhead

variable {z : List Char} (h : MarkAhead z)
include h

theorem stopsName : StopsName z := by
  obtain ⟨lead, rest, rfl, hlead, hrest⟩ := h
  have hhead : ∀ c, (lead ++ rest).head? = some c → isBlank c = true ∨ c = ';' ∨ c = '.' := by
    intro c hc
    rw [List.head?_append, Option.or_eq_some_iff] at hc
    rcases hc with hc | ⟨-, hc⟩
    · exact .inl (hlead c (List.mem_of_head? hc))
    · exact .inr (hrest c hc)
  constructor
  · intro c hc
    rcases hhead c hc with hblank | rfl | rfl
    · exact isLocalChar_eq_false_of_isBlank hblank
    · decide
    · decide
  · intro hcolon
    exact absurd (hhead ':' hcolon) (by decide)

/-- No object stands in front of the mark. -/
theorem bind_eq_none {t : Term} {α : Type} {object? : List Char → Option α}
    (hread : t.ReadBy object?) : (readBlanks? z).bind object? = none := by
  obtain ⟨lead, rest, rfl, hlead, hrest⟩ := h
  have hnone : object? rest = none := by
    cases rest with
    | nil => exact hread.nil
    | cons c rest => exact hread.eq_none_of_mark (hrest c rfl) rest
  have hstop : StopsBefore isBlank rest := by
    intro c hc
    rcases hrest c hc with rfl | rfl <;> decide
  cases hblanks : readBlanks? (lead ++ rest) with
  | none => rfl
  | some r =>
    -- there is one way to skip all blanks
    obtain ⟨gap, heq, -, hgap, hr⟩ := readBlanks?_eq_some_iff.mp hblanks
    obtain ⟨-, rfl⟩ := append_inj_of_stopsBefore hlead hgap hstop hr heq
    rw [Option.bind_some, hnone]

end MarkAhead

/-! ### Clauses -/

/-- A clause as written, with the semicolon in front of it. -/
structure Clause where
  /-- The blanks in front of the semicolon. -/
  lead : List Char
  /-- The blanks behind it. -/
  indent : List Char
  /-- The namespace name of the term, if it stands under one. -/
  qualifier : String
  /-- The term. -/
  term : Term
  /-- The blanks behind the term. -/
  gap : List Char
  /-- The object. -/
  object : List Char
  /-- There are only blanks in front of the semicolon. -/
  lead_blank : ∀ c ∈ lead, isBlank c = true
  /-- There are only blanks behind it. -/
  indent_blank : ∀ c ∈ indent, isBlank c = true
  /-- The namespace name has characters of names only. -/
  qualifier_name : ∀ c ∈ qualifier.toList, isNameChar c = true
  /-- There is a blank behind the term. -/
  gap_ne : gap ≠ []
  /-- There are only blanks behind the term. -/
  gap_blank : ∀ c ∈ gap, isBlank c = true
  /-- There is an object. -/
  object_ne : object ≠ []
  /-- It does not begin with a blank. -/
  object_stops : StopsBefore isBlank object

/-- Whether a namespace name goes on with another one behind a hyphen. -/
def GoesOnWith (q q' : String) : Prop := '-' :: q'.toList <:+ q.toList

instance (q q' : String) : Decidable (GoesOnWith q q') := inferInstanceAs (Decidable (_ <:+ _))

/-- Whether an accepted name stands at the end of a namespace name, where a word may begin. -/
def Qualifies (v : Vocabulary) (q : String) : Prop :=
  ∃ u p, q.toList = u ++ p ∧ v.accepts (String.ofList p) = true
    ∧ (u = [] ∨ u.getLast? = some '-')

/-- An accepted name stands at the end of those that are accepted and of those that go on with
one. -/
theorem qualifies_iff {v : Vocabulary} {q : String} : Qualifies v q ↔ v.accepts q = true
    ∨ ∃ q', GoesOnWith q q' ∧ v.accepts q' = true := by
  constructor
  · rintro ⟨u, p, hq, hp, rfl | hu⟩
    · rw [List.nil_append] at hq
      exact .inl (by rwa [← hq, String.ofList_toList] at hp)
    · obtain ⟨u, rfl⟩ := List.getLast?_eq_some_iff.mp hu
      exact .inr ⟨String.ofList p, ⟨u, by rw [hq, String.toList_ofList]; simp⟩, hp⟩
  · rintro (hq | ⟨q', ⟨u, hu⟩, hq'⟩)
    · exact ⟨[], q.toList, rfl, by rwa [String.ofList_toList], .inl rfl⟩
    · exact ⟨u ++ ['-'], q'.toList, by rw [← hu]; simp, by rwa [String.ofList_toList],
        .inr (by simp)⟩

/-! ### The terms of clauses -/

namespace Term

variable {t t' : Term} {v : Vocabulary} {w : List Char}

/-- No term ends with another one. -/
theorem eq_of_suffix_word (h : t.word.toList <:+ t'.word.toList) : t' = t := by
  have hall : ∀ t ∈ all, ∀ t' ∈ all, t.word.toList <:+ t'.word.toList → t' = t := by
    decide +kernel
  exact hall t t.mem_all t' t'.mem_all h

/-- A term under a namespace name is all of a text. -/
theorem read?_eq_some_nil_of_isExtension (ht : t.isExtension = true) :
    t.read? v w = some [] ↔ ∃ p, w = p ++ ':' :: t.word.toList
      ∧ (∀ c ∈ p, isNameChar c = true) ∧ v.accepts (String.ofList p) = true := by
  rw [read?, if_pos ht, Option.bind_eq_some_iff]
  constructor
  · rintro ⟨⟨p, rest⟩, hp, hrest⟩
    obtain ⟨rfl, hname, haccepts⟩ := Vocabulary.read?_eq_some_iff.mp hp
    obtain rfl := readWord?_eq_some_iff.mp hrest
    exact ⟨p, by rw [List.append_nil], hname, haccepts⟩
  · rintro ⟨p, rfl, hname, haccepts⟩
    exact ⟨(p, t.word.toList), Vocabulary.read?_eq_some_iff.mpr ⟨rfl, hname, haccepts⟩,
      readWord?_eq_some_iff.mpr (List.append_nil _).symm⟩

/-- Another term is all of a text if the text is its word. -/
theorem read?_eq_some_nil_of_not_isExtension (ht : ¬t.isExtension = true) :
    t.read? v w = some [] ↔ w = t.word.toList := by
  rw [read?, if_neg ht, readWord?_eq_some_iff, List.append_nil]

/-- A term that is all of a text ends with its word. -/
theorem suffix_of_read? (h : t.read? v w = some []) : t.word.toList <:+ w := by
  by_cases ht : t.isExtension = true
  · obtain ⟨p, rfl, -⟩ := (read?_eq_some_nil_of_isExtension ht).mp h
    exact ⟨p ++ [':'], by simp⟩
  · rw [(read?_eq_some_nil_of_not_isExtension ht).mp h]

/-- A term as written ends with its word. -/
theorem suffix_text (q : String) (t : Term) : t.word.toList <:+ t.text q := by
  rw [text]
  split
  · exact ⟨q.toList ++ [':'], by simp⟩
  · exact List.suffix_rfl

end Term

namespace Clause

variable (c : Clause)

/-- The term of a clause as written. -/
def termText : List Char := c.term.text c.qualifier

/-- What stands in front of the object of a clause. -/
def front : List Char := c.lead ++ ';' :: (c.indent ++ (c.termText ++ c.gap))

/-- A clause as written. -/
def text : List Char := c.front ++ c.object

/-- Whether a clause has the term of a search. -/
def Gives (v : Vocabulary) (t : Term) : Prop :=
  c.term = t ∧ (t.isExtension = true → Qualifies v c.qualifier)

theorem markAhead_text_append (y : List Char) : MarkAhead (c.text ++ y) :=
  ⟨c.lead, ';' :: (c.indent ++ (c.termText ++ c.gap) ++ (c.object ++ y)), by simp [text, front],
    c.lead_blank, by simp⟩

/-- A term as written has characters of terms only. -/
theorem isTermChar_of_mem_termText : ∀ d ∈ c.termText, isTermChar d = true := by
  intro d hd
  rw [termText, Term.text] at hd
  split at hd
  · rcases List.mem_append.mp hd with hd | hd
    · rw [isTermChar, c.qualifier_name d hd, Bool.true_or]
    · rcases List.mem_cons.mp hd with rfl | hd
      · rfl
      · exact c.term.isTermChar_of_mem_word d hd
  · exact c.term.isTermChar_of_mem_word d hd

/-- Only the object of a clause can have runs. -/
theorem segments_text_append (y : List Char) :
    segments (c.text ++ y) = c.front.map .plain ++ segments (c.object ++ y) := by
  have hopen : ∀ d ∈ c.front, ∀ r, opening d r = none := by
    intro d hd r
    by_cases hmark : d = ';'
    · subst hmark
      exact opening_eq_none_iff.mpr (by simp)
    · refine opening_of_isHeaderChar ?_ r
      simp only [front, List.mem_append, List.mem_cons, hmark, false_or] at hd
      rw [isHeaderChar, Bool.or_eq_true, ← isTermChar]
      rcases hd with hd | hd | hd | hd
      · exact .inr (c.lead_blank d hd)
      · exact .inr (c.indent_blank d hd)
      · exact .inl (c.isTermChar_of_mem_termText d hd)
      · exact .inr (c.gap_blank d hd)
  rw [text, List.append_assoc, segments_append_of_opening hopen]

/-- The object of a clause is behind the blanks. -/
theorem readBlanks?_gap_append (y : List Char) :
    readBlanks? (c.gap ++ (c.object ++ y)) = some (c.object ++ y) := by
  refine readBlanks?_eq_some_iff.mpr ⟨c.gap, rfl, c.gap_ne, c.gap_blank, ?_⟩
  intro d hd
  rw [List.head?_append, List.head?_eq_some_head c.object_ne, Option.some_or] at hd
  exact c.object_stops d (by rw [List.head?_eq_some_head c.object_ne, hd])

/-- **A clause has the term of a search exactly if the term stands at the end of its own**, where a
word may begin. -/
theorem gives_iff {v : Vocabulary} {t : Term} : c.Gives v t ↔ ∃ u w, c.termText = u ++ w
    ∧ inWordBehind false u = false ∧ t.read? v w = some [] := by
  constructor
  · rintro ⟨rfl, hq⟩
    by_cases ht : c.term.isExtension = true
    · obtain ⟨u, p, hup, hp, hu⟩ := hq ht
      refine ⟨u, p ++ ':' :: c.term.word.toList, ?_, ?_, ?_⟩
      · rw [termText, Term.text, if_pos ht, hup, List.append_assoc]
      · rcases hu with rfl | hu
        · rfl
        · rw [inWordBehind, hu]
          decide
      · exact (Term.read?_eq_some_nil_of_isExtension ht).mpr ⟨p, rfl,
          fun d hd => c.qualifier_name d (hup ▸ List.mem_append_right u hd), hp⟩
    · refine ⟨[], c.termText, rfl, rfl, (Term.read?_eq_some_nil_of_not_isExtension ht).mpr ?_⟩
      rw [termText, Term.text, if_neg ht]
  · rintro ⟨u, w, huw, hu, hread⟩
    -- both words stand at the end of the same text
    have hsuffix : t.word.toList <:+ c.termText :=
      (Term.suffix_of_read? hread).trans ⟨u, huw.symm⟩
    have hterm : c.term = t := by
      rcases List.suffix_or_suffix_of_suffix hsuffix (Term.suffix_text c.qualifier c.term) with
        h | h
      · exact Term.eq_of_suffix_word h
      · exact (Term.eq_of_suffix_word h).symm
    refine ⟨hterm, fun ht => ?_⟩
    obtain ⟨p, rfl, -, hp⟩ := (Term.read?_eq_some_nil_of_isExtension ht).mp hread
    rw [termText, hterm, Term.text, if_pos ht, ← List.append_assoc] at huw
    have hq := List.append_cancel_right huw
    refine ⟨u, p, hq, hp, ?_⟩
    -- what stands in front of a word that begins in a name is a hyphen
    rw [or_iff_not_imp_left]
    intro hne
    rw [inWordBehind, List.getLast?_eq_some_getLast hne] at hu
    have hu : Unicode.isWord (u.getLast hne) = false := hu
    have hlocal := isLocalChar_of_isNameChar
      (c.qualifier_name _ (hq ▸ List.mem_append_left p (List.getLast_mem hne)))
    rw [isLocalChar, hu, Bool.false_or, beq_iff_eq] at hlocal
    rw [List.getLast?_eq_some_getLast hne, hlocal]

/-! ### Searches -/

section Search

variable {v : Vocabulary} {t : Term} {α : Type} {object? : List Char → Option α}

/-- At a place of its term a clause has its object or nothing. -/
theorem objectAt?_append {u w : List Char} (hw : c.termText = u ++ w) (y : List Char) :
    objectAt? v t object? (w ++ (c.gap ++ (c.object ++ y)))
      = if t.read? v w = some [] then object? (c.object ++ y) else none := by
  have hstop : StopsBefore isTermChar (c.gap ++ (c.object ++ y)) := by
    intro d hd
    rw [List.head?_append, List.head?_eq_some_head c.gap_ne, Option.some_or] at hd
    exact isTermChar_eq_false_of_isBlank (c.gap_blank d (Option.some.inj hd ▸ List.head_mem _))
  rw [objectAt?, Term.read?_append hstop]
  cases hr : t.read? v w with
  | none => rfl
  | some r =>
    rw [Option.map_some, Option.bind_some]
    cases r with
    | nil => rw [if_pos rfl, List.nil_append, c.readBlanks?_gap_append, Option.bind_some]
    | cons d r =>
      -- the term ends inside a word
      obtain ⟨p, rfl, -⟩ := Term.exists_of_read? hr
      have hd : ¬isBlank d = true := fun hblank => by
        have := c.isTermChar_of_mem_termText d (by simp [hw])
        rw [isTermChar_eq_false_of_isBlank hblank] at this
        cases this
      rw [if_neg (by simp), List.cons_append, readBlanks?, if_neg hd, Option.bind_none]

/-- In the term of a clause the search finds the object, if the clause has the term. -/
theorem objectIn?_of_gives (hg : c.Gives v t) (y : List Char) :
    objectIn? v t object? false c.termText (c.gap ++ (c.object ++ y))
      = object? (c.object ++ y) := by
  obtain ⟨u, w, huw, hu, hread⟩ := c.gives_iff.mp hg
  refine objectIn?_of_forall v t object? (fun u' w' huw' _ _ => ?_)
    fun _ => ⟨u, w, huw, ?_, hu, ?_⟩
  · rw [c.objectAt?_append huw']
    split
    · exact .inr rfl
    · exact .inl rfl
  · rintro rfl
    cases t <;> cases hread
  · rw [c.objectAt?_append huw, if_pos hread]

/-- Otherwise it finds nothing. -/
theorem objectIn?_of_not_gives (hg : ¬c.Gives v t) (y : List Char) :
    objectIn? v t object? false c.termText (c.gap ++ (c.object ++ y)) = none := by
  refine objectIn?_of_forall v t object? (fun u w huw _ hu => .inl ?_) fun h => absurd rfl h
  rw [c.objectAt?_append huw, if_neg fun hread => hg (c.gives_iff.mpr ⟨u, w, huw, hu, hread⟩)]

/-- A clause is searched in its term, then in its object, then behind it. -/
theorem firstObject?_text_append (inWord : Bool) (y : List Char) :
    firstObject? v t object? inWord (c.text ++ y)
      = (objectIn? v t object? false c.termText (c.gap ++ (c.object ++ y))).or
        ((objectIn? v t object? false c.object y).or
          (firstObject? v t object? (inWordBehind false c.object) y)) := by
  have hr := t.nameReader v
  have htext : c.text ++ y = (c.lead ++ ';' :: c.indent)
      ++ (c.termText ++ (c.gap ++ (c.object ++ y))) := by
    simp [text, front]
  have hchars : ∀ d ∈ c.lead ++ ';' :: c.indent, isBlank d = true ∨ d = ';' := by
    intro d hd
    rcases List.mem_append.mp hd with hd | hd
    · exact .inl (c.lead_blank d hd)
    · exact (List.mem_cons.mp hd).symm.imp_left (c.indent_blank d)
  have hlead : Passes (t.read? v) object? (c.lead ++ ';' :: c.indent)
      (c.termText ++ (c.gap ++ (c.object ++ y))) := by
    refine .of_not_isTermChar hr (fun d hd => ?_) _
    rcases hchars d hd with hblank | rfl
    · exact isTermChar_eq_false_of_isBlank hblank
    · decide
  have hword : inWordBehind inWord (c.lead ++ ';' :: c.indent) = false := by
    refine inWordBehind_of_forall (by simp) (fun d hd => ?_) inWord
    rcases hchars d hd with hblank | rfl
    · exact Unicode.isWord_eq_false_of_isBlank hblank
    · decide
  have hgap : ∀ b, inWordBehind b c.gap = false := inWordBehind_of_forall c.gap_ne fun d hd =>
    Unicode.isWord_eq_false_of_isBlank (c.gap_blank d hd)
  rw [htext, firstObject?_of_passes hlead, hword, firstObject?_append,
    firstObject?_of_passes (.of_blank hr c.gap_blank _), hgap, firstObject?_append]

/-- **A clause with the term of a search gives its object.** -/
theorem firstObject?_of_gives (hg : c.Gives v t) (inWord : Bool) (y : List Char) :
    firstObject? v t object? inWord (c.text ++ y)
      = (object? (c.object ++ y)).or ((objectIn? v t object? false c.object y).or
        (firstObject? v t object? (inWordBehind false c.object) y)) := by
  rw [c.firstObject?_text_append, c.objectIn?_of_gives hg]

/-- **A clause with another term gives what is found in its object.** -/
theorem firstObject?_of_not_gives (hg : ¬c.Gives v t) (inWord : Bool) (y : List Char) :
    firstObject? v t object? inWord (c.text ++ y)
      = (objectIn? v t object? false c.object y).or
        (firstObject? v t object? (inWordBehind false c.object) y) := by
  rw [c.firstObject?_text_append, c.objectIn?_of_not_gives hg, Option.none_or]

end Search

end Clause

/-! ### Single clauses -/

/-- A clause with one blank wherever blanks can stand. -/
def Clause.spaced (q : String) (hq : ∀ d ∈ q.toList, isNameChar d = true) (t : Term)
    (object : List Char) (hne : object ≠ []) (hstops : StopsBefore isBlank object) : Clause where
  lead := [' ']
  indent := [' ']
  qualifier := q
  term := t
  gap := [' ']
  object := object
  lead_blank := List.forall_mem_singleton.mpr rfl
  indent_blank := List.forall_mem_singleton.mpr rfl
  qualifier_name := hq
  gap_ne := List.cons_ne_nil _ _
  gap_blank := List.forall_mem_singleton.mpr rfl
  object_ne := hne
  object_stops := hstops

/-- A property without attributes. -/
def bareProperty : List Char := "ex:p a owl:DatatypeProperty".toList

theorem settled_bareProperty (t : Term) : Settled .standard t (maskComments bareProperty) := by
  refine settled_of_forall_tails ?_
  cases t <;> decide +kernel

end FormOntology
