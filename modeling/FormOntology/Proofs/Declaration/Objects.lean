import FormOntology.Proofs.Declaration.Header
import FormOntology.Proofs.Declaration.Search
import FormOntology.Proofs.Text.Blank
import FormOntology.Proofs.Turtle.Bodies
import FormOntology.Proofs.Turtle.Masking
import FormOntology.Proofs.Unicode.Words

/-!
# Objects in longer texts

A name and a truth value end where the word ends, so what follows a word does not count.  Blanks
at the end of a text never count, whatever the reader.

## Main results

* `name?_append`, `flag?_append` — names and truth values in longer texts.
* `firstObject?_append_of_blank` — blanks at the end of a text do not count in the search.
* `AttributeSet.extract_trimEnd` — **a text has the attributes that it has without the blanks at
  its end.**
-/

namespace FormOntology

open Text Turtle

/-! ### Names and truth values -/

theorem drop_length_takeWhile (p : Char → Bool) (x : List Char) :
    x.drop (x.takeWhile p).length = x.dropWhile p := by
  have h : (x.takeWhile p ++ x.dropWhile p).drop (x.takeWhile p).length = x.dropWhile p :=
    List.drop_left
  rwa [List.takeWhile_append_dropWhile] at h

/-- No blank stands in a name. -/
theorem isLocalChar_eq_false_of_isBlank {c : Char} (h : isBlank c = true) :
    isLocalChar c = false := by
  rw [isLocalChar, Unicode.isWord_eq_false_of_isBlank h, Bool.false_or, beq_eq_false_iff_ne]
  rintro rfl
  exact absurd h (by decide)

theorem isNameStart_eq_false_of_isBlank {c : Char} (h : isBlank c = true) :
    isNameStart c = false := by
  rw [← Bool.not_eq_true]
  intro hstart
  simpa [isNameChar_of_isNameStart hstart] using isNameChar_eq_false_of_isBlank h

/-- The characters of namespace names and identifiers can stand in a local name. -/
theorem isLocalChar_of_isNameChar {c : Char} (h : isNameChar c = true) : isLocalChar c = true := by
  have hascii : c.isAlphanum = true → c.toNat < 128 := by
    intro halnum
    have hle : ∀ d : Char, d.toNat < 128 → c.val ≤ d.val → c.toNat < 128 := fun d hd hc =>
      Nat.lt_of_le_of_lt (UInt32.le_iff_toNat_le.mp hc) hd
    have halnum : (c.isUpper || c.isLower || c.isDigit) = true := halnum
    simp only [Bool.or_eq_true] at halnum
    -- each class of characters is an interval
    rcases halnum with (h | h) | h
    · have h : c.val ≥ 'A'.val ∧ c.val ≤ 'Z'.val := of_decide_eq_true h
      exact hle 'Z' (by decide) h.2
    · have h : (decide (c.val ≥ 'a'.val) && decide (c.val ≤ 'z'.val)) = true := h
      exact hle 'z' (by decide) (of_decide_eq_true (Bool.and_eq_true_iff.mp h).2)
    · have h : (decide (c.val ≥ '0'.val) && decide (c.val ≤ '9'.val)) = true := h
      exact hle '9' (by decide) (of_decide_eq_true (Bool.and_eq_true_iff.mp h).2)
  simp only [isNameChar, Bool.or_eq_true, beq_iff_eq] at h
  rcases h with (h | rfl) | rfl
  · rw [isLocalChar, Unicode.isWord_of_isAlphanum h (hascii h), Bool.true_or]
  · decide
  · decide

/-- The name that begins with `word`, with what stands behind it. -/
def nameFrom? (word : List Char) : List Char → Option (List Char)
  | ':' :: rest => some (word ++ ':' :: rest.takeWhile isLocalChar)
  | _ => some word

theorem nameFrom?_of_ne {d : Char} (hd : d ≠ ':') (word rest : List Char) :
    nameFrom? word (d :: rest) = some word := by
  simp [nameFrom?, hd]

/-- A name that is no IRI is a word, or two with a colon between them. -/
theorem name?_word {c : Char} (hc : c ≠ '<') (r : List Char) :
    name? (c :: r) = if isNameStart c then
      nameFrom? (c :: r.takeWhile isLocalChar) (r.dropWhile isLocalChar) else none := by
  rw [name?, if_neg hc, ← drop_length_takeWhile]
  rfl

/-- The characters of a name between angle brackets. -/
def isBracketChar (c : Char) : Bool := c ≠ '>' && !isBlank c

theorem name?_bracket (r : List Char) :
    name? ('<' :: r) = if (r.dropWhile isBracketChar).head? = some '>'
      then some ('<' :: r.takeWhile isBracketChar ++ ['>']) else none := by
  rw [name?, if_pos rfl]
  simp only [← drop_length_takeWhile]
  rfl

/-- A name is read without what follows, if no word goes on there.  What stands between angle
brackets is left to the caller. -/
theorem name?_append {o y : List Char} (ho : o ≠ []) (hword : StopsBefore isLocalChar y)
    (hcolon : y.head? ≠ some ':')
    (hbracket : ∀ r, o = '<' :: r → name? ('<' :: (r ++ y)) = name? ('<' :: r)) :
    name? (o ++ y) = name? o := by
  obtain ⟨c, r, rfl⟩ := List.exists_cons_of_ne_nil ho
  by_cases hc : c = '<'
  · subst hc
    exact hbracket r rfl
  · rw [List.cons_append, name?_word hc, name?_word hc, takeWhile_append_of_stops hword,
      dropWhile_append_of_stops hword]
    cases r.dropWhile isLocalChar with
    | nil =>
      rw [List.nil_append]
      cases y with
      | nil => rfl
      | cons d y =>
        have hd : d ≠ ':' := by simpa using hcolon
        rw [nameFrom?_of_ne hd]
        rfl
    | cons d rest =>
      by_cases hd : d = ':'
      · simp [hd, nameFrom?, takeWhile_append_of_stops hword]
      · rw [List.cons_append, nameFrom?_of_ne hd, nameFrom?_of_ne hd]

/-- A name between angle brackets is an IRI. -/
theorem iriTail?_of_bracket {p : List Char} (hp : ∀ c ∈ p, isBracketChar c = true)
    (q : List Char) : iriTail? (p ++ '>' :: q) = some (p.length + 1) := by
  induction p with
  | nil => simp
  | cons c p ih =>
    have hc := hp c (List.mem_cons_self ..)
    simp only [isBracketChar, Bool.and_eq_true, decide_eq_true_eq, Bool.not_eq_true'] at hc
    have hblank : ¬isAsciiBlank c = true := fun hb => by simp [isBlank_of_isAsciiBlank hb] at hc
    rw [List.cons_append, iriTail?_cons hc.1 hblank,
      ih fun d hd => hp d (List.mem_cons_of_mem _ hd)]
    rfl

/-- A name between angle brackets is read without what follows, if an IRI is. -/
theorem name?_bracket_append {r z : List Char} (h : iriTail? (r ++ z) = iriTail? r) :
    name? ('<' :: (r ++ z)) = name? ('<' :: r) := by
  have hall : ∀ c ∈ r.takeWhile isBracketChar, isBracketChar c = true := fun c hc =>
    List.all_eq_true.mp List.all_takeWhile c hc
  have hsplit : r.takeWhile isBracketChar ++ r.dropWhile isBracketChar = r :=
    List.takeWhile_append_dropWhile
  cases hdrop : r.dropWhile isBracketChar with
  | nil =>
    rw [hdrop, List.append_nil] at hsplit
    rw [hsplit] at hall
    have hnone : name? ('<' :: r) = none := by
      rw [name?_bracket, hdrop]
      rfl
    rw [hnone, name?_bracket, if_neg]
    intro hclose
    obtain ⟨q, hq⟩ := List.head?_eq_some_iff.mp hclose
    have hz := List.takeWhile_append_dropWhile (p := isBracketChar) (l := r ++ z)
    rw [hq] at hz
    rw [← hz, iriTail?_of_bracket fun c hc => List.all_eq_true.mp List.all_takeWhile c hc] at h
    obtain ⟨u, w, rfl, -⟩ := iriTail?_eq_some h.symm
    exact absurd (hall '>' (by simp)) (by decide)
  | cons d q =>
    have hstop : ∀ w, StopsBefore isBracketChar (d :: w) := fun w => by
      have := stopsBefore_dropWhile isBracketChar r
      rw [hdrop] at this
      simpa using this
    rw [hdrop] at hsplit
    rw [name?_bracket, name?_bracket, hdrop, ← hsplit, List.append_assoc, List.cons_append,
      takeWhile_append_of_stopsBefore hall (hstop _),
      dropWhile_append_of_stopsBefore hall (hstop _),
      takeWhile_append_of_stopsBefore hall (hstop _)]
    rfl

/-- The truth value at the start of a text without a quote in front of it. -/
def flagWord? (text : List Char) : Option Bool :=
  match readWord? "true".toList text, readWord? "false".toList text with
  | some rest, _ => if startsOutsideWord rest then some true else none
  | none, some rest => if startsOutsideWord rest then some false else none
  | none, none => none

theorem flag?_of_ne {text : List Char} (h : text.head? ≠ some '"') :
    flag? text = flagWord? text := by
  rw [flag?, if_neg h]
  rfl

section Flag

variable {y : List Char} (hterm : StopsBefore isTermChar y) (hword : startsOutsideWord y = true)
include hterm hword

theorem flagWord?_append (o : List Char) : flagWord? (o ++ y) = flagWord? o := by
  have hend : ∀ rest, startsOutsideWord (rest ++ y) = startsOutsideWord rest := by
    intro rest
    cases rest with
    | nil => exact hword
    | cons d rest => rfl
  have hchars : "true".toList.all isTermChar = true ∧ "false".toList.all isTermChar = true := by
    decide
  have htrue := readWord?_append_of_stopsBefore (List.all_eq_true.mp hchars.1) hterm o
  have hfalse := readWord?_append_of_stopsBefore (List.all_eq_true.mp hchars.2) hterm o
  rw [flagWord?, htrue, hfalse, flagWord?]
  cases readWord? "true".toList o <;> cases readWord? "false".toList o <;> simp [hend]

/-- A truth value is read without what follows, if no word goes on there. -/
theorem flag?_append {o : List Char} (ho : o = [] → y.head? ≠ some '"') :
    flag? (o ++ y) = flag? o := by
  cases o with
  | nil =>
    rw [List.nil_append, flag?_of_ne (ho rfl), flag?_of_ne (by simp)]
    exact flagWord?_append hterm hword []
  | cons c r =>
    by_cases hc : c = '"'
    · subst hc
      exact flagWord?_append hterm hword r
    · rw [flag?_of_ne (by simpa using hc), flag?_of_ne (by simpa using hc)]
      exact flagWord?_append hterm hword (c :: r)

end Flag

/-! ### Blanks at the end -/

theorem Term.ReadBy.nil {t : Term} {α : Type} {object? : List Char → Option α}
    (h : t.ReadBy object?) : object? [] = none := by
  cases h <;> rfl

/-- No object begins with the mark behind a clause. -/
theorem Term.ReadBy.eq_none_of_mark {t : Term} {α : Type} {object? : List Char → Option α}
    (h : t.ReadBy object?) {c : Char} (hc : c = ';' ∨ c = '.') (z : List Char) :
    object? (c :: z) = none := by
  rcases hc with rfl | rfl <;> cases h <;> rfl

section Blanks

variable {y : List Char} (hy : ∀ d ∈ y, isBlank d = true)
include hy

theorem stopsBefore_of_blank {p : Char → Bool} (hp : ∀ c, isBlank c = true → p c = false) :
    StopsBefore p y := fun c hc => hp c (hy c (List.mem_of_head? hc))

theorem stopsBefore_isTermChar_of_blank : StopsBefore isTermChar y :=
  stopsBefore_of_blank hy fun c hc => by
    rw [isTermChar, isNameChar_eq_false_of_isBlank hc, Bool.false_or, beq_eq_false_iff_ne]
    rintro rfl
    exact absurd hc (by decide)

theorem name?_append_of_blank (o : List Char) : name? (o ++ y) = name? o := by
  have hmem : ∀ c, isBlank c = false → y.head? ≠ some c := fun c hc h => by
    simp [hy c (List.mem_of_head? h)] at hc
  by_cases ho : o = []
  · subst ho
    cases y with
    | nil => rfl
    | cons d y =>
      have hd := isNameStart_eq_false_of_isBlank (hy d (List.mem_cons_self ..))
      have hlt : d ≠ '<' := fun h => hmem '<' (by decide) (by rw [h]; rfl)
      rw [List.nil_append, name?_word hlt, hd]
      rfl
  · refine name?_append ho ?_ (hmem ':' (by decide)) fun r _ => ?_
    · exact stopsBefore_of_blank hy fun c hc => isLocalChar_eq_false_of_isBlank hc
    · have hstop : StopsBefore isBracketChar y := stopsBefore_of_blank hy fun c hc => by
        simp [isBracketChar, hc]
      rw [name?_bracket, name?_bracket, takeWhile_append_of_stops hstop,
        dropWhile_append_of_stops hstop, List.head?_append]
      cases (r.dropWhile isBracketChar).head? with
      | none => rw [Option.none_or, if_neg (hmem '>' (by decide)), if_neg (by simp)]
      | some d => rfl

/-- No reader reads on in blanks. -/
theorem Term.ReadBy.append_of_blank {t : Term} {α : Type} {object? : List Char → Option α}
    (h : t.ReadBy object?) (o : List Char) : object? (o ++ y) = object? o := by
  have hmem : ∀ c, isBlank c = false → c ∉ y := fun c hc hin => by simp [hy c hin] at hc
  cases h
  case domain | range => exact name?_append_of_blank hy o
  case required =>
    refine flag?_append (stopsBefore_isTermChar_of_blank hy) ?_ (fun _ hq => ?_)
    · exact startsOutsideWord_iff.mpr
        (stopsBefore_of_blank hy fun c hc => Unicode.isWord_eq_false_of_isBlank hc)
    · exact hmem '"' (by decide) (List.mem_of_head? hq)
  case enumeration =>
    exact listBody?_append_of_notMem (hmem ')' (by decide)) (hmem '(' (by decide)) o
  all_goals exact literalBody?_append_of_notMem (hmem '"' (by decide)) o

/-- Blanks at the end of a text give a term no object. -/
theorem objectAt?_append_of_blank {t : Term} {α : Type} {object? : List Char → Option α}
    (h : t.ReadBy object?) (v : Vocabulary) (text : List Char) :
    objectAt? v t object? (text ++ y) = objectAt? v t object? text := by
  rw [objectAt?, Term.read?_append (stopsBefore_isTermChar_of_blank hy), objectAt?]
  cases t.read? v text with
  | none => rfl
  | some r =>
    rw [Option.map_some, Option.bind_some, Option.bind_some]
    cases r with
    | nil =>
      rw [List.nil_append]
      cases y with
      | nil => rfl
      | cons d y =>
        have hblank : trimStart y = [] :=
          trimStart_of_blank fun c hc => hy c (List.mem_cons_of_mem _ hc)
        rw [readBlanks?, readBlanks?, if_pos (hy d (List.mem_cons_self ..)), hblank,
          Option.bind_some, h.nil, Option.bind_none]
    | cons c r =>
      rw [List.cons_append, readBlanks?, readBlanks?]
      split
      · rw [Option.bind_some, Option.bind_some, trimStart, List.dropWhile_append]
        split
        · next hnil =>
          rw [← trimStart, trimStart_of_blank hy, trimStart, List.isEmpty_iff.mp hnil]
        · exact h.append_of_blank hy _
      · rfl

/-- There is no object in blanks. -/
theorem firstObject?_of_blank {t : Term} {α : Type} {object? : List Char → Option α}
    (h : t.ReadBy object?) (v : Vocabulary) (inWord : Bool) :
    firstObject? v t object? inWord y = none := by
  induction y generalizing inWord with
  | nil => rfl
  | cons d y ih =>
    have hnone : objectAt? v t object? (d :: y) = none :=
      (objectAt?_append_of_blank hy h v []).trans (objectAt?_nil v t object?)
    rw [firstObject?_cons, hnone, ih fun c hc => hy c (List.mem_cons_of_mem _ hc)]
    cases inWord <;> rfl

/-- **Blanks at the end of a text do not count in the search.** -/
theorem firstObject?_append_of_blank {t : Term} {α : Type} {object? : List Char → Option α}
    (h : t.ReadBy object?) (v : Vocabulary) (inWord : Bool) (x : List Char) :
    firstObject? v t object? inWord (x ++ y) = firstObject? v t object? inWord x := by
  rw [firstObject?_append, firstObject?_of_blank hy h, Option.or_none,
    objectIn?_eq_firstObject? v t object? fun _ w _ _ _ => objectAt?_append_of_blank hy h v w]

theorem AttributeSet.ofMasked_append_of_blank (v : Vocabulary) (x : List Char) :
    ofMasked v (x ++ y) = ofMasked v x :=
  ofMasked_congr fun _ _ _ h => firstObject?_append_of_blank hy h v false x

end Blanks

/-- **A text has the attributes that it has without the blanks at its end.** -/
theorem AttributeSet.extract_trimEnd (v : Vocabulary) (text : List Char) :
    extract v (trimEnd text) = extract v text := by
  obtain ⟨y, htext, hy⟩ := trimEnd_prefix text
  obtain ⟨z, hz, hblank⟩ := maskComments_append_of_blank hy (trimEnd text)
  rw [← htext] at hz
  rw [extract, extract, hz, ofMasked_append_of_blank hblank]

end FormOntology
