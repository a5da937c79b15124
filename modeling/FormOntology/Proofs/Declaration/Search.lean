import FormOntology.Declaration.Attributes
import FormOntology.Proofs.Declaration.Tokens

/-!
# Searching for objects

The search for the object of a term tries one place after the other.  A text can be cut anywhere:
what begins in front of the cut is found first, but it may be read from what stands on both sides.

## Main definitions

* `objectAt?` — the object of a term that stands at the start of a text.
* `objectIn?` — the first object whose term begins in the first part of a text.
* `Term.ReadBy` — the reader of the objects of each term.

## Main results

* `firstObject?_append` — the search of a text that is cut.
* `objectIn?_eq_firstObject?` — what begins in front of the cut is what is found without the rest,
  if no object reads on behind the cut.
* `objectIn?_of_forall` — what is found where all places have the same object.
* `AttributeSet.ofMasked_congr` — attributes depend on the objects found and on nothing else.
-/

namespace FormOntology

open Text Turtle

section Search

variable {α : Type} (v : Vocabulary) (t : Term) (object? : List Char → Option α)

/-- The object of the term `t` that stands at the start of a text. -/
def objectAt? (text : List Char) : Option α := ((t.read? v text).bind readBlanks?).bind object?

/-- Whether a character of words stands at the end of `x`, or in front of it if it is empty. -/
def inWordBehind (inWord : Bool) (x : List Char) : Bool :=
  match x.getLast? with
  | none => inWord
  | some c => Unicode.isWord c

/-- The first object whose term begins in `x`, in the text `x ++ y`. -/
def objectIn? : (inWord : Bool) → List Char → List Char → Option α
  | _, [], _ => none
  | inWord, c :: x, y =>
    (if inWord then none else objectAt? v t object? (c :: x ++ y)).or
      (objectIn? (Unicode.isWord c) x y)

@[simp] theorem inWordBehind_nil (inWord : Bool) : inWordBehind inWord [] = inWord := rfl

@[simp] theorem inWordBehind_cons (inWord : Bool) (c : Char) (x : List Char) :
    inWordBehind inWord (c :: x) = inWordBehind (Unicode.isWord c) x := by
  rw [inWordBehind, inWordBehind, List.getLast?_cons]
  cases x.getLast? <;> rfl

/-- A text without characters of words does not end in a word. -/
theorem inWordBehind_of_forall {x : List Char} (hne : x ≠ [])
    (hx : ∀ c ∈ x, Unicode.isWord c = false) (inWord : Bool) : inWordBehind inWord x = false := by
  rw [inWordBehind, List.getLast?_eq_some_getLast hne]
  exact hx _ (List.getLast_mem hne)

@[simp] theorem firstObject?_nil (inWord : Bool) : firstObject? v t object? inWord [] = none := rfl

theorem objectAt?_nil : objectAt? v t object? [] = none := by
  cases t <;> rfl

/-- The search tries the start of a text and then goes on with the next character. -/
theorem firstObject?_cons (inWord : Bool) (c : Char) (r : List Char) :
    firstObject? v t object? inWord (c :: r)
      = (if inWord then none else objectAt? v t object? (c :: r)).or
        (firstObject? v t object? (Unicode.isWord c) r) := by
  rw [firstObject?, objectAt?]
  split
  · next h => rw [h, Option.some_or]
  · next h => rw [h, Option.none_or]

/-- **A cut text is searched from cut to cut.** -/
theorem firstObject?_append (inWord : Bool) (x y : List Char) :
    firstObject? v t object? inWord (x ++ y) = (objectIn? v t object? inWord x y).or
      (firstObject? v t object? (inWordBehind inWord x) y) := by
  induction x generalizing inWord with
  | nil => rfl
  | cons c x ih =>
    rw [List.cons_append, firstObject?_cons, ih, objectIn?, List.cons_append, Option.or_assoc,
      inWordBehind_cons]

/-- What begins in the first part is found without the rest, if it is read without the rest. -/
theorem objectIn?_eq_firstObject? {inWord : Bool} {x y : List Char}
    (h : ∀ u w, x = u ++ w → w ≠ [] → inWordBehind inWord u = false →
      objectAt? v t object? (w ++ y) = objectAt? v t object? w) :
    objectIn? v t object? inWord x y = firstObject? v t object? inWord x := by
  induction x generalizing inWord with
  | nil => rfl
  | cons c x ih =>
    rw [objectIn?, firstObject?_cons, ih fun u w hx hw hu =>
      h (c :: u) w (by rw [hx]; rfl) hw (by rwa [inWordBehind_cons])]
    cases inWord with
    | true => rfl
    | false =>
      rw [if_neg Bool.false_ne_true, if_neg Bool.false_ne_true,
        h [] (c :: x) rfl (List.cons_ne_nil c x) rfl]

/-- What begins in the first part of a text is `a`, if that is read wherever anything is. -/
theorem objectIn?_of_forall {inWord : Bool} {x y : List Char} {a : Option α}
    (hall : ∀ u w, x = u ++ w → w ≠ [] → inWordBehind inWord u = false →
      objectAt? v t object? (w ++ y) = none ∨ objectAt? v t object? (w ++ y) = a)
    (hex : a ≠ none → ∃ u w, x = u ++ w ∧ w ≠ [] ∧ inWordBehind inWord u = false
      ∧ objectAt? v t object? (w ++ y) = a) :
    objectIn? v t object? inWord x y = a := by
  induction x generalizing inWord with
  | nil =>
    cases a with
    | none => rfl
    | some a =>
      obtain ⟨u, w, huw, hw, -⟩ := hex (Option.some_ne_none a)
      exact absurd (List.append_eq_nil_iff.mp huw.symm).2 hw
  | cons d x ih =>
    have hrest : ∀ u w, x = u ++ w → w ≠ [] → inWordBehind (Unicode.isWord d) u = false →
        objectAt? v t object? (w ++ y) = none ∨ objectAt? v t object? (w ++ y) = a :=
      fun u w huw hw hu => hall (d :: u) w (by rw [huw]; rfl) hw (by rwa [inWordBehind_cons])
    rw [objectIn?]
    by_cases hhere : (if inWord then none else objectAt? v t object? (d :: x ++ y)) = a
    · rw [hhere]
      cases a with
      | some a => rfl
      | none => exact ih hrest fun h => absurd rfl h
    · have hnone : (if inWord then none else objectAt? v t object? (d :: x ++ y)) = none := by
        cases inWord with
        | true => rfl
        | false => exact (hall [] (d :: x) rfl (List.cons_ne_nil d x) rfl).resolve_right hhere
      rw [hnone, Option.none_or]
      refine ih hrest fun ha => ?_
      obtain ⟨u, w, huw, hw, hu, hobject⟩ := hex ha
      cases u with
      | nil =>
        obtain rfl : d :: x = w := huw
        obtain rfl : inWord = false := hu
        exact absurd hobject hhere
      | cons e u =>
        obtain ⟨rfl, hx⟩ := List.cons.inj huw
        exact ⟨u, w, hx, hw, by rwa [inWordBehind_cons] at hu, hobject⟩

end Search

/-! ### The readers of terms -/

/-- Whether a character can stand in a term. -/
def isTermChar (c : Char) : Bool := isNameChar c || c == ':'

/-- A fixed word is read without what follows, if no character of it does. -/
theorem readWord?_append_of_stopsBefore {p : Char → Bool} {word : List Char}
    (hword : ∀ c ∈ word, p c = true) {y : List Char} (hy : StopsBefore p y) (text : List Char) :
    readWord? word (text ++ y) = (readWord? word text).map (· ++ y) := by
  induction word generalizing text with
  | nil => rfl
  | cons w ws ih =>
    cases text with
    | nil =>
      cases y with
      | nil => rfl
      | cons d y =>
        have hd : d ≠ w := by
          rintro rfl
          simp [hword d (List.mem_cons_self ..)] at hy
        rw [List.nil_append, readWord?, readWord?, if_neg hd]
        rfl
    | cons c r =>
      have hws : ∀ e ∈ ws, p e = true := fun e he => hword e (List.mem_cons_of_mem _ he)
      rw [List.cons_append, readWord?, readWord?, ih hws]
      split <;> rfl

/-- Terms have characters of terms only. -/
theorem Term.isTermChar_of_mem_word (t : Term) : ∀ c ∈ t.word.toList, isTermChar c = true := by
  have hall : t.word.toList.all isTermChar = true := by
    cases t <;> decide
  exact List.all_eq_true.mp hall

section Term

variable {y : List Char} (hy : StopsBefore isTermChar y)
include hy

/-- A namespace name is read without what follows, if no character of a term does. -/
theorem Vocabulary.read?_append (v : Vocabulary) (text : List Char) :
    v.read? (text ++ y) = (v.read? text).map fun (name, rest) => (name, rest ++ y) := by
  have hname : StopsBefore isNameChar y := fun c hc =>
    (Bool.or_eq_false_iff.mp (hy c hc)).1
  rw [read?, takeWhile_append_of_stops hname, dropWhile_append_of_stops hname, read?]
  cases text.dropWhile isNameChar with
  | nil =>
    rw [List.nil_append]
    split
    · exact absurd (hy ':' rfl) (by decide)
    · rfl
  | cons c rest =>
    rw [List.cons_append]
    by_cases hc : c = ':'
    · subst hc
      by_cases hv : v.accepts (String.ofList (text.takeWhile isNameChar)) = true <;> simp [hv]
    · split
      · next h => exact absurd (List.cons.inj h).1 hc
      · split
        · next h => exact absurd (List.cons.inj h).1 hc
        · rfl

/-- A term is read without what follows, if no character of a term does. -/
theorem Term.read?_append (t : Term) (v : Vocabulary) (text : List Char) :
    t.read? v (text ++ y) = (t.read? v text).map (· ++ y) := by
  have hword := t.isTermChar_of_mem_word
  rw [read?, read?]
  split
  · rw [Vocabulary.read?_append hy]
    cases v.read? text with
    | none => rfl
    | some p => exact readWord?_append_of_stopsBefore hword hy p.2
  · exact readWord?_append_of_stopsBefore hword hy text

end Term

/-! ### The readers of objects -/

/-- How the object of each term is read. -/
inductive Term.ReadBy : Term → {α : Type} → (List Char → Option α) → Prop where
  /-- A label is a literal. -/
  | label : ReadBy .label literalBody?
  /-- A class is a name. -/
  | domain : ReadBy .domain name?
  /-- A range is a name. -/
  | range : ReadBy .range name?
  /-- Whether a value must be given is a truth value. -/
  | required : ReadBy .required flag?
  /-- A help text is a literal. -/
  | helpText : ReadBy .helpText literalBody?
  /-- An enumeration is a list. -/
  | enumeration : ReadBy .enumeration listBody?
  /-- A condition is a literal. -/
  | conditionalDisplay : ReadBy .conditionalDisplay literalBody?
  /-- A pattern is a literal. -/
  | validationPattern : ReadBy .validationPattern literalBody?
  /-- A default value is a literal. -/
  | defaultValue : ReadBy .defaultValue literalBody?
  /-- The name of a control is a literal. -/
  | formType : ReadBy .formType literalBody?

/-- **Attributes depend on the objects found and on nothing else.** -/
theorem AttributeSet.ofMasked_congr {v : Vocabulary} {x y : List Char}
    (h : ∀ (t : Term) {α : Type} (object? : List Char → Option α), t.ReadBy object? →
      firstObject? v t object? false x = firstObject? v t object? false y) :
    ofMasked v x = ofMasked v y := by
  simp only [ofMasked, literalOf?, h _ _ .label, h _ _ .domain, h _ _ .range, h _ _ .required,
    h _ _ .helpText, h _ _ .enumeration, h _ _ .conditionalDisplay, h _ _ .validationPattern,
    h _ _ .defaultValue, h _ _ .formType]

end FormOntology
