import Mathlib.Data.Bool.AllAny
import FormOntology.Decimal.Number
import FormOntology.Proofs.Calendar.Spelling
import FormOntology.Proofs.Json.Reading
import FormOntology.Proofs.Text.Blank

/-!
# Printed numbers

A JSON number is printed with digits, perhaps behind a minus sign, and what follows the digits, if
anything, is a point or an exponent.  So it has no blanks, and as a hyphen follows the year of a
date, it is never read as a date.

## Main definitions

* `IsUnsigned` — the form of a printed number without its sign.
* `behindDigits` — what stands behind the sign and the first digits of a text.

## Main results

* `Decimal.isUnsigned_chars`, `JsonNumber.exists_isUnsigned` — numbers are printed in this form.
* `Date.parse?_chars` — **a printed number is no date.**
-/

namespace FormOntology

open Text

/-! ### Digits -/

theorem isBlank_eq_false_of_isDigit {c : Char} (h : c.isDigit = true) : isBlank c = false := by
  rw [← Bool.not_eq_true]
  intro hblank
  rw [Date.isDigit_eq_false_of_isBlank hblank] at h
  cases h

theorem isNumber_toDigits (n : Nat) : Date.IsNumber (Nat.toDigits 10 n) where
  ne_nil := Nat.toDigits_ne_nil
  isDigit _ hc := Nat.isDigit_of_mem_toDigits (by decide) (by decide) hc

/-! ### The form of a number -/

/-- A number without a sign as it is printed: digits, and behind them nothing or what begins with a
point or an exponent. -/
def IsUnsigned (text : List Char) : Prop :=
  ∃ digits rest, text = digits ++ rest ∧ Date.IsNumber digits
    ∧ (∀ c, rest.head? = some c → c = '.' ∨ c = 'e') ∧ ∀ c ∈ rest, isBlank c = false

namespace Decimal

variable (d : Decimal)

/-- The digits of a decimal are a number. -/
theorem isNumber_digitChars : Date.IsNumber d.digitChars := by
  have hrepr : (toString d.digits).toList = Nat.toDigits 10 d.digits := by
    rw [Nat.toString_eq_repr, Nat.toList_repr]
  rw [digitChars, hrepr]
  refine ⟨List.append_ne_nil_of_right_ne_nil _ Nat.toDigits_ne_nil, fun c hc => ?_⟩
  rcases List.mem_append.mp hc with hc | hc
  · rw [List.eq_of_mem_replicate hc]
    rfl
  · exact (isNumber_toDigits _).isDigit c hc

/-- A digit, perhaps with a point and digits behind it, can stand in front of an exponent. -/
theorem isUnsigned_mantissa {c : Char} {r exponent : List Char} (h : Date.IsNumber (c :: r))
    (hexponent : ∀ e ∈ 'e' :: exponent, isBlank e = false) :
    IsUnsigned (c :: 'e' :: exponent) ∧ IsUnsigned (c :: '.' :: r ++ 'e' :: exponent) := by
  obtain ⟨hc, hr⟩ := List.forall_mem_cons.mp h.isDigit
  have hone : Date.IsNumber [c] := ⟨by simp, by simpa using hc⟩
  refine ⟨⟨[c], _, rfl, hone, by simp, hexponent⟩, [c], _, rfl, hone, by simp, ?_⟩
  refine List.forall_mem_cons.mpr ⟨by decide, fun e he => ?_⟩
  exact (List.mem_append.mp he).elim (isBlank_eq_false_of_isDigit <| hr e ·) (hexponent e)

/-- An exponent has no blanks. -/
theorem isBlank_eq_false_of_mem_exponent (n : Int) :
    ∀ c ∈ 'e' :: (if n < 0 then '-' else '+') :: (toString n.natAbs).toList, isBlank c = false := by
  rw [Nat.toString_eq_repr, Nat.toList_repr]
  refine List.forall_mem_cons.mpr ⟨by decide, List.forall_mem_cons.mpr ⟨?_, fun c hc => ?_⟩⟩
  · split <;> decide
  · exact isBlank_eq_false_of_isDigit ((isNumber_toDigits _).isDigit c hc)

/-- A decimal is printed as digits, and then nothing, a point or an exponent. -/
theorem isUnsigned_chars : IsUnsigned d.chars := by
  obtain ⟨hne, hdigit⟩ := d.isNumber_digitChars
  have hzeros : ∀ n, ∀ c ∈ List.replicate n '0', c.isDigit = true := fun n c hc => by
    rw [List.eq_of_mem_replicate hc]
    rfl
  have hblank : ∀ c ∈ d.digitChars, isBlank c = false := fun c hc =>
    isBlank_eq_false_of_isDigit (hdigit c hc)
  simp only [chars]
  split
  · next hpoint =>
    split
    · -- all digits stand in front of the point
      refine ⟨_, _, rfl, ⟨by simp [hne], ?_⟩, by simp,
        List.all_iff_forall_prop.mp (by decide)⟩
      intro c hc
      exact (List.mem_append.mp hc).elim (hdigit c) (hzeros _ c)
    · -- the point stands behind a digit, as the exponent is not negative
      have hpos : 0 < d.point.toNat := by
        simp only [Bool.and_eq_true, decide_eq_true_eq] at hpoint
        omega
      refine ⟨_, _, rfl, ⟨by simp [hne]; omega, ?_⟩, by simp, ?_⟩
      · exact fun c hc => hdigit c (List.mem_of_mem_take hc)
      · exact List.forall_mem_cons.mpr ⟨by decide, fun c hc => hblank c (List.mem_of_mem_drop hc)⟩
  split
  · -- the point stands behind a zero
    refine ⟨['0'], _, rfl, by decide, by simp, ?_⟩
    refine List.forall_mem_cons.mpr ⟨by decide, fun c hc => ?_⟩
    exact (List.mem_append.mp hc).elim (isBlank_eq_false_of_isDigit <| hzeros _ c ·) (hblank c)
  · have hexponent := isBlank_eq_false_of_mem_exponent (d.point - 1)
    have hds := d.isNumber_digitChars
    obtain ⟨c, r, hcr⟩ := List.exists_cons_of_ne_nil hne
    rw [hcr] at hds ⊢
    cases r with
    | nil => exact (isUnsigned_mantissa hds hexponent).1
    | cons e r => exact (isUnsigned_mantissa hds hexponent).2

end Decimal

/-- A JSON number is printed with a minus sign or without a sign. -/
theorem JsonNumber.exists_isUnsigned (n : JsonNumber) :
    ∃ sign text, n.chars = sign ++ text ∧ (sign = [] ∨ sign = ['-']) ∧ IsUnsigned text := by
  cases n with
  | int n =>
    have hdigits : IsUnsigned (Nat.toDigits 10 n.natAbs) :=
      ⟨_, [], (List.append_nil _).symm, isNumber_toDigits _, by simp, by simp⟩
    rw [chars_int]
    split
    · exact ⟨['-'], _, rfl, .inr rfl, hdigits⟩
    · exact ⟨[], _, rfl, .inl rfl, hdigits⟩
  | double x =>
    refine ⟨_, _, rfl, ?_, x.magnitude.shortest.isUnsigned_chars⟩
    split
    · exact .inr rfl
    · exact .inl rfl

/-- A printed number has no blanks. -/
theorem JsonNumber.isBlank_of_mem_chars {n : JsonNumber} : ∀ c ∈ n.chars, isBlank c = false := by
  obtain ⟨sign, _, hn, hsign, digits, rest, rfl, hdigits, -, hrest⟩ := n.exists_isUnsigned
  rw [hn]
  intro c hc
  rcases List.mem_append.mp hc with hc | hc
  · rcases hsign with rfl | rfl
    · cases hc
    · rw [List.mem_singleton.mp hc]
      rfl
  rcases List.mem_append.mp hc with hc | hc
  · exact isBlank_eq_false_of_isDigit (hdigits.isDigit c hc)
  · exact hrest c hc

theorem JsonNumber.chars_ne_nil (n : JsonNumber) : n.chars ≠ [] := by
  obtain ⟨sign, _, hn, -, digits, rest, rfl, hdigits, -⟩ := n.exists_isUnsigned
  simp [hn, hdigits.ne_nil]

/-! ### Dates -/

/-- What stands behind the sign and the first digits of a text. -/
def behindDigits (text : List Char) : List Char := (splitSign text).2.dropWhile Char.isDigit

/-- A text that does not begin with a sign. -/
theorem splitSign_of_isNumber {digits : List Char} (h : Date.IsNumber digits) (rest : List Char) :
    splitSign (digits ++ rest) = (false, digits ++ rest) := by
  obtain ⟨c, r, rfl⟩ := List.exists_cons_of_ne_nil h.ne_nil
  have hc := h.isDigit c (List.mem_cons_self ..)
  rw [List.cons_append, splitSign]
  · rintro r' heq
    rw [(List.cons.inj heq).1] at hc
    cases hc
  · rintro r' heq
    rw [(List.cons.inj heq).1] at hc
    cases hc

theorem behindDigits_append {sign digits rest : List Char}
    (hsign : sign = [] ∨ sign = ['-'] ∨ sign = ['+']) (h : Date.IsNumber digits)
    (hrest : StopsBefore Char.isDigit rest) : behindDigits (sign ++ (digits ++ rest)) = rest := by
  have hdrop : (digits ++ rest).dropWhile Char.isDigit = rest :=
    dropWhile_append_of_stopsBefore h.isDigit hrest
  rcases hsign with rfl | rfl | rfl
  · rw [List.nil_append, behindDigits, splitSign_of_isNumber h]
    exact hdrop
  · exact hdrop
  · exact hdrop

/-- A hyphen stands behind the year of a date. -/
theorem Date.Spelling.Valid.behindDigits_text {s : Date.Spelling} (h : s.Valid) :
    (behindDigits s.text).head? = some '-' := by
  have hsign : s.sign.text = [] ∨ s.sign.text = ['-'] ∨ s.sign.text = ['+'] := by
    cases s.sign with
    | absent => exact .inl rfl
    | minus => exact .inr (.inl rfl)
    | plus => exact .inr (.inr rfl)
  rw [Date.Spelling.text, behindDigits_append hsign h.year (stopsBefore_cons.mpr rfl)]
  rfl

/-- **A printed number is no date.** -/
theorem Date.parse?_chars (n : JsonNumber) : Date.parse? n.chars = none := by
  have hstart : trimStart n.chars = n.chars := trimStart_eq_self_iff.mpr fun c hc =>
    n.isBlank_of_mem_chars c (List.mem_of_mem_head? hc)
  obtain ⟨sign, _, hn, hsign, digits, rest, rfl, hdigits, hrest, -⟩ := n.exists_isUnsigned
  have hstop : StopsBefore Char.isDigit rest := fun c hc => by
    rcases hrest c hc with rfl | rfl <;> rfl
  have hbehind : behindDigits n.chars = rest := by
    rw [hn]
    exact behindDigits_append (hsign.imp_right .inl) hdigits hstop
  rw [Option.eq_none_iff_forall_ne_some]
  intro d hd
  obtain ⟨s, hs, htext, -, -⟩ := Date.parse?_eq_some_iff.mp hd
  have hhyphen := hs.behindDigits_text
  rw [← htext, hstart, hbehind] at hhyphen
  rcases hrest _ hhyphen with h | h <;> cases h

end FormOntology
