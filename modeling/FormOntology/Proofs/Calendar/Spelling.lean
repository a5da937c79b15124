import Mathlib.Algebra.Group.Nat.Defs
import Mathlib.Data.List.Induction
import FormOntology.Calendar
import FormOntology.Proofs.Declaration.Header
import FormOntology.Proofs.Text.Blank

/-!
# How dates are written

The reader of dates takes a year, a month and a day as far as their digits go.  What it leaves open
is told by a *spelling*: a sign in front of the year, the number of digits, and blanks in front of
the month and the day.  The plain spelling has four digits, two and two and nothing else.

## Main definitions

* `Date.Spelling` — a date as written.
* `Date.Spelling.Valid`, `Date.Spelling.Plain` — the spellings that are read, and the plain ones.
* `Date.Documented` — whether a text is a date of the calendar in its plain spelling.

## Main results

* `Date.number?_eq_some_iff` — a number is read as far as its digits go.
* `Date.parse?_eq_some_iff` — **the dates that are read are those that the calendar has, in any
  spelling.**
* `Date.documented_text_iff` — a date of the calendar is documented exactly in its plain spelling.
-/

namespace FormOntology

open Text

namespace Date

/-! ### Numbers -/

/-- The number that digits stand for. -/
def numeral (digits : List Char) : Nat := digits.foldl (fun n c => 10 * n + (c.toNat - 48)) 0

/-- A number as written: digits, at least one. -/
structure IsNumber (digits : List Char) : Prop where
  /-- There is a digit. -/
  ne_nil : digits ≠ []
  /-- There are only digits. -/
  isDigit : ∀ c ∈ digits, c.isDigit = true

instance (digits : List Char) : Decidable (IsNumber digits) :=
  decidable_of_iff (digits ≠ [] ∧ digits.all Char.isDigit = true)
    ⟨fun h => ⟨h.1, List.all_eq_true.mp h.2⟩, fun h => ⟨h.1, List.all_eq_true.mpr h.2⟩⟩

/-- A number has as many places as digits. -/
theorem numeral_lt {digits : List Char} (h : ∀ c ∈ digits, c.isDigit = true) :
    numeral digits < 10 ^ digits.length := by
  induction digits using List.reverseRecOn with
  | nil => decide
  | append_singleton digits c ih =>
    have hc : c.toNat - 48 ≤ 9 := by
      have hdigit := h c (by simp)
      simp only [Char.isDigit, Bool.and_eq_true, decide_eq_true_eq] at hdigit
      have hle : c.val.toNat ≤ 57 := hdigit.2
      change c.val.toNat - 48 ≤ 9
      omega
    have hrest := ih fun d hd => h d (by simp [hd])
    rw [numeral, List.foldl_append, List.length_append, Nat.pow_add]
    rw [numeral] at hrest
    simp only [List.foldl_cons, List.foldl_nil, List.length_cons, List.length_nil]
    omega

/-- The leading digits of a text are a part of it. -/
theorem leadingDigits_append_eq (most : Nat) (text : List Char) :
    (leadingDigits most text).1 ++ (leadingDigits most text).2 = text := by
  fun_induction leadingDigits most text with
  | case3 most c r _ ih => rw [List.cons_append, ih]
  | _ => rfl

theorem isDigit_of_mem_leadingDigits {most : Nat} {text : List Char} :
    ∀ c ∈ (leadingDigits most text).1, c.isDigit = true := by
  fun_induction leadingDigits most text with
  | case3 most c r hc ih => exact List.forall_mem_cons.mpr ⟨hc, ih⟩
  | _ => simp

theorem length_leadingDigits_le (most : Nat) (text : List Char) :
    (leadingDigits most text).1.length ≤ most := by
  fun_induction leadingDigits most text with
  | case3 most c r _ ih => exact Nat.succ_le_succ ih
  | _ => simp

/-- Digits are taken off as far as they go, if there are not too many. -/
theorem leadingDigits_append {most : Nat} {digits rest : List Char}
    (h : ∀ c ∈ digits, c.isDigit = true) (hlen : digits.length ≤ most)
    (hrest : StopsBefore Char.isDigit rest) :
    leadingDigits most (digits ++ rest) = (digits, rest) := by
  induction digits generalizing most with
  | nil =>
    cases rest with
    | nil => cases most <;> rfl
    | cons c rest =>
      cases most with
      | zero => rfl
      | succ most =>
        rw [List.nil_append, leadingDigits, stopsBefore_cons.mp hrest,
          if_neg Bool.false_ne_true]
  | cons c digits ih =>
    cases most with
    | zero => simp at hlen
    | succ most =>
      rw [List.cons_append, leadingDigits, if_pos (h c (List.mem_cons_self ..)),
        ih (fun d hd => h d (List.mem_cons_of_mem _ hd)) (Nat.le_of_succ_le_succ hlen)]

/-- **A number is read as far as its digits go**, if there are not too many. -/
theorem number?_eq_some_iff {most : Nat} {text rest : List Char} {n : Nat}
    (hrest : StopsBefore Char.isDigit rest) :
    number? most text = some (n, rest) ↔ ∃ digits, text = digits ++ rest ∧ IsNumber digits
      ∧ digits.length ≤ most ∧ numeral digits = n := by
  constructor
  · intro h
    have htext := leadingDigits_append_eq most text
    have hdigits := @isDigit_of_mem_leadingDigits most text
    have hlen := length_leadingDigits_le most text
    unfold number? at h
    split at h
    · cases h
    · next digits rest' hne heq =>
      obtain ⟨rfl, rfl⟩ := Prod.mk.inj (Option.some.inj h)
      rw [heq] at htext hdigits hlen
      exact ⟨digits, htext.symm, ⟨fun hnil => hne (hnil ▸ rfl), hdigits⟩, hlen, rfl⟩
  · rintro ⟨digits, rfl, hdigits, hlen, rfl⟩
    obtain ⟨c, r, rfl⟩ := List.exists_cons_of_ne_nil hdigits.ne_nil
    rw [number?, leadingDigits_append hdigits.isDigit hlen hrest]
    rfl

/-! ### Spellings -/

/-- What stands in front of a year. -/
inductive YearSign where
  /-- No sign. -/
  | absent
  /-- A plus sign. -/
  | plus
  /-- A minus sign. -/
  | minus
  deriving DecidableEq, Repr

/-- A sign as written. -/
def YearSign.text : YearSign → List Char
  | absent => []
  | plus => ['+']
  | minus => ['-']

/-- The year of a sign and a number. -/
def YearSign.year : YearSign → Nat → Int
  | absent, n => n
  | plus, n => n
  | minus, n => -n

/-- A date as written. -/
structure Spelling where
  /-- The sign of the year. -/
  sign : YearSign
  /-- The digits of the year. -/
  year : List Char
  /-- The blanks in front of the month. -/
  monthGap : List Char
  /-- The digits of the month. -/
  month : List Char
  /-- The blanks in front of the day. -/
  dayGap : List Char
  /-- The digits of the day. -/
  day : List Char
  deriving DecidableEq, Repr

namespace Spelling

/-- The text of a spelling. -/
def text (s : Spelling) : List Char :=
  s.sign.text ++ (s.year ++ '-' :: (s.monthGap ++ (s.month ++ '-' :: (s.dayGap ++ s.day))))

/-- The date of a spelling. -/
def date (s : Spelling) : Date :=
  ⟨s.sign.year (numeral s.year), numeral s.month, numeral s.day⟩

/-- The spellings that are read. -/
structure Valid (s : Spelling) : Prop where
  /-- The year is a number. -/
  year : IsNumber s.year
  /-- Without a sign it has at most four digits. -/
  year_length : s.sign = .absent → s.year.length ≤ 4
  /-- There are only blanks in front of the month. -/
  monthGap : ∀ c ∈ s.monthGap, isBlank c = true
  /-- The month is a number. -/
  month : IsNumber s.month
  /-- It has one digit or two. -/
  month_length : s.month.length ≤ 2
  /-- There are only blanks in front of the day. -/
  dayGap : ∀ c ∈ s.dayGap, isBlank c = true
  /-- The day is a number. -/
  day : IsNumber s.day
  /-- It has one digit or two. -/
  day_length : s.day.length ≤ 2

/-- The plain spelling: no sign, no blanks, and four digits, two and two. -/
structure Plain (s : Spelling) : Prop where
  /-- There is no sign. -/
  sign : s.sign = .absent
  /-- The year has four digits. -/
  year : s.year.length = 4
  /-- There are no blanks in front of the month. -/
  monthGap : s.monthGap = []
  /-- The month has two digits. -/
  month : s.month.length = 2
  /-- There are no blanks in front of the day. -/
  dayGap : s.dayGap = []
  /-- The day has two digits. -/
  day : s.day.length = 2

end Spelling

/-! ### Reading -/

/-- A blank is no digit. -/
theorem isDigit_eq_false_of_isBlank {c : Char} (h : isBlank c = true) : c.isDigit = false := by
  have hname := isNameChar_eq_false_of_isBlank h
  simp only [isNameChar, Char.isAlphanum, Bool.or_eq_false_iff] at hname
  exact hname.1.1.2

/-- A number does not begin with a blank. -/
theorem IsNumber.stopsBefore_append {digits : List Char} (h : IsNumber digits)
    (rest : List Char) : StopsBefore isBlank (digits ++ rest) := by
  obtain ⟨c, r, rfl⟩ := List.exists_cons_of_ne_nil h.ne_nil
  refine stopsBefore_cons.mpr ?_
  rw [← Bool.not_eq_true]
  intro hblank
  have hc := h.isDigit c (List.mem_cons_self ..)
  simp [isDigit_eq_false_of_isBlank hblank] at hc

/-- Blanks in front of a number are skipped. -/
theorem IsNumber.trimStart_append {digits : List Char} (h : IsNumber digits) {gap : List Char}
    (hgap : ∀ c ∈ gap, isBlank c = true) (rest : List Char) :
    trimStart (gap ++ (digits ++ rest)) = digits ++ rest :=
  dropWhile_append_of_stopsBefore hgap (h.stopsBefore_append rest)

/-- A text is its leading blanks and what is left of it. -/
theorem exists_append_trimStart (text : List Char) :
    ∃ gap, text = gap ++ trimStart text ∧ ∀ c ∈ gap, isBlank c = true :=
  ⟨text.takeWhile isBlank, List.takeWhile_append_dropWhile.symm,
    fun c hc => List.all_eq_true.mp List.all_takeWhile c hc⟩

/-- A month or a day is a hyphen, blanks and a number of one digit or two. -/
theorem nextNumber?_eq_some_iff {text rest : List Char} {n : Nat}
    (hrest : StopsBefore Char.isDigit rest) :
    nextNumber? text = some (n, rest) ↔ ∃ gap digits, text = '-' :: (gap ++ (digits ++ rest))
      ∧ (∀ c ∈ gap, isBlank c = true) ∧ IsNumber digits ∧ digits.length ≤ 2
      ∧ numeral digits = n := by
  constructor
  · intro h
    cases text with
    | nil => cases h
    | cons c r =>
      rw [nextNumber?] at h
      split at h
      · next hc =>
        obtain ⟨digits, htext, hdigits, hlen, hn⟩ := (number?_eq_some_iff hrest).mp h
        obtain ⟨gap, hr, hgap⟩ := exists_append_trimStart r
        exact ⟨gap, digits, by rw [hc, ← htext, ← hr], hgap, hdigits, hlen, hn⟩
      · cases h
  · rintro ⟨gap, digits, rfl, hgap, hdigits, hlen, rfl⟩
    rw [nextNumber?, if_pos rfl, hdigits.trimStart_append hgap]
    exact (number?_eq_some_iff hrest).mpr ⟨digits, rfl, hdigits, hlen, rfl⟩

/-- A number that is read and changed to a year. -/
theorem exists_digits_of_map_number? {f : Nat → Int} {most : Nat} {text rest : List Char}
    {year : Int} (hrest : StopsBefore Char.isDigit rest)
    (h : (number? most text).map (fun p => (f p.1, p.2)) = some (year, rest)) :
    ∃ digits, text = digits ++ rest ∧ IsNumber digits ∧ digits.length ≤ most
      ∧ f (numeral digits) = year := by
  obtain ⟨⟨n, rest'⟩, hn, heq⟩ := Option.map_eq_some_iff.mp h
  obtain ⟨rfl, rfl⟩ := Prod.mk.inj heq
  obtain ⟨digits, htext, hdigits, hlen, rfl⟩ := (number?_eq_some_iff hrest).mp hn
  exact ⟨digits, htext, hdigits, hlen, rfl⟩

/-- A year is a number, which has a sign or at most four digits. -/
theorem year?_eq_some_iff {text rest : List Char} {year : Int}
    (hrest : StopsBefore Char.isDigit rest) :
    year? text = some (year, rest) ↔ ∃ (sign : YearSign) (digits : List Char),
      trimStart text = sign.text ++ (digits ++ rest) ∧ IsNumber digits
        ∧ (sign = .absent → digits.length ≤ 4) ∧ sign.year (numeral digits) = year := by
  constructor
  · intro h
    unfold year? at h
    split at h
    · cases h
    · next c r hr =>
      split at h
      · next hc =>
        obtain ⟨digits, rfl, hdigits, -, hyear⟩ :=
          exists_digits_of_map_number? (f := fun n => -n) hrest h
        exact ⟨.minus, digits, by rw [hr, hc]; rfl, hdigits, by simp, hyear⟩
      split at h
      · next hc =>
        obtain ⟨digits, rfl, hdigits, -, hyear⟩ :=
          exists_digits_of_map_number? (f := fun n => n) hrest h
        exact ⟨.plus, digits, by rw [hr, hc]; rfl, hdigits, by simp, hyear⟩
      · obtain ⟨digits, hcr, hdigits, hlen, hyear⟩ :=
          exists_digits_of_map_number? (f := fun n => n) hrest h
        exact ⟨.absent, digits, by rw [hr, hcr]; rfl, hdigits, fun _ => hlen, hyear⟩
  · rintro ⟨sign, digits, htext, hdigits, hlen, rfl⟩
    have hread : ∀ most, digits.length ≤ most →
        number? most (digits ++ rest) = some (numeral digits, rest) := fun most hmost =>
      (number?_eq_some_iff hrest).mpr ⟨digits, rfl, hdigits, hmost, rfl⟩
    cases sign with
    | minus =>
      have htext : trimStart text = '-' :: (digits ++ rest) := htext
      simp only [year?, htext, if_true, hread _ (by simp : digits.length ≤ (digits ++ rest).length)]
      rfl
    | plus =>
      have htext : trimStart text = '+' :: (digits ++ rest) := htext
      have hne : '+' ≠ '-' := by decide
      simp only [year?, htext, if_neg hne, if_true,
        hread _ (by simp : digits.length ≤ (digits ++ rest).length)]
      rfl
    | absent =>
      obtain ⟨c, r, rfl⟩ := List.exists_cons_of_ne_nil hdigits.ne_nil
      have hc := hdigits.isDigit c (List.mem_cons_self ..)
      have hminus : c ≠ '-' := by
        rintro rfl
        cases hc
      have hplus : c ≠ '+' := by
        rintro rfl
        cases hc
      have htext : trimStart text = c :: (r ++ rest) := htext
      simp only [year?, htext, if_neg hminus, if_neg hplus]
      rw [← List.cons_append, hread 4 (hlen rfl)]
      rfl

/-- What is read as a month or a day begins with a hyphen. -/
theorem stopsBefore_of_nextNumber? {text : List Char} {p : Nat × List Char}
    (h : nextNumber? text = some p) : StopsBefore Char.isDigit text := by
  cases text with
  | nil => cases h
  | cons c r =>
    rw [nextNumber?] at h
    split at h
    · next hc =>
      rw [hc]
      exact stopsBefore_cons.mpr rfl
    · cases h

/-- **The dates that are read are those that the calendar has, in any spelling.** -/
theorem parse?_eq_some_iff {text : List Char} {d : Date} : parse? text = some d
    ↔ ∃ s : Spelling, s.Valid ∧ trimStart text = s.text ∧ s.date = d ∧ d.IsValid := by
  have hhyphen : ∀ r, StopsBefore Char.isDigit ('-' :: r) := fun r => stopsBefore_cons.mpr rfl
  have hend := stopsBefore_nil Char.isDigit
  constructor
  · intro h
    simp only [parse?, Option.bind_eq_bind, Option.bind_eq_some_iff] at h
    obtain ⟨⟨year, r₁⟩, hyear, ⟨month, r₂⟩, hmonth, ⟨day, r₃⟩, hday, h⟩ := h
    split at h
    · next hvalid =>
      obtain rfl := Option.some.inj h
      obtain rfl : r₃ = [] := List.isEmpty_iff.mp hvalid.1
      have hr₁ := stopsBefore_of_nextNumber? hmonth
      have hr₂ := stopsBefore_of_nextNumber? hday
      obtain ⟨sign, y, htext, hy, hylen, rfl⟩ := (year?_eq_some_iff hr₁).mp hyear
      obtain ⟨monthGap, m, rfl, hmonthGap, hm, hmlen, rfl⟩ :=
        (nextNumber?_eq_some_iff hr₂).mp hmonth
      obtain ⟨dayGap, e, rfl, hdayGap, he, helen, rfl⟩ := (nextNumber?_eq_some_iff hend).mp hday
      refine ⟨⟨sign, y, monthGap, m, dayGap, e⟩,
        ⟨hy, hylen, hmonthGap, hm, hmlen, hdayGap, he, helen⟩, ?_, rfl, hvalid.2⟩
      rw [htext, List.append_nil]
      rfl
    · cases h
  · rintro ⟨s, hs, htext, rfl, hvalid⟩
    have hyear := (year?_eq_some_iff (hhyphen _)).mpr
      ⟨s.sign, s.year, htext, hs.year, hs.year_length, rfl⟩
    have hmonth := (nextNumber?_eq_some_iff (hhyphen (s.dayGap ++ s.day))).mpr
      ⟨s.monthGap, s.month, rfl, hs.monthGap, hs.month, hs.month_length, rfl⟩
    have hday := (nextNumber?_eq_some_iff hend).mpr
      ⟨s.dayGap, s.day, by rw [List.append_nil], hs.dayGap, hs.day, hs.day_length, rfl⟩
    simp only [parse?, Option.bind_eq_bind, hyear, Option.bind_some, hmonth, hday]
    exact if_pos ⟨rfl, hvalid⟩

/-! ### The plain spelling -/

/-- Whether a text is a date of the calendar as it is documented: four digits, a hyphen, two
digits, a hyphen and two digits. -/
def Documented (text : List Char) : Prop :=
  ∃ year month day : List Char, text = year ++ '-' :: (month ++ '-' :: day)
    ∧ year.length = 4 ∧ month.length = 2 ∧ day.length = 2
    ∧ (∀ c ∈ year ++ month ++ day, c.isDigit = true)
    ∧ 1 ≤ numeral day ∧ numeral day ≤ daysOf (numeral year) (numeral month)

namespace Spelling

/-- A plain spelling of numbers is read. -/
theorem Plain.valid {s : Spelling} (hs : s.Plain)
    (h : ∀ c ∈ s.year ++ s.month ++ s.day, c.isDigit = true) : s.Valid where
  year := ⟨List.ne_nil_of_length_pos (by rw [hs.year]; decide), fun c hc => h c (by simp [hc])⟩
  year_length _ := Nat.le_of_eq hs.year
  monthGap := by simp [hs.monthGap]
  month := ⟨List.ne_nil_of_length_pos (by rw [hs.month]; decide), fun c hc => h c (by simp [hc])⟩
  month_length := Nat.le_of_eq hs.month
  dayGap := by simp [hs.dayGap]
  day := ⟨List.ne_nil_of_length_pos (by rw [hs.day]; decide), fun c hc => h c (by simp [hc])⟩
  day_length := Nat.le_of_eq hs.day

/-- The sign of a spelling is what its text begins with. -/
theorem Valid.head?_text {s : Spelling} (hs : s.Valid) :
    (s.text.head? = some '+' ↔ s.sign = .plus) ∧ (s.text.head? = some '-' ↔ s.sign = .minus) := by
  obtain ⟨c, r, hyear⟩ := List.exists_cons_of_ne_nil hs.year.ne_nil
  have hc : c.isDigit = true := hs.year.isDigit c (by simp [hyear])
  have hplus : c ≠ '+' := by
    rintro rfl
    cases hc
  have hminus : c ≠ '-' := by
    rintro rfl
    cases hc
  cases hsign : s.sign <;> simp [text, hsign, YearSign.text, hyear, hplus, hminus]

/-- **A text has one spelling.** -/
theorem text_inj {s s' : Spelling} (hs : s.Valid) (hs' : s'.Valid) (h : s.text = s'.text) :
    s = s' := by
  have hhyphen : ∀ r, StopsBefore Char.isDigit ('-' :: r) := fun r => stopsBefore_cons.mpr rfl
  have hsign : s.sign = s'.sign := by
    have hplus := hs.head?_text.1.symm.trans (h ▸ hs'.head?_text.1)
    have hminus := hs.head?_text.2.symm.trans (h ▸ hs'.head?_text.2)
    revert hplus hminus
    cases s.sign <;> cases s'.sign <;> simp
  obtain ⟨sign, year, monthGap, month, dayGap, day⟩ := s
  obtain ⟨sign', year', monthGap', month', dayGap', day'⟩ := s'
  obtain rfl : sign = sign' := hsign
  have h := List.append_cancel_left h
  obtain ⟨rfl, h⟩ := append_inj_of_stopsBefore hs.year.isDigit hs'.year.isDigit (hhyphen _)
    (hhyphen _) h
  obtain ⟨rfl, h⟩ := append_inj_of_stopsBefore hs.monthGap hs'.monthGap
    (hs.month.stopsBefore_append _) (hs'.month.stopsBefore_append _) (List.cons.inj h).2
  obtain ⟨rfl, h⟩ := append_inj_of_stopsBefore hs.month.isDigit hs'.month.isDigit (hhyphen _)
    (hhyphen _) h
  obtain ⟨rfl, rfl⟩ := append_inj_of_stopsBefore hs.dayGap hs'.dayGap
    (by simpa using hs.day.stopsBefore_append []) (by simpa using hs'.day.stopsBefore_append [])
    (List.cons.inj h).2
  rfl

end Spelling

/-- A date is documented exactly in a plain spelling. -/
theorem documented_iff {text : List Char} : Documented text
    ↔ ∃ s : Spelling, s.Valid ∧ s.Plain ∧ text = s.text ∧ s.date.IsValid := by
  constructor
  · rintro ⟨year, month, day, rfl, hyear, hmonth, hday, hdigit, hlow, hhigh⟩
    have hplain : Spelling.Plain ⟨.absent, year, [], month, [], day⟩ :=
      ⟨rfl, hyear, rfl, hmonth, rfl, hday⟩
    -- a year of four digits is one of the calendar
    have hlt : numeral year < 10 ^ year.length := numeral_lt fun c hc => hdigit c (by simp [hc])
    rw [hyear] at hlt
    refine ⟨_, hplain.valid hdigit, hplain, rfl, ?_, ?_, hlow, hhigh⟩
    · show firstYear ≤ (numeral year : Int)
      unfold firstYear
      omega
    · show (numeral year : Int) ≤ lastYear
      unfold lastYear
      omega
  · rintro ⟨s, hs, hplain, rfl, -, -, hlow, hhigh⟩
    obtain ⟨sign, year, monthGap, month, dayGap, day⟩ := s
    obtain rfl : sign = .absent := hplain.sign
    obtain rfl : monthGap = [] := hplain.monthGap
    obtain rfl : dayGap = [] := hplain.dayGap
    refine ⟨year, month, day, rfl, hplain.year, hplain.month, hplain.day, ?_, hlow, hhigh⟩
    intro c hc
    simp only [List.mem_append] at hc
    rcases hc with (hc | hc) | hc
    · exact hs.year.isDigit c hc
    · exact hs.month.isDigit c hc
    · exact hs.day.isDigit c hc

/-- **A date of the calendar is documented exactly in its plain spelling.** -/
theorem documented_text_iff {s : Spelling} (hs : s.Valid) (hdate : s.date.IsValid) :
    Documented s.text ↔ s.Plain := by
  rw [documented_iff]
  constructor
  · rintro ⟨s', hs', hplain, htext, -⟩
    rwa [Spelling.text_inj hs hs' htext]
  · intro hplain
    exact ⟨s, hs, hplain, rfl, hdate⟩

end Date

end FormOntology
