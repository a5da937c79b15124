import FormOntology.Proofs.Calendar.Spelling
import FormOntology.Proofs.Submission.Patterns

/-!
# Dates in the check of a submission

A field whose values are dates asks for a string and reads it as a date.  Dates are documented in
their plain spelling, but the reader takes any: a sign in front of the year, fewer digits, or blanks
in front of the month and the day.

## Main results

* `ValueRange.fits_date_iff` — the values that are dates.
* `fault?_date` — **a field of dates accepts a date of the calendar in any spelling, and calls
  everything else a value of the wrong kind; what it accepts is documented exactly if the spelling
  is plain.**
-/

namespace FormOntology

open Text

/-- The values that are dates, with their texts. -/
theorem ValueRange.fits_date_iff {value : Json} {text : List Char} (h : trimStart text = text) :
    ValueRange.date.fits value text = true ↔ (∃ s, value = .string s)
      ∧ ∃ w : Date.Spelling, w.Valid ∧ text = w.text ∧ w.date.IsValid := by
  cases value with
  | string s =>
    change (Date.parse? text).isSome = true ↔ _
    rw [Option.isSome_iff_exists]
    constructor
    · rintro ⟨d, hd⟩
      obtain ⟨w, hw, htext, rfl, hvalid⟩ := Date.parse?_eq_some_iff.mp hd
      exact ⟨⟨s, rfl⟩, w, hw, h ▸ htext, hvalid⟩
    · rintro ⟨-, w, hw, htext, hvalid⟩
      exact ⟨w.date, Date.parse?_eq_some_iff.mpr ⟨w, hw, h.trans htext, rfl, hvalid⟩⟩
  | _ => simp [fits]

section Date

variable [PatternLibrary] {f : Field} (hrange : f.valueType = .date) (hoptions : f.options = [])
  (hcontrol : f.control ≠ .email) (hpattern : f.validationPattern = none)
include hrange hoptions hcontrol hpattern

/-- A field of dates without further conditions looks at the kind of a value only. -/
theorem Field.textFault?_date (value : Json) (text : List Char) :
    f.textFault? value text = if ValueRange.date.fits value text then none
      else some (.wrongType f.label .date) := by
  by_cases hfits : ValueRange.date.fits value text = true
  · have hoffers : f.offers text = true := by simp [offers, hoptions]
    have hmatches : f.matchesPattern text = true := by simp [matchesPattern, hpattern]
    rw [if_pos hfits, textFault?_eq_none_iff, hrange]
    exact ⟨hfits, hoffers, fun hemail => absurd hemail hcontrol, hmatches⟩
  · rw [if_neg hfits, ← hrange]
    refine textFault?_of_not_fits ?_
    rw [hrange]
    simpa using hfits

/-- **A field of dates accepts a date of the calendar in any spelling, and calls everything else a
value of the wrong kind.**  What it accepts is documented exactly if the spelling is plain. -/
theorem fault?_date {value : Json} (hvalue : value.given ≠ .nothing) :
    (f.fault? (some value) = none ↔ ∃ s, value = .string s
        ∧ ∃ w : Date.Spelling, w.Valid ∧ trim s.toList = w.text ∧ w.date.IsValid)
      ∧ (∀ fault, f.fault? (some value) = some fault → fault.code = "invalid_type")
      ∧ (∀ s, value = .string s → Date.Documented (trim s.toList) → f.fault? (some value) = none)
      ∧ ∀ s (w : Date.Spelling), value = .string s → w.Valid → trim s.toList = w.text →
        w.date.IsValid → (Date.Documented (trim s.toList) ↔ w.Plain) := by
  have htrim : ∀ text, trimStart (trim text) = trim text := fun text =>
    trimStart_trimEnd_of_trimStart (trimStart_trimStart text)
  have htext := Field.textFault?_date hrange hoptions hcontrol hpattern value
  -- a value with one text is judged by its kind, and an array or an object has the wrong kind
  have hfault : f.fault? (some value) = match value.given with
      | .text text => if ValueRange.date.fits value text then none
        else some (.wrongType f.label .date)
      | _ => some (.composite f.label) := by
    rw [Field.fault?]
    cases hgiven : value.given with
    | nothing => exact absurd hgiven hvalue
    | composite => rfl
    | text text => exact htext text
  have haccepts : f.fault? (some value) = none ↔ ∃ s, value = .string s
      ∧ ∃ w : Date.Spelling, w.Valid ∧ trim s.toList = w.text ∧ w.date.IsValid := by
    rw [hfault]
    cases value with
    | string s =>
      have hgiven : (Json.string s).given = .text (trim s.toList) := by
        rw [Json.given] at hvalue ⊢
        split
        · next hblank => exact absurd (if_pos hblank) hvalue
        · rfl
      rw [hgiven]
      simp [ValueRange.fits_date_iff (htrim s.toList)]
    | null => exact absurd rfl hvalue
    | _ => simp [Json.given, ValueRange.fits]
  refine ⟨haccepts, ?_, ?_, ?_⟩
  · intro fault h
    rw [hfault] at h
    split at h
    · split at h
      · cases h
      · rw [← Option.some.inj h]
        rfl
    · rw [← Option.some.inj h]
      rfl
  · intro s hs hdocumented
    obtain ⟨w, hw, -, htext, hvalid⟩ := Date.documented_iff.mp hdocumented
    exact haccepts.mpr ⟨s, hs, w, hw, htext, hvalid⟩
  · intro s w _ hw htext hvalid
    rw [htext]
    exact Date.documented_text_iff hw hvalid

end Date

/-- A date of birth. -/
def birthField : Field where
  id := "dateOfBirth"
  label := "Date of birth"
  control := .date
  required := true
  helpText := none
  options := []
  inSection := .drivers
  conditionalDisplay := none
  valueType := .date
  validationPattern := none
  defaultValue := none
  source := ⟨"d.ttl", 1⟩

/-- A date with one digit for the month and one for the day. -/
def shortSpelling : Date.Spelling := ⟨.absent, "1990".toList, [], ['2'], [], ['8']⟩

/-- It is accepted, though it is not in the documented form. -/
theorem birthField_accepts_short : birthField.valueType = .date ∧ birthField.options = []
    ∧ birthField.control ≠ .email ∧ birthField.validationPattern = none
    ∧ (Json.string "1990-2-8").given ≠ .nothing
    ∧ birthField.fault? (some (.string "1990-2-8")) = none
    ∧ ¬Date.Documented (trim "1990-2-8".toList) := by
  have hgiven : (Json.string "1990-2-8").given ≠ .nothing := by decide
  have hshort : shortSpelling.Valid :=
    { year := by decide
      year_length := fun _ => by decide
      monthGap := List.all_eq_true.mp (by decide)
      month := by decide
      month_length := by decide
      dayGap := List.all_eq_true.mp (by decide)
      day := by decide
      day_length := by decide }
  have hvalid : shortSpelling.date.IsValid := by decide
  obtain ⟨haccepts, -, -, hplain⟩ :=
    fault?_date (f := birthField) rfl rfl (by decide) rfl hgiven
  refine ⟨rfl, rfl, by decide, rfl, hgiven, ?_, ?_⟩
  · exact haccepts.mpr ⟨_, rfl, shortSpelling, hshort, by decide, hvalid⟩
  · rw [hplain _ shortSpelling rfl hshort (by decide) hvalid]
    intro h
    exact absurd h.month (by decide)

end FormOntology
