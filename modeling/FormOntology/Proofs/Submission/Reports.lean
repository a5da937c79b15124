import FormOntology.Proofs.Submission.Patterns
import FormOntology.Proofs.Text.Bytes

/-!
# The report on a submission

What the check of a submission against a compiled schema reports: the values that belong to no
field, in the order of their keys, and then for each field of the section, in its order, the one
fault of its value.  No name is reported twice, and no value bears on the error of another field.

## Main definitions

* `MailAddress` — the form of a mail address.
* `GivesNothing` — a value that is missing, null or blank.
* `Field.Accepts` — what a field accepts.

## Main results

* `isEmail_iff` — the test for mail addresses finds exactly their form.
* `fault?_eq_none_iff_accepts` — a field of a compiled schema finds no fault with what it accepts.
* `check_report` — **the report is valid exactly if all values belong to fields and every field
  accepts its value; its errors are ordered, named once and independent of each other.**
-/

namespace FormOntology

open PatternLibrary

/-! ### Mail addresses -/

/-- A mail address has something in front of its `@`, and behind it something, a full stop and
something; none of these has a blank or another `@`. -/
def MailAddress (text : List Char) : Prop :=
  ∃ user host top : List Char, text = user ++ '@' :: (host ++ '.' :: top)
    ∧ user ≠ [] ∧ host ≠ [] ∧ top ≠ []
    ∧ ∀ c ∈ user ++ host ++ top, c ≠ '@' ∧ Text.isBlank c = false

theorem isEmailChar_iff {c : Char} :
    isEmailChar c = true ↔ c ≠ '@' ∧ Text.isBlank c = false := by
  simp [isEmailChar]

/-- A full stop inside a text has something on either side. -/
theorem mem_dropLast_drop_iff {c : Char} {text : List Char} :
    c ∈ (text.drop 1).dropLast
      ↔ ∃ x y : List Char, text = x ++ c :: y ∧ x ≠ [] ∧ y ≠ [] := by
  constructor
  · intro h
    cases text with
    | nil => simp at h
    | cons a r =>
      have hr : r ≠ [] := by
        rintro rfl
        simp at h
      obtain ⟨x, y, hxy⟩ := List.append_of_mem (show c ∈ r.dropLast from h)
      refine ⟨a :: x, y ++ [r.getLast hr], ?_, by simp, by simp⟩
      have hlast := List.dropLast_append_getLast hr
      rw [hxy] at hlast
      exact (congrArg (a :: ·) hlast.symm).trans (by simp)
  · rintro ⟨x, y, rfl, hx, hy⟩
    obtain ⟨a, x, rfl⟩ := List.exists_cons_of_ne_nil hx
    have hdrop : (a :: x ++ c :: y).drop 1 = x ++ c :: y := rfl
    rw [hdrop, List.dropLast_append_of_ne_nil (List.cons_ne_nil c y),
      List.dropLast_cons_of_ne_nil hy]
    simp

/-- **The test for mail addresses finds exactly their form.** -/
theorem isEmail_iff {text : List Char} : isEmail text = true ↔ MailAddress text := by
  unfold isEmail
  constructor
  · intro h
    split at h
    · next domain hdomain =>
      simp only [Bool.and_eq_true, List.all_eq_true, List.contains_iff_mem] at h
      obtain ⟨⟨hhead, hall⟩, hstop⟩ := h
      obtain ⟨host, top, rfl, hhost, htop⟩ := mem_dropLast_drop_iff.mp hstop
      refine ⟨text.takeWhile isEmailChar, host, top, ?_, ?_, hhost, htop, ?_⟩
      · rw [← hdomain, List.takeWhile_append_dropWhile]
      · intro hnil
        cases text with
        | nil => cases hhead
        | cons c r => simp [show isEmailChar c = true from hhead] at hnil
      · intro c hc
        rw [← isEmailChar_iff]
        rw [List.append_assoc, List.mem_append, List.mem_append] at hc
        rcases hc with hc | hc | hc
        · exact List.mem_takeWhile_imp hc
        · exact hall c (by simp [hc])
        · exact hall c (by simp [hc])
    · cases h
  · rintro ⟨user, host, top, rfl, huser, hhost, htop, hall⟩
    have hchar (c : Char) (hc : c ∈ user ++ host ++ top) : isEmailChar c = true :=
      isEmailChar_iff.mpr (hall c hc)
    have hat : isEmailChar '@' = false := rfl
    have hdrop : (user ++ '@' :: (host ++ '.' :: top)).dropWhile isEmailChar
        = '@' :: (host ++ '.' :: top) := by
      rw [List.dropWhile_append_of_pos (fun c hc => hchar c (by simp [hc])),
        List.dropWhile_cons_of_neg (by simp [hat])]
    obtain ⟨u, user, rfl⟩ := List.exists_cons_of_ne_nil huser
    rw [hdrop]
    simp only [Bool.and_eq_true, List.all_eq_true, List.contains_iff_mem]
    refine ⟨⟨hchar u (by simp), fun c hc => ?_⟩,
      mem_dropLast_drop_iff.mpr ⟨host, top, rfl, hhost, htop⟩⟩
    rw [List.mem_append, List.mem_cons] at hc
    rcases hc with hc | rfl | hc
    · exact hchar c (by simp [hc])
    · rfl
    · exact hchar c (by simp [hc])

/-! ### Acceptance -/

/-- A value that is missing, null or blank. -/
def GivesNothing (value : Option Json) : Prop :=
  value = none ∨ value = some .null ∨ ∃ s, value = some (.string s) ∧ Text.isBlankString s = true

/-- What a field accepts. -/
inductive Field.Accepts [PatternLibrary] (f : Field) : Option Json → Prop where
  /-- Nothing, unless a value must be given, whatever the form shows. -/
  | nothing {value : Option Json} (nothing : GivesNothing value)
      (optional : ¬(f.required = true ∧ f.conditionalDisplay = none)) : f.Accepts value
  /-- One value whose text is of the kind, among the options, of the form and matched by the
  pattern of the field, as far as the field has these and the pattern compiles between anchors. -/
  | text {value : Json} {text : List Char} (given : value.given = .text text)
      (fits : f.valueType.fits value text = true)
      (offered : f.control = .radio ∨ f.control = .select → f.options ≠ [] →
        ∃ o ∈ f.options, o.value.toList = text)
      (address : f.control = .email → MailAddress text)
      (matched : ∀ pattern r, f.validationPattern = some pattern →
        compile pattern.toList = .ok r →
        (∃ r', compile (anchored pattern.toList) = .ok r') →
        Matches r text 0 text.length) : f.Accepts (some value)

theorem given_eq_nothing_iff {value : Json} :
    value.given = .nothing ↔ GivesNothing (some value) := by
  cases value <;> simp [Json.given, GivesNothing]

variable {f : Field} {text : List Char}

theorem Field.mustBeGiven_eq_false_iff :
    f.mustBeGiven = false ↔ ¬(f.required = true ∧ f.conditionalDisplay = none) := by
  unfold Field.mustBeGiven
  cases f.required <;> cases f.conditionalDisplay <;> simp

theorem Field.offers_iff : f.offers text = true
    ↔ (f.control = .radio ∨ f.control = .select → f.options ≠ [] →
      ∃ o ∈ f.options, o.value.toList = text) := by
  have hchoice : f.control.isChoice = true ↔ f.control = .radio ∨ f.control = .select := by
    cases f.control <;> simp [Control.isChoice]
  rw [← hchoice]
  unfold Field.offers
  cases f.control.isChoice <;> cases f.options <;> simp

section Library

variable [PatternLibrary] [LawfulPatternLibrary]

/-- The pattern of a compiled field matches what it matches as a whole, if it compiles between
anchors. -/
theorem matchesPattern_compileSource_iff {c : Compiler} {source : Combined} {place : FormSection}
    (hf : f ∈ (c.compileSource source).schema.fieldsOf place) : f.matchesPattern text = true
      ↔ ∀ pattern r, f.validationPattern = some pattern →
        compile pattern.toList = .ok r →
        (∃ r', compile (anchored pattern.toList) = .ok r') →
        Matches r text 0 text.length := by
  cases hp : f.validationPattern with
  | none => simp [Field.matchesPattern, hp]
  | some pattern =>
    obtain ⟨r, hr⟩ := compile_of_mem_fieldsOf hf hp
    rw [Field.matchesPattern_iff hp hr]
    constructor
    · rintro h _ r' ⟨⟩ hr' hanchored
      obtain rfl := Except.ok.inj (hr.symm.trans hr')
      exact h hanchored
    · exact fun h => h pattern r rfl hr

/-- **A field of a compiled schema finds no fault exactly with what it accepts.** -/
theorem fault?_eq_none_iff_accepts {c : Compiler} {source : Combined} {place : FormSection}
    (hf : f ∈ (c.compileSource source).schema.fieldsOf place) {value : Option Json} :
    f.fault? value = none ↔ f.Accepts value := by
  have hnothing (v : Option Json) (hv : GivesNothing v) : f.fault? v = none ↔ f.Accepts v := by
    have hfault : f.fault? v = if f.mustBeGiven then some (.required f.label) else none := by
      cases v with
      | none => rfl
      | some v => rw [Field.fault?, given_eq_nothing_iff.mpr hv]
    rw [hfault]
    constructor
    · intro h
      refine .nothing hv (Field.mustBeGiven_eq_false_iff.mp ?_)
      simpa using h
    · rintro (⟨-, ho⟩ | ⟨hgiven, -⟩)
      · rw [Field.mustBeGiven_eq_false_iff.mpr ho]
        rfl
      · rw [given_eq_nothing_iff.mpr hv] at hgiven
        cases hgiven
  cases value with
  | none => exact hnothing none (.inl rfl)
  | some v =>
    cases hv : v.given with
    | nothing => exact hnothing _ (given_eq_nothing_iff.mp hv)
    | composite =>
      refine iff_of_false (by simp [Field.fault?, hv]) ?_
      rintro (⟨hn, -⟩ | ⟨hgiven, -⟩)
      · simp [given_eq_nothing_iff.mpr hn] at hv
      · simp [hgiven] at hv
    | text text =>
      -- each check of the text is the corresponding condition of what a field accepts
      have hfault : f.fault? (some v) = f.textFault? v text := by rw [Field.fault?, hv]
      rw [hfault, Field.textFault?_eq_none_iff, Field.offers_iff, isEmail_iff,
        matchesPattern_compileSource_iff hf]
      constructor
      · rintro ⟨hfits, hoffered, haddress, hmatched⟩
        exact .text hv hfits hoffered haddress hmatched
      · rintro (⟨hn, -⟩ | ⟨hgiven, hfits, hoffered, haddress, hmatched⟩)
        · simp [given_eq_nothing_iff.mpr hn] at hv
        · obtain rfl := Given.text.inj (hv.symm.trans hgiven)
          exact ⟨hfits, hoffered, haddress, hmatched⟩

end Library

/-! ### Reports -/

/-- The identifiers of the fields of a section. -/
def Schema.idsOf (s : Schema) (place : FormSection) : List String :=
  (s.fieldsOf place).map Field.id

/-- The names of values that belong to no field. -/
def Schema.unknownNames (s : Schema) (sub : Submission) : List String :=
  (sub.values.map Prod.fst).filter (· ∉ s.idsOf sub.place)

/-- What the report on a submission must be. -/
structure Schema.Reported [PatternLibrary] (s : Schema) (sub : Submission) (r : Report) : Prop where
  /-- It is valid exactly if all values belong to fields and every field accepts its value. -/
  valid_iff : r.valid = true ↔ (∀ v ∈ sub.values, v.1 ∈ s.idsOf sub.place)
    ∧ ∀ f ∈ s.fieldsOf sub.place, f.Accepts (sub.value? f.id)
  /-- The errors are first those for names of no field, then those of fields, in the order of the
  section. -/
  errors_eq : ∃ faults : List FieldError, r.errors
      = (s.unknownNames sub).map (⟨·, .unknownField sub.place⟩) ++ faults
    ∧ (∀ e ∈ faults, e.fault.code ≠ "unknown_field")
    ∧ (faults.map FieldError.field).Sublist (s.idsOf sub.place)
  /-- The names of no field are in the order of their bytes. -/
  unknownNames_pairwise : ((s.unknownNames sub).map Text.bytes).Pairwise (· < ·)
  /-- No name is reported twice. -/
  nodup : (r.errors.map FieldError.field).Nodup
  /-- The error of a field is the fault of its own value. -/
  mem_errors_iff : ∀ f ∈ s.fieldsOf sub.place, ∀ fault,
    (⟨f.id, fault⟩ ∈ r.errors ↔ f.fault? (sub.value? f.id) = some fault)

variable {s : Schema} {sub : Submission}

theorem field?_isNone_iff {place : FormSection} {id : String} :
    (s.field? place id).isNone = true ↔ id ∉ s.idsOf place := by
  simp only [Schema.field?, Option.isNone_iff_eq_none, List.find?_eq_none, Schema.idsOf,
    List.mem_map, not_exists, not_and, decide_eq_true_eq]

theorem unknownFields_eq (s : Schema) (sub : Submission) :
    s.unknownFields sub = (s.unknownNames sub).map (⟨·, .unknownField sub.place⟩) := by
  rw [Schema.unknownFields, Schema.unknownNames, List.filter_map, List.map_map]
  congr 1
  refine List.filter_congr fun v _ => ?_
  rw [Bool.eq_iff_iff, field?_isNone_iff]
  simp

/-- No field reports that it is unknown. -/
theorem Field.code_ne_of_fault? [PatternLibrary] {f : Field} {value : Option Json} {fault : Fault}
    (h : f.fault? value = some fault) : fault.code ≠ "unknown_field" := by
  have hempty : (if f.mustBeGiven then some (Fault.required f.label) else none) = some fault →
      fault.code ≠ "unknown_field" := by
    intro h
    split at h
    · cases h
      simp [Fault.code]
    · cases h
  unfold Field.fault? at h
  split at h
  · exact hempty h
  · split at h
    · exact hempty h
    · cases h
      simp [Fault.code]
    · unfold Field.textFault? at h
      split_ifs at h <;> cases h <;> simp [Fault.code]

theorem field_sublist_filterMap (fault? : Field → Option Fault) (fields : List Field) :
    ((fields.filterMap fun f => (fault? f).map (⟨f.id, ·⟩)).map FieldError.field).Sublist
      (fields.map Field.id) := by
  induction fields with
  | nil => exact .slnil
  | cons f r ih =>
    rw [List.filterMap_cons]
    cases fault? f with
    | none => exact ih.cons f.id
    | some fault => exact ih.cons_cons f.id

/-- **What is reported on a submission.** -/
theorem check_report [PatternLibrary] [LawfulPatternLibrary] (c : Compiler) (source : Combined)
    (sub : Submission) : (c.compileSource source).schema.Reported sub
      ((c.compileSource source).schema.check sub) := by
  have hn := nodup_ids_compileSource c source sub.place
  have haccepts (f : Field) (hf : f ∈ (c.compileSource source).schema.fieldsOf sub.place)
      (value : Option Json) : f.fault? value = none ↔ f.Accepts value :=
    fault?_eq_none_iff_accepts hf
  generalize (c.compileSource source).schema = s at hn haccepts
  have hsub := field_sublist_filterMap (fun f => f.fault? (sub.value? f.id)) (s.fieldsOf sub.place)
  have herrors : (s.check sub).errors
      = (s.unknownNames sub).map (⟨·, .unknownField sub.place⟩) ++ s.fieldErrors sub := by
    rw [← unknownFields_eq]
    rfl
  have hunknown : (s.unknownNames sub).Sublist (sub.values.map Prod.fst) := List.filter_sublist
  -- the two parts of the errors name different keys: those of no field, and those of fields
  refine ⟨?_, ⟨s.fieldErrors sub, herrors, ?_, hsub⟩, ?_, ?_, ?_⟩
  · rw [Report.valid, List.isEmpty_iff, herrors, List.append_eq_nil_iff, List.map_eq_nil_iff]
    refine and_congr ?_ ?_
    · simp [Schema.unknownNames, List.filter_eq_nil_iff]
    · simp only [Schema.fieldErrors, List.filterMap_eq_nil_iff, Option.map_eq_none_iff]
      exact forall₂_congr fun f hf => haccepts f hf _
  · intro e he
    obtain ⟨f, -, he⟩ := List.mem_filterMap.mp he
    obtain ⟨fault, hfault, rfl⟩ := Option.map_eq_some_iff.mp he
    exact Field.code_ne_of_fault? hfault
  · exact (List.Pairwise.sublist hunknown sub.keyed).map _ fun _ _ => Text.bytes_lt_bytes
  · rw [herrors, List.map_append, List.map_map]
    change ((s.unknownNames sub).map id ++ _).Nodup
    rw [List.map_id]
    refine List.nodup_append.mpr ⟨hunknown.nodup sub.keyed.nodup, hsub.nodup hn, ?_⟩
    rintro name hname _ hfield rfl
    have hnot : name ∉ s.idsOf sub.place := by simpa using (List.mem_filter.mp hname).2
    exact hnot (hsub.subset hfield)
  · exact fun f hf fault => mem_errors_check_iff hn hf rfl

/-- A submission with two names of no field and a field that is given more than one value. -/
def strangers : Submission :=
  ⟨.drivers, [("a", .null), ("held", .array []), ("z", .bool true)], by decide⟩

/-- The names of no field are reported in front of the field. -/
theorem strangers_reported :
    licenceQuestion.schema.Reported strangers (licenceQuestion.schema.check strangers)
      ∧ (licenceQuestion.schema.check strangers).errors.map (fun e => (e.field, e.fault.code))
        = [("a", "unknown_field"), ("z", "unknown_field"), ("held", "invalid_type")] :=
  ⟨check_report _ _ _, by decide +kernel⟩

end FormOntology
