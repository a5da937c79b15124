import FormOntology.Proofs.Json.Printed
import FormOntology.Proofs.Submission.Reports

/-!
# Respelled values in the check of a submission

A form sends text.  A number or a truth value that arrives as the string of its text, and a string
that arrives with blanks around it, are the same values *respelled*.  The check looks at the kind
of a value as well as at its text: a date must be a string, and a number is a decimal whatever its
text.  The report is the same for all that, because no text of a number or a truth value is a date.
What remains is that the text of a number is read as a finite number, which is assumed of the
numbers at hand.

## Main definitions

* `Text.Padded` — a text with blanks around it.
* `Json.Respelled`, `Submission.Respelled` — the same values in another spelling.

## Main results

* `Json.Respelled.given_eq` — a respelled value gives the same text.
* `Json.Respelled.fits_eq` — it is of the same kinds.
* `check_respelled` — **the report on a submission does not depend on how its values are spelled.**
-/

namespace FormOntology

open Text

/-! ### Spellings -/

/-- The second text is the first with blanks around it. -/
def Text.Padded (text padded : List Char) : Prop :=
  ∃ front back, padded = front ++ (text ++ back) ∧ (∀ c ∈ front, isBlank c = true)
    ∧ ∀ c ∈ back, isBlank c = true

/-- The second value is the first in another spelling. -/
inductive Json.Respelled : Json → Json → Prop where
  /-- The same spelling. -/
  | same (j : Json) : Respelled j j
  /-- A truth value as a string. -/
  | bool {b : Bool} {t : String} (h : Padded (Json.bool b).compact t.toList) :
    Respelled (.bool b) (.string t)
  /-- A number as a string. -/
  | number {n : JsonNumber} {t : String} (h : Padded n.chars t.toList) :
    Respelled (.number n) (.string t)
  /-- A string with blanks around it. -/
  | string {s t : String} (h : Padded s.toList t.toList) : Respelled (.string s) (.string t)
  /-- An array of respelled items. -/
  | array {items items' : List Json} (h : List.Forall₂ Respelled items items') :
    Respelled (.array items) (.array items')
  /-- An object of respelled members. -/
  | object {members members' : List (String × Json)}
    (hkeys : members'.map Prod.fst = members.map Prod.fst)
    (h : List.Forall₂ Respelled (members.map Prod.snd) (members'.map Prod.snd)) :
    Respelled (.object members) (.object members')

/-- Two submissions for one section whose values are the same in another spelling. -/
structure Submission.Respelled (sub sub' : Submission) : Prop where
  /-- They are for one section. -/
  place : sub'.place = sub.place
  /-- They have values for the same fields, respelled. -/
  values : List.Forall₂ (fun v v' => v'.1 = v.1 ∧ v.2.Respelled v'.2) sub.values sub'.values

/-! ### What a value gives -/

theorem Text.Padded.trim_eq {text padded : List Char} (h : Padded text padded) :
    trim padded = trim text := by
  obtain ⟨front, back, rfl, hf, hb⟩ := h
  exact trim_append_of_blank hf hb text

theorem Text.Padded.all_isBlank_eq {text padded : List Char} (h : Padded text padded) :
    padded.all isBlank = text.all isBlank := by
  obtain ⟨front, back, rfl, hf, hb⟩ := h
  rw [List.all_append, List.all_append, List.all_eq_true.mpr hf, List.all_eq_true.mpr hb,
    Bool.true_and, Bool.and_true]

/-- A string that pads a text without blanks gives that text. -/
theorem given_of_padded {text : List Char} {t : String} (h : Padded text t.toList)
    (hne : text ≠ []) (hblank : ∀ c ∈ text, isBlank c = false) :
    (Json.string t).given = .text text := by
  have hnot : isBlankString t = false := by
    obtain ⟨c, r, rfl⟩ := List.exists_cons_of_ne_nil hne
    rw [isBlankString, h.all_isBlank_eq, List.all_cons, hblank c (List.mem_cons_self ..),
      Bool.false_and]
  rw [Json.given, hnot, h.trim_eq, trim_eq_self hblank, if_neg Bool.false_ne_true]

namespace Json.Respelled

variable {j k : Json}

/-- **A respelled value gives the same text.** -/
theorem given_eq (h : j.Respelled k) : k.given = j.given := by
  cases h with
  | same => rfl
  | bool h =>
    rename_i b t
    refine given_of_padded h ?_ ?_
    · cases b <;> decide
    · cases b <;> exact List.all_iff_forall_prop.mp (by decide)
  | number h => exact given_of_padded h (JsonNumber.chars_ne_nil _) JsonNumber.isBlank_of_mem_chars
  | string h =>
    rw [Json.given, Json.given, isBlankString, isBlankString, h.all_isBlank_eq, h.trim_eq]
  | array h => rfl
  | object hkeys h => rfl

/-- **A respelled value is of the same kinds.**  Its text decides that it is no date where the value
itself is no string, and that it is a number where the value is one. -/
theorem fits_eq (h : j.Respelled k) {text : List Char} (hgiven : j.given = .text text)
    (hfinite : ∀ n, j = .number n → isFiniteNumber n.chars = true) (range : ValueRange) :
    range.fits k text = range.fits j text := by
  cases h with
  | same => rfl
  | bool h =>
    rename_i b t
    obtain rfl := Given.text.inj hgiven
    have hdate : Date.parse? (Json.bool b).compact = none := by cases b <;> decide
    cases range with
    | date => rw [ValueRange.fits, hdate]; rfl
    | _ => rfl
  | number h =>
    rename_i n t
    obtain rfl := Given.text.inj hgiven
    cases range with
    | date => rw [ValueRange.fits, Date.parse?_chars]; rfl
    | decimal => exact hfinite n rfl
    | _ => rfl
  | string h => cases range <;> rfl
  | array h => cases hgiven
  | object hkeys h => cases hgiven

/-- A respelled value has the same fault. -/
theorem fault?_eq (h : j.Respelled k) (hfinite : ∀ n, j = .number n → isFiniteNumber n.chars = true)
    [PatternLibrary] (f : Field) : f.fault? (some k) = f.fault? (some j) := by
  have hgiven := h.given_eq
  rw [Field.fault?, Field.fault?, hgiven]
  cases htext : j.given with
  | nothing => rfl
  | composite => rfl
  | text text =>
    have hfits := h.fits_eq htext hfinite f.valueType
    change f.textFault? k text = f.textFault? j text
    rw [Field.textFault?, Field.textFault?, hfits]

end Json.Respelled

/-! ### Reports -/

section Report

variable {sub sub' : Submission}

/-- The fields that are given are the same. -/
theorem map_fst_eq_of_respelled {vs vs' : List (String × Json)}
    (h : List.Forall₂ (fun v v' => v'.1 = v.1 ∧ v.2.Respelled v'.2) vs vs') :
    vs'.map Prod.fst = vs.map Prod.fst := by
  induction h with
  | nil => rfl
  | cons hv _ ih => rw [List.map_cons, List.map_cons, hv.1, ih]

/-- A name has a respelled value, or it has no value in both lists. -/
theorem lookup_respelled {vs vs' : List (String × Json)}
    (h : List.Forall₂ (fun v v' => v'.1 = v.1 ∧ v.2.Respelled v'.2) vs vs') (id : String) :
    Option.Rel Json.Respelled (vs.lookup id) (vs'.lookup id) := by
  induction h with
  | nil => exact .none
  | @cons v v' vs vs' hv _ ih =>
    obtain ⟨hkey, hjk⟩ := hv
    rw [List.lookup_cons, List.lookup_cons, hkey]
    cases id == v.1 with
    | true => exact .some hjk
    | false => exact ih

/-- A field has the same fault in both submissions. -/
theorem Submission.Respelled.fault?_eq (h : sub.Respelled sub')
    (hfinite : ∀ v ∈ sub.values, ∀ n, v.2 = .number n → isFiniteNumber n.chars = true)
    [PatternLibrary] (f : Field) : f.fault? (sub'.value? f.id) = f.fault? (sub.value? f.id) := by
  have hvalue := lookup_respelled h.values f.id
  rw [Submission.value?, Submission.value?]
  generalize sub'.values.lookup f.id = value at hvalue ⊢
  cases hj : sub.values.lookup f.id with
  | none =>
    rw [hj] at hvalue
    cases hvalue
    rfl
  | some j =>
    rw [hj] at hvalue
    obtain ⟨l₁, l₂, hmem, -⟩ := List.lookup_eq_some_iff.mp hj
    cases hvalue with
    | some hjk =>
      refine hjk.fault?_eq (fun n hn => ?_) f
      exact hfinite (f.id, j) (by simp [hmem]) n hn

/-- **The report on a submission does not depend on how its values are spelled**: numbers and truth
values may be given as strings, and strings with blanks around them. -/
theorem check_respelled [PatternLibrary] (s : Schema) (h : sub.Respelled sub')
    (hfinite : ∀ v ∈ sub.values, ∀ n, v.2 = .number n → isFiniteNumber n.chars = true) :
    s.check sub' = s.check sub := by
  have hunknown : s.unknownFields sub' = s.unknownFields sub := by
    rw [unknownFields_eq, unknownFields_eq, Schema.unknownNames, Schema.unknownNames,
      map_fst_eq_of_respelled h.values, h.place]
  have hfields : s.fieldErrors sub' = s.fieldErrors sub := by
    rw [Schema.fieldErrors, Schema.fieldErrors, h.place]
    simp only [h.fault?_eq hfinite]
  rw [Schema.check, Schema.check, hunknown, hfields]

end Report

/-- A field whose values are of a kind. -/
def kindField (id : String) (range : ValueRange) : Field where
  id := id
  label := id
  control := .text
  required := true
  helpText := none
  options := []
  inSection := .vehicles
  conditionalDisplay := none
  valueType := range
  validationPattern := none
  defaultValue := none
  source := ⟨"v.ttl", 1⟩

/-- A section with a field of each kind that looks at the value. -/
def kindSchema : Schema := .ofFields fun _ =>
  [kindField "price" .decimal, kindField "electric" .boolean, kindField "bought" .date,
    kindField "make" .string]

/-- The number -2.5, a truth value, a number for a date and a string. -/
def plainVehicle : Submission :=
  ⟨.vehicles, [("bought", .number (.int 2020)), ("colour", .array [.bool true]),
    ("electric", .bool true), ("make", .string "Ford"),
    ("price", .number (.double ⟨true, ⟨5 * 2 ^ 50, -51⟩⟩))], by decide⟩

/-- The same values as strings, with a space, a line feed and an ideographic space around them. -/
def spelledVehicle : Submission :=
  ⟨.vehicles, [("bought", .string "2020"), ("colour", .array [.string "true"]),
    ("electric", .string "true\n"), ("make", .string " Ford\u3000"), ("price", .string " -2.5")],
    by decide⟩

/-- Both are reported in the same way: one value is no date, and one belongs to no field. -/
theorem check_spelledVehicle : plainVehicle.Respelled spelledVehicle
    ∧ (∀ v ∈ plainVehicle.values, ∀ n, v.2 = .number n → isFiniteNumber n.chars = true)
    ∧ kindSchema.check spelledVehicle = kindSchema.check plainVehicle
    ∧ (kindSchema.check plainVehicle).errors.map (fun e => (e.field, e.fault.code))
      = [("colour", "unknown_field"), ("bought", "invalid_type")] := by
  have padded : ∀ (front back : List Char) (text : List Char) (t : String),
      t.toList = front ++ (text ++ back) → (front ++ back).all isBlank = true →
      Padded text t.toList := by
    intro front back text t ht hblank
    rw [List.all_append, Bool.and_eq_true, List.all_eq_true, List.all_eq_true] at hblank
    exact ⟨front, back, ht, hblank⟩
  have hrespelled : plainVehicle.Respelled spelledVehicle := by
    refine ⟨rfl, .cons ⟨rfl, .number ?_⟩ <| .cons ⟨rfl, .array (.cons (.bool ?_) .nil)⟩ <|
      .cons ⟨rfl, .bool ?_⟩ <| .cons ⟨rfl, .string ?_⟩ <| .cons ⟨rfl, .number ?_⟩ .nil⟩
    · exact padded [] [] _ _ (by decide) rfl
    · exact padded [] [] _ _ (by decide) rfl
    · exact padded [] ['\n'] _ _ (by decide) rfl
    · exact padded [' '] ['\u3000'] _ _ (by decide) rfl
    · exact padded [' '] [] _ _ (by decide +kernel) rfl
  have hfinite : ∀ v ∈ plainVehicle.values, ∀ n, v.2 = .number n →
      isFiniteNumber n.chars = true := by
    intro v hv n hn
    simp only [plainVehicle, List.mem_cons, List.not_mem_nil, or_false] at hv
    rcases hv with rfl | rfl | rfl | rfl | rfl <;> cases hn <;> decide +kernel
  exact ⟨hrespelled, hfinite, check_respelled kindSchema hrespelled hfinite, by decide +kernel⟩

end FormOntology
