import Mathlib.Data.List.Nodup
import FormOntology.Proofs.Declaration.Entries
import FormOntology.Proofs.Schema.Assembly
import FormOntology.Proofs.Text.Blank
import FormOntology.Submission.Check
import FormOntology.Pattern.Reader

/-!
# Options in the check of a submission

An option of a compiled field is a token of an enumeration, so it has no blanks around it and is
not blank: given as the value of its field it is found among the options again.  The kind of the
value is checked first, and nothing makes the options of a field be of its kind.

## Main results

* `given_of_mem_options` — the value of an option gives its own text.
* `mem_errors_check_iff` — the errors that name a field are the fault of its value.
* `check_option` — **an option is never refused as an option, and it is refused as a value of the
  wrong kind exactly when it does not fit the value range of its field.**
-/

namespace FormOntology

open Text

/-! ### Values of enumerations -/

/-- The value of an enumeration gives its own text. -/
theorem given_of_mem_splitEnumeration {body : List Char} {value : String}
    (h : value ∈ splitEnumeration body) :
    (Json.string value).given = .text value.toList := by
  have htrim := trim_of_mem_splitEnumeration h
  have hne : value.toList ≠ [] := fun he =>
    ne_empty_of_mem_splitEnumeration h (String.toList_eq_nil_iff.mp he)
  rw [Json.given, isBlankString_eq_false_of_trim htrim hne, htrim]
  rfl

/-- The enumeration of a block is read from the body of a list. -/
theorem mem_enumeration_extract {v : Vocabulary} {block : List Char} {value : String}
    (h : value ∈ (AttributeSet.extract v block).enumeration) :
    ∃ body, value ∈ splitEnumeration body := by
  simp only [AttributeSet.extract, AttributeSet.ofMasked] at h
  cases hb : firstObject? v .enumeration Turtle.listBody? false (Turtle.maskComments block) with
  | none => simp [hb] at h
  | some body => exact ⟨body, by simpa [hb] using h⟩

/-- The value of an option of a compiled field gives its own text. -/
theorem given_of_mem_options [PatternLibrary] {c : Compiler} {source : Combined}
    {place : FormSection} {f : Field} {o : FieldOption}
    (hf : f ∈ (c.compileSource source).schema.fieldsOf place) (ho : o ∈ f.options) :
    (Json.string o.value).given = .text o.value.toList := by
  obtain ⟨b, _, label, rfl⟩ := mem_fieldsOf_compileSource hf
  obtain ⟨value, hvalue, rfl⟩ := List.mem_map.mp ho
  obtain ⟨body, hbody⟩ := mem_enumeration_extract hvalue
  exact given_of_mem_splitEnumeration hbody

/-! ### Faults -/

/-- The text of an option is offered. -/
theorem Field.offers_of_mem {f : Field} {o : FieldOption} (h : o ∈ f.options) :
    f.offers o.value.toList = true := by
  have : f.options.any (·.value.toList == o.value.toList) = true :=
    List.any_eq_true.mpr ⟨o, h, by simp⟩
  simp [Field.offers, this]

section Library

variable [PatternLibrary]

/-- A text that is offered has the wrong kind or a fault of its form. -/
theorem Field.textFault?_of_offers {f : Field} {value : Json} {text : List Char} {fault : Fault}
    (ho : f.offers text = true) (h : f.textFault? value text = some fault) :
    (f.valueType.fits value text = false ∧ fault = .wrongType f.label f.valueType)
      ∨ (f.valueType.fits value text = true
        ∧ (fault = .notAnEmail f.label ∨ fault = .patternMismatch f.label)) := by
  unfold Field.textFault? at h
  rw [ho] at h
  split at h
  · next hfit => exact .inl ⟨by simpa using hfit, by simpa using h.symm⟩
  · next hfit =>
    refine .inr ⟨by simpa using hfit, ?_⟩
    split at h
    · contradiction
    split at h
    · exact .inl (by simpa using h.symm)
    split at h
    · exact .inr (by simpa using h.symm)
    · cases h

/-- A text that does not fit is of the wrong kind, whether or not it is offered. -/
theorem Field.textFault?_of_not_fits {f : Field} {value : Json} {text : List Char}
    (h : f.valueType.fits value text = false) :
    f.textFault? value text = some (.wrongType f.label f.valueType) := by
  rw [Field.textFault?, h]
  rfl

/-! ### Errors of a field -/

omit [PatternLibrary] in
/-- A value for a field of the section belongs to a field. -/
theorem field_ne_of_mem_unknownFields {s : Schema} {sub : Submission} {f : Field} {e : FieldError}
    (hf : f ∈ s.fieldsOf sub.place) (he : e ∈ s.unknownFields sub) : e.field ≠ f.id := by
  intro hid
  obtain ⟨v, hv, rfl⟩ := List.mem_map.mp he
  have hnone := (List.mem_filter.mp hv).2
  rw [Option.isNone_iff_eq_none, Schema.field?, List.find?_eq_none] at hnone
  exact hnone f hf (by simpa using hid.symm)

/-- **The errors that name a field are the fault of its value.** -/
theorem mem_errors_check_iff {s : Schema} {sub : Submission} {f : Field} {e : FieldError}
    (hn : ((s.fieldsOf sub.place).map Field.id).Nodup) (hf : f ∈ s.fieldsOf sub.place)
    (hid : e.field = f.id) :
    e ∈ (s.check sub).errors ↔ f.fault? (sub.value? f.id) = some e.fault := by
  have hinj := List.inj_on_of_nodup_map hn
  rw [Schema.check, List.mem_append, Schema.fieldErrors, List.mem_filterMap]
  constructor
  · rintro (he | ⟨g, hg, he⟩)
    · exact absurd hid (field_ne_of_mem_unknownFields hf he)
    · obtain ⟨fault, hfault, rfl⟩ := Option.map_eq_some_iff.mp he
      obtain rfl : g = f := hinj hg hf hid
      exact hfault
  · intro hfault
    exact .inr ⟨f, hf, by rw [hfault, Option.map_some, ← hid]⟩

/-- **An option is never refused as an option.**  It is accepted as a value of the right kind
exactly when it fits the value range of its field, which the declaration gives on its own. -/
theorem check_option (c : Compiler) (source : Combined) (sub : Submission) {f : Field}
    {o : FieldOption} (hf : f ∈ (c.compileSource source).schema.fieldsOf sub.place)
    (ho : o ∈ f.options) (hv : sub.value? f.id = some (.string o.value)) :
    (∀ e ∈ ((c.compileSource source).schema.check sub).errors,
        e.field = f.id → e.fault.code ≠ "not_an_option")
      ∧ ((∀ e ∈ ((c.compileSource source).schema.check sub).errors,
          e.field = f.id → e.fault.code ≠ "invalid_type")
        ↔ f.valueType.fits (.string o.value) o.value.toList = true) := by
  have hfault : f.fault? (sub.value? f.id)
      = f.textFault? (.string o.value) o.value.toList := by
    rw [hv, Field.fault?, given_of_mem_options hf ho]
  have hoffers := Field.offers_of_mem ho
  have hn := nodup_ids_compileSource c source sub.place
  -- the fault of an offered text is its kind or its form, and its kind comes first
  refine ⟨?_, ?_, ?_⟩
  · intro e he hid
    rw [mem_errors_check_iff hn hf hid, hfault] at he
    rcases Field.textFault?_of_offers hoffers he with ⟨-, he⟩ | ⟨-, he | he⟩ <;>
      simp [he, Fault.code]
  · intro h
    by_contra hfit
    rw [Bool.not_eq_true] at hfit
    have hwrong := Field.textFault?_of_not_fits hfit
    rw [← hfault] at hwrong
    exact h ⟨f.id, _⟩ ((mem_errors_check_iff hn hf rfl).mpr hwrong) rfl rfl
  · intro hfit e he hid
    rw [mem_errors_check_iff hn hf hid, hfault] at he
    rcases Field.textFault?_of_offers hoffers he with ⟨hno, -⟩ | ⟨-, he | he⟩
    · simp [hfit] at hno
    · simp [he, Fault.code]
    · simp [he, Fault.code]

end Library

/-- A question of truth whose options are other words. -/
def licenceQuestion : Compilation :=
  Compiler.compileSource ⟨⟨"", []⟩, .standard, .add .empty ⟨"Driver", [.drivers]⟩⟩ <| .ofDocuments
    [⟨"d.ttl", "ex:held a owl:DatatypeProperty; rdfs:label \"Held\"; rdfs:domain ex:Driver; " ++
      "rdfs:range xsd:boolean; ex:enumerationValues (YES NO)."⟩]

/-- An answer to it. -/
def heldAnswer (value : Json) : Submission := .ofMembers .drivers [("held", value)]

/-- Its option `YES` is offered and refused, and what is no option is refused too: the question
has no answer. -/
theorem licenceQuestion_option_refused :
    (∃ f ∈ licenceQuestion.schema.fieldsOf .drivers,
      FieldOption.ofValue "YES" ∈ f.options
        ∧ (∀ e ∈ (licenceQuestion.schema.check (heldAnswer (.string "YES"))).errors,
          e.field = f.id → e.fault.code ≠ "not_an_option")
        ∧ ¬∀ e ∈ (licenceQuestion.schema.check (heldAnswer (.string "YES"))).errors,
          e.field = f.id → e.fault.code ≠ "invalid_type")
      ∧ ∀ b, (licenceQuestion.schema.check (heldAnswer (.bool b))).errors.map (·.fault.code)
        = ["not_an_option"] := by
  refine ⟨?_, by decide +kernel⟩
  obtain ⟨f, hf, hid, hrange, ho⟩ : ∃ f ∈ licenceQuestion.schema.fieldsOf .drivers,
      f.id = "held" ∧ f.valueType = .boolean ∧ FieldOption.ofValue "YES" ∈ f.options := by
    decide +kernel
  obtain ⟨hoption, htype⟩ := check_option _ _ (heldAnswer (.string "YES")) hf ho (by
    rw [hid]
    rfl)
  refine ⟨f, hf, ho, hoption, ?_⟩
  intro h
  have hfits := htype.mp h
  rw [hrange] at hfits
  revert hfits
  decide

end FormOntology
