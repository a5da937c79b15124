import FormOntology.Proofs.Pattern.Anchored
import FormOntology.Proofs.Submission.Options

/-!
# Patterns in the check of a submission

The pattern of a compiled field compiles, and a value is held against it between anchors.  A
pattern that does not compile between anchors lets every text pass, such as one whose last line ends
in a comment.

## Main results

* `Field.textFault?_eq_none_iff` — what a text without a fault satisfies.
* `compile_of_mem_fieldsOf` — the pattern of a compiled field compiles.
* `check_pattern` — **the text of a value without an error matches the pattern of its field as a
  whole, if the pattern compiles between anchors; if it does not, the pattern is not asked.**
-/

namespace FormOntology

open PatternLibrary

section Library

variable [PatternLibrary] {f : Field} {value : Json} {text : List Char}

/-! ### Texts without a fault -/

theorem Field.textFault?_eq_none_iff : f.textFault? value text = none
    ↔ f.valueType.fits value text = true ∧ f.offers text = true
      ∧ (f.control = .email → isEmail text = true) ∧ f.matchesPattern text = true := by
  unfold Field.textFault?
  constructor
  · intro h
    split at h
    · cases h
    next hfits =>
    split at h
    · cases h
    next hoffers =>
    split at h
    · cases h
    next hemail =>
    split at h
    · cases h
    next hpattern =>
    exact ⟨by simpa using hfits, by simpa using hoffers, by simpa using hemail,
      by simpa using hpattern⟩
  · rintro ⟨hfits, hoffers, hemail, hpattern⟩
    have hno : ¬(f.control = .email ∧ (!isEmail text) = true) := fun h => by
      simp [hemail h.1] at h
    rw [if_neg (by simp [hfits]), if_neg (by simp [hoffers]), if_neg hno,
      if_neg (by simp [hpattern])]

/-- The pattern of a field is asked if it compiles between anchors. -/
theorem Field.matchesPattern_iff [LawfulPatternLibrary] {pattern : String} {r : Compiled}
    (hp : f.validationPattern = some pattern) (hr : compile pattern.toList = .ok r) :
    f.matchesPattern text = true
      ↔ ((∃ r', compile (anchored pattern.toList) = .ok r') → Matches r text 0 text.length) := by
  rw [Field.matchesPattern, hp]
  change (matchesWhole? pattern.toList text).getD true = true ↔ _
  unfold matchesWhole?
  cases hr' : compile (anchored pattern.toList) with
  | error message => simp
  | ok r' => simpa using isMatch_anchored hr hr' text

/-- A field is not named by an error exactly if its value has no fault. -/
theorem forall_errors_check_ne_iff {s : Schema} {sub : Submission}
    (hn : ((s.fieldsOf sub.place).map Field.id).Nodup) (hf : f ∈ s.fieldsOf sub.place) :
    (∀ e ∈ (s.check sub).errors, e.field ≠ f.id) ↔ f.fault? (sub.value? f.id) = none := by
  rw [Option.eq_none_iff_forall_ne_some]
  constructor
  · intro h fault hfault
    exact h ⟨f.id, fault⟩ ((mem_errors_check_iff hn hf rfl).mpr hfault) rfl
  · intro h e he hid
    exact h e.fault ((mem_errors_check_iff hn hf hid).mp he)

/-! ### Patterns of compiled fields -/

/-- A pattern is kept if it compiles. -/
theorem compile_of_resolvePattern {written : Option String} {pattern : String}
    (h : (resolvePattern written).1 = some pattern) : ∃ r, compile pattern.toList = .ok r := by
  unfold resolvePattern at h
  split at h
  · cases h
  · split at h
    · next r hr =>
      cases h
      exact ⟨r, hr⟩
    · cases h

/-- **The pattern of a compiled field compiles.** -/
theorem compile_of_mem_fieldsOf {c : Compiler} {source : Combined} {place : FormSection}
    {pattern : String} (hf : f ∈ (c.compileSource source).schema.fieldsOf place)
    (hp : f.validationPattern = some pattern) : ∃ r, compile pattern.toList = .ok r := by
  obtain ⟨b, _, label, rfl⟩ := mem_fieldsOf_compileSource hf
  exact compile_of_resolvePattern hp

/-- **A text without an error matches the pattern of its field as a whole**, if the pattern compiles
between anchors as it does alone.  Otherwise the pattern is not asked, and the text passes if it
fits the kind, the options and the form of the field. -/
theorem check_pattern [LawfulPatternLibrary] (c : Compiler) (source : Combined) (sub : Submission)
    {pattern : String} (hf : f ∈ (c.compileSource source).schema.fieldsOf sub.place)
    (hp : f.validationPattern = some pattern) (hv : sub.value? f.id = some value)
    (ht : value.given = .text text) :
    ∃ r, compile pattern.toList = .ok r
      ∧ ((∀ e ∈ ((c.compileSource source).schema.check sub).errors, e.field ≠ f.id)
        ↔ f.valueType.fits value text = true ∧ f.offers text = true
          ∧ (f.control = .email → isEmail text = true)
          ∧ ((∃ r', compile (anchored pattern.toList) = .ok r') →
            Matches r text 0 text.length)) := by
  obtain ⟨r, hr⟩ := compile_of_mem_fieldsOf hf hp
  have hfault : f.fault? (sub.value? f.id) = f.textFault? value text := by
    rw [hv, Field.fault?, ht]
  refine ⟨r, hr, ?_⟩
  rw [forall_errors_check_ne_iff (nodup_ids_compileSource c source sub.place) hf, hfault,
    Field.textFault?_eq_none_iff, Field.matchesPattern_iff hp hr]

end Library

/-- A pattern that ends in a comment. -/
def commentedPattern : String := "(?x)yes # the only answer"

/-- A question with this pattern. -/
def commentedQuestion : Compilation :=
  Compiler.compileSource ⟨⟨"", []⟩, .standard, .add .empty ⟨"Driver", [.drivers]⟩⟩ <| .ofDocuments
    [⟨"d.ttl", "ex:answer a owl:DatatypeProperty; rdfs:label \"Answer\"; " ++
      "rdfs:domain ex:Driver; ex:validationPattern \"" ++ commentedPattern ++ "\"."⟩]

/-- An answer that it does not match. -/
def refusal : Submission := .ofMembers .drivers [("answer", .string "no")]

/-- The pattern compiles and does not match `no`, but `no` is accepted: between anchors the comment
swallows the parenthesis, so the pattern does not compile there. -/
theorem commentedQuestion_answer_accepted :
    (compile (anchored commentedPattern.toList)).isOk = false
      ∧ ∃ f ∈ commentedQuestion.schema.fieldsOf .drivers, ∃ r,
        f.validationPattern = some commentedPattern ∧ compile commentedPattern.toList = .ok r
          ∧ ¬Matches r ['n', 'o'] 0 2
          ∧ ∀ e ∈ (commentedQuestion.schema.check refusal).errors, e.field ≠ f.id := by
  have hanchored : (compile (anchored commentedPattern.toList)).isOk = false := by decide +kernel
  obtain ⟨f, hf, hid, hrange, hcontrol, hpattern⟩ :
      ∃ f ∈ commentedQuestion.schema.fieldsOf .drivers, f.id = "answer"
        ∧ f.valueType = .unspecified ∧ f.control = .text
        ∧ f.validationPattern = some commentedPattern := by
    decide +kernel
  have hgiven : (Json.string "no").given = .text ['n', 'o'] := by decide +kernel
  have hmatch : (compile commentedPattern.toList).toOption.map (isMatch · ['n', 'o'])
      = some false := by
    decide +kernel
  obtain ⟨r, hr, hno⟩ := check_pattern _ _ refusal hf hpattern (by rw [hid]; rfl) hgiven
  refine ⟨hanchored, f, hf, r, hpattern, hr, fun hwhole => ?_, hno.mpr ⟨?_, ?_, ?_, ?_⟩⟩
  · have hfound : isMatch r ['n', 'o'] = true :=
      (LawfulPatternLibrary.isMatch_iff r _).mpr ⟨0, 2, Nat.zero_le _, hwhole⟩
    simp [hr, hfound, Except.toOption] at hmatch
  · rw [hrange]
    rfl
  · simp [Field.offers, hcontrol, Control.isChoice]
  · simp [hcontrol]
  · rintro ⟨r', hr'⟩
    rw [hr'] at hanchored
    cases hanchored

end FormOntology
