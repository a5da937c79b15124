import FormOntology.Proofs.Declaration.Header
import FormOntology.Proofs.Except
import FormOntology.Proofs.Schema.Classification
import FormOntology.Proofs.Text.Blank

/-!
# Vocabularies of given names

Namespace names are given with blanks around them and with colons behind them, and some of them more
than once.  A list of them makes a vocabulary exactly if there is a name in it and every one is well
formed without the blanks and the colons.  The vocabulary has the names without these, each where it
was given first.

## Main results

* `Vocabulary.normalize_of_isName` — nothing is taken off a well formed name.
* `Vocabulary.ofNames_eq_ok_iff` — **which lists of names make a vocabulary, and which one.**
* `Vocabulary.ofNames_accepted` — the names of a vocabulary make it again.
-/

namespace FormOntology.Vocabulary

open Text

/-! ### One name -/

/-- Nothing is taken off a well formed name. -/
theorem normalize_of_isName {name : String} (h : isName name.toList = true) :
    normalize name = name := by
  have hchars := isNameChar_of_isName h
  have hblank : ∀ c ∈ name.toList, isBlank c = false := by
    intro c hc
    rw [← Bool.not_eq_true]
    intro hb
    have := isNameChar_eq_false_of_isBlank hb
    simp [hchars c hc] at this
  have hcolon : name.toList.reverse.dropWhile (· == ':') = name.toList.reverse := by
    cases hr : name.toList.reverse with
    | nil => rfl
    | cons c r =>
      have hc : c ∈ name.toList := List.mem_reverse.mp (hr ▸ List.mem_cons_self ..)
      apply List.dropWhile_cons_of_neg
      rw [beq_iff_eq]
      rintro rfl
      exact absurd (hchars _ hc) (by decide)
  rw [normalize, trim_eq_self hblank, hcolon, List.reverse_reverse, String.ofList_toList]

/-- One more name, told by the names given so far. -/
theorem addName_eq_ok_iff {given names : List String} {name : String} :
    addName given.eraseDups name = .ok names
      ↔ isName (normalize name).toList = true ∧ names = (given ++ [normalize name]).eraseDups := by
  cases hname : isName (normalize name).toList with
  | false => simp [addName, hname]
  | true =>
    unfold addName
    rw [eraseDups_concat]
    simp only [hname, Bool.not_true, Bool.false_eq_true, if_false, List.contains_iff_mem,
      List.mem_eraseDups, true_and]
    split <;> exact ⟨fun h => (Except.ok.inj h).symm, fun h => congrArg Except.ok h.symm⟩

/-! ### A list of names -/

/-- More names, told by the names given so far. -/
theorem foldlM_addName_eq_ok_iff {more given names : List String} :
    more.foldlM addName given.eraseDups = .ok names
      ↔ (∀ name ∈ more, isName (normalize name).toList = true)
        ∧ names = (given ++ more.map normalize).eraseDups := by
  induction more generalizing given with
  | nil =>
    rw [List.foldlM_nil, List.map_nil, List.append_nil]
    constructor
    · intro h
      cases h
      exact ⟨by simp, rfl⟩
    · rintro ⟨-, rfl⟩
      rfl
  | cons name more ih =>
    rw [List.foldlM_cons, bind_eq_ok, List.forall_mem_cons, List.map_cons]
    constructor
    · rintro ⟨names', hnames', hnames⟩
      obtain ⟨hname, rfl⟩ := addName_eq_ok_iff.mp hnames'
      obtain ⟨hmore, rfl⟩ := ih.mp hnames
      exact ⟨⟨hname, hmore⟩, by rw [List.append_assoc, List.singleton_append]⟩
    · rintro ⟨⟨hname, hmore⟩, rfl⟩
      refine ⟨_, addName_eq_ok_iff.mpr ⟨hname, rfl⟩, ih.mpr ⟨hmore, ?_⟩⟩
      rw [List.append_assoc, List.singleton_append]

/-- **A list of names makes a vocabulary exactly if it is not empty and every name is well formed**
without the blanks around it and the colons behind it.  It has these names in the order in which
they were first given. -/
theorem ofNames_eq_ok_iff {names : List String} {v : Vocabulary} :
    ofNames names = .ok v ↔ names ≠ [] ∧ (∀ name ∈ names, isName (normalize name).toList = true)
      ∧ v.accepted = (names.map normalize).eraseDups := by
  have hfold : ∀ accepted, names.foldlM addName [] = .ok accepted
      ↔ (∀ name ∈ names, isName (normalize name).toList = true)
        ∧ accepted = (names.map normalize).eraseDups := fun accepted =>
    @foldlM_addName_eq_ok_iff names [] accepted
  unfold ofNames
  split
  · next e he =>
    have hnone : ¬∀ name ∈ names, isName (normalize name).toList = true := fun hnames => by
      rw [(hfold _).mpr ⟨hnames, rfl⟩] at he
      cases he
    simp [hnone]
  · next accepted haccepted =>
    obtain ⟨hnames, rfl⟩ := (hfold accepted).mp haccepted
    have hnil : (names.map normalize).eraseDups = [] ↔ names = [] :=
      eraseDups_eq_nil_iff.trans List.map_eq_nil_iff
    split
    · next h => simp [hnil.mp h]
    · next h =>
      rw [Except.ok.injEq, Vocabulary.ext_iff]
      exact ⟨fun hv => ⟨hnil.not.mp h, hnames, hv.symm⟩, fun hv => hv.2.2.symm⟩

/-- The names of a vocabulary make it again. -/
theorem ofNames_accepted (v : Vocabulary) : ofNames v.accepted = .ok v := by
  have hsame : v.accepted.map normalize = v.accepted := by
    rw [List.map_congr_left fun name hmem => normalize_of_isName (v.isName_of_mem name hmem),
      List.map_id']
  rw [ofNames_eq_ok_iff, hsame, eraseDups_of_nodup v.nodup]
  refine ⟨v.ne_nil, fun name hmem => ?_, rfl⟩
  rw [normalize_of_isName (v.isName_of_mem name hmem)]
  exact v.isName_of_mem name hmem

end FormOntology.Vocabulary
