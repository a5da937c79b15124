import FormOntology.Json.Value
import FormOntology.Schema.Section

/-!
# Submissions

A submission is the section that was filled in and the values of its fields, in the order of the
identifiers and each identifier once.  It arrives as JSON: a record of the section and the fields,
or the fields alone when the section is known already.  Of several values under one name the last
one stands.

## Main definitions

* `Keyed` — members in the order of their keys.
* `Submission` — submissions.
* `Submission.ofMembers` — the submission of members in any order.
* `Submission.parse?`, `Submission.parseFields?` — the submission of a text.

## Main results

* `keyed_sortedMembers` — sorted members are in the order of their keys.
-/

namespace FormOntology

/-! ### The order of keys -/

/-- Members in the order of their keys, each key once. -/
def Keyed (members : List (String × Json)) : Prop := (members.map Prod.fst).Pairwise (· < ·)

instance (members : List (String × Json)) : Decidable (Keyed members) :=
  inferInstanceAs (Decidable ((members.map Prod.fst).Pairwise (· < ·)))

theorem Keyed.nodup {members : List (String × Json)} (h : Keyed members) :
    (members.map Prod.fst).Nodup := by
  refine List.Pairwise.imp (fun hlt => ?_) h
  rintro rfl
  exact String.lt_irrefl _ hlt

theorem key_lt_of_not_lt {j k : String} (hlt : ¬j < k) (hne : j ≠ k) : k < j :=
  String.not_le.mp fun hle => hne (String.le_antisymm hle (String.not_lt.mp hlt))

variable {key : String} {value : Json} {members : List (String × Json)}

theorem fst_of_mem_insertMember {m : String × Json} (h : m ∈ insertMember key value members) :
    m.1 = key ∨ m ∈ members := by
  induction members with
  | nil =>
    obtain rfl := List.mem_singleton.mp h
    exact .inl rfl
  | cons p r ih =>
    rw [insertMember] at h
    split at h
    · rcases List.mem_cons.mp h with rfl | h
      · exact .inl rfl
      · exact .inr h
    · split at h
      · rcases List.mem_cons.mp h with rfl | h
        · exact .inl rfl
        · exact .inr (List.mem_cons_of_mem _ h)
      · rcases List.mem_cons.mp h with rfl | h
        · exact .inr List.mem_cons_self
        · exact (ih h).imp_right (List.mem_cons_of_mem _)

/-- One more member keeps the order. -/
theorem Keyed.insertMember (h : Keyed members) (key : String) (value : Json) :
    Keyed (insertMember key value members) := by
  unfold Keyed at h ⊢
  rw [List.pairwise_map] at h ⊢
  induction members with
  | nil => exact List.pairwise_singleton _ _
  | cons p r ih =>
    obtain ⟨hp, hr⟩ := List.pairwise_cons.mp h
    rw [FormOntology.insertMember]
    split
    · next hlt =>
      refine List.pairwise_cons.mpr ⟨fun m hm => ?_, h⟩
      -- what is behind the next key is behind the new one too
      rcases List.mem_cons.mp hm with rfl | hm
      · exact hlt
      · exact String.lt_trans hlt (hp m hm)
    · next hlt =>
      split
      · next heq => exact List.pairwise_cons.mpr ⟨fun m hm => heq ▸ hp m hm, hr⟩
      · next hne =>
        refine List.pairwise_cons.mpr ⟨fun m hm => ?_, ih hr⟩
        rcases fst_of_mem_insertMember hm with heq | hm
        · exact heq ▸ key_lt_of_not_lt hlt hne
        · exact hp m hm

theorem keyed_sortedMembers (members : List (String × Json)) : Keyed (sortedMembers members) := by
  unfold sortedMembers
  suffices ∀ sorted, Keyed sorted →
      Keyed (members.foldl (fun sorted m => insertMember m.1 m.2 sorted) sorted) from
    this [] .nil
  induction members with
  | nil => exact fun _ h => h
  | cons m r ih => exact fun sorted h => ih _ (h.insertMember m.1 m.2)

/-! ### Submissions -/

/-- Values for the fields of a section. -/
structure Submission where
  /-- The section. -/
  place : FormSection
  /-- The values by the identifiers of the fields. -/
  values : List (String × Json)
  /-- The values are in the order of the identifiers, each identifier once. -/
  keyed : Keyed values

namespace Submission

/-- The submission of members in any order. -/
def ofMembers (place : FormSection) (members : List (String × Json)) : Submission :=
  ⟨place, sortedMembers members, keyed_sortedMembers members⟩

/-- The submission of a tree; without fields it has no value. -/
def ofTree? (t : JsonTree) : Option Submission := do
  let fields ← t.record? ["section", "fields"] true
  let place ← (fields.lookup "section").bind FormSection.ofTree?
  let members ← JsonTree.fieldOr fields "fields"
    (JsonTree.objectMembers? (JsonTree.maxDepth - 1)) []
  return .ofMembers place members

/-- The submission of a text. -/
def parse? (text : String) : Option Submission := (JsonTree.parse? text.toList).bind ofTree?

/-- The submission of a text that has the fields of a known section alone. -/
def parseFields? (place : FormSection) (text : String) : Option Submission :=
  ((JsonTree.parse? text.toList).bind (JsonTree.objectMembers? JsonTree.maxDepth)).map
    (.ofMembers place)

/-- The value of a field. -/
def value? (s : Submission) (id : String) : Option Json := s.values.lookup id

end Submission

end FormOntology
