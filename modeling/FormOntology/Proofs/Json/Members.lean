import FormOntology.Json.Basic

/-!
# Members of an object

A member of an object is looked up by its name; the first with that name counts.

## Main definitions

* `Json.member?` — the value of a member of an object.

## Main results

* `Json.lookup_member`, `Json.lookup_optional` — one member after another.
* `lookup_filterMap_name` — members made of some elements of a list.
-/

namespace FormOntology

namespace Json

/-- The value of the first member with a name. -/
def member? (name : String) : Json → Option Json
  | .object members => members.lookup name
  | _ => none

@[simp] theorem member?_object (name : String) (members : List (String × Json)) :
    (object members).member? name = members.lookup name := rfl

@[simp] theorem lookup_member (name key : String) (j : Json) (r : List (String × Json)) :
    ((key, j) :: r).lookup name = if name = key then some j else r.lookup name := by
  by_cases h : name = key
  · rw [if_pos h, h, List.lookup_cons_self]
  · rw [if_neg h, List.lookup_cons, beq_eq_false_iff_ne.mpr h]

@[simp] theorem lookup_optional (name key : String) (o : Option String) :
    (optional key o).lookup name = if name = key then o.map string else none := by
  cases o with
  | none => simp [optional]
  | some s => simp [optional]

end Json

/-- What is looked up among entries that stand for some elements of a list, each under a name of
its own. -/
theorem lookup_filterMap_name {α β γ : Type} [BEq γ] [LawfulBEq γ] {name : α → γ}
    (hname : ∀ a b, name a = name b → a = b) (value? : α → Option β) (l : List α) {a : α}
    (ha : a ∈ l) :
    (l.filterMap fun b => (value? b).map fun v => (name b, v)).lookup (name a) = value? a := by
  induction l with
  | nil => cases ha
  | cons b r ih =>
    by_cases hab : name a = name b
    · obtain rfl := hname a b hab
      cases h : value? a with
      | some v => simp [h]
      | none =>
        -- an element without an entry may stand in the list once more
        rw [List.filterMap_cons_none (by simp [h])]
        by_cases hr : a ∈ r
        · rw [ih hr, h]
        · rw [List.lookup_eq_none_iff]
          intro e he
          obtain ⟨c, hc, hce⟩ := List.mem_filterMap.mp he
          obtain ⟨v, -, rfl⟩ := Option.map_eq_some_iff.mp hce
          rw [bne_iff_ne]
          exact fun hac => hr (hname a c hac ▸ hc)
    · have hr : a ∈ r := by
        rcases List.mem_cons.mp ha with rfl | hr
        · exact absurd rfl hab
        · exact hr
      have hne : (name a == name b) = false := beq_eq_false_iff_ne.mpr hab
      cases h : value? b with
      | some v => rw [List.filterMap_cons_some (by rw [h]; rfl), List.lookup_cons, hne, ih hr]
      | none => rw [List.filterMap_cons_none (by rw [h]; rfl), ih hr]

end FormOntology
