import FormOntology.Proofs.Json.Appending
import FormOntology.Submission.Basic

/-!
# Fields alone and fields with their section

A submission may come as its fields alone, when the section is told otherwise, or as an object of
the section and the fields.  If the object is a submission then the fields alone are the same one.
The object may be written in any way; putting the text of the fields into it is one.

## Main definitions

* `Submission.Wraps` — whether a text is an object of a section and the fields of another text.
* `Submission.wrapped` — a section and the text of its fields as such an object.

## Main results

* `JsonTree.value_of_le` — a value may be nested deeper if more is allowed.
* `Submission.parseFields?_of_wraps` — **fields are read alone as they are read with a section.**
* `Submission.wraps_wrapped` — the text of an object can be put into that of another one.
-/

namespace FormOntology

namespace JsonTree

/-! ### Nesting -/

/-- What holds of a tree if it holds of its items and members holds of all trees. -/
theorem induction {P : JsonTree → Prop} (null : P .null) (bool : ∀ b, P (.bool b))
    (number : ∀ n, P (.number n)) (string : ∀ s, P (.string s))
    (array : ∀ items, (∀ t ∈ items, P t) → P (.array items))
    (object : ∀ members : List (List StringUnit × JsonTree), (∀ m ∈ members, P m.2) →
      P (.object members)) (t : JsonTree) : P t := by
  refine @JsonTree.rec P (fun items => ∀ t ∈ items, P t) (fun members => ∀ m ∈ members, P m.2)
    (fun m => P m.2) null bool number string array object ?_ ?_ ?_ ?_ ?_ t
  · simp
  · intro t items ht hitems
    exact List.forall_mem_cons.mpr ⟨ht, hitems⟩
  · simp
  · intro m members hm hmembers
    exact List.forall_mem_cons.mpr ⟨hm, hmembers⟩
  · intro k v hv
    exact hv

/-- Whether a tree that has a value at some depth has it at a greater one. -/
def KeepsValue (t : JsonTree) : Prop :=
  ∀ {d e : Nat} {j : Json}, d ≤ e → value d t = some j → value e t = some j

theorem valueItems_of_le {items : List JsonTree} (hitems : ∀ t ∈ items, t.KeepsValue) {d e : Nat}
    (h : d ≤ e) {js : List Json} (hjs : valueItems d items = some js) :
    valueItems e items = some js := by
  induction items generalizing js with
  | nil => exact hjs
  | cons t r ih =>
    rw [List.forall_mem_cons] at hitems
    obtain ⟨j, hj, hr⟩ := Option.bind_eq_some_iff.mp hjs
    obtain ⟨js', hjs', heq⟩ := Option.bind_eq_some_iff.mp hr
    cases heq
    rw [valueItems, hitems.1 h hj, ih hitems.2 hjs']
    rfl

theorem valueMembers_of_le {members : List (List StringUnit × JsonTree)}
    (hmembers : ∀ m ∈ members, m.2.KeepsValue) {d e : Nat} (h : d ≤ e)
    {js : List (String × Json)} (hjs : valueMembers d members = some js) :
    valueMembers e members = some js := by
  induction members generalizing js with
  | nil => exact hjs
  | cons m r ih =>
    obtain ⟨k, t⟩ := m
    rw [List.forall_mem_cons] at hmembers
    obtain ⟨key, hkey, hr⟩ := Option.bind_eq_some_iff.mp hjs
    obtain ⟨j, hj, hr⟩ := Option.bind_eq_some_iff.mp hr
    obtain ⟨js', hjs', heq⟩ := Option.bind_eq_some_iff.mp hr
    cases heq
    rw [valueMembers, hkey, hmembers.1 h hj, ih hmembers.2 hjs']
    rfl

/-- A value may be nested deeper if more is allowed. -/
theorem value_of_le (t : JsonTree) : t.KeepsValue := by
  induction t using JsonTree.induction with
  | null => exact fun _ hj => hj
  | bool b => exact fun _ hj => hj
  | number n => exact fun _ hj => hj
  | string s => exact fun _ hj => hj
  | array items ih =>
    intro d e j h hj
    rw [value] at hj ⊢
    split at hj
    · cases hj
    · obtain ⟨js, hjs, rfl⟩ := Option.map_eq_some_iff.mp hj
      rw [if_neg (by omega), valueItems_of_le ih (by omega) hjs, Option.map_some]
  | object members ih =>
    intro d e j h hj
    rw [value] at hj ⊢
    split at hj
    · cases hj
    · obtain ⟨js, hjs, rfl⟩ := Option.map_eq_some_iff.mp hj
      rw [if_neg (by omega), valueMembers_of_le ih (by omega) hjs, Option.map_some]

theorem objectMembers?_of_le {t : JsonTree} {d e : Nat} (h : d ≤ e) {js : List (String × Json)}
    (hjs : objectMembers? d t = some js) : objectMembers? e t = some js := by
  cases t with
  | object members =>
    rw [objectMembers?] at hjs ⊢
    split at hjs
    · cases hjs
    · rw [if_neg (by omega)]
      exact valueMembers_of_le (fun m _ => m.2.value_of_le) (by omega) hjs
  | _ => cases hjs

end JsonTree

namespace Submission

/-! ### A section and its fields -/

/-- Whether a text is an object of a section and the fields that another text is, in either
order. -/
def Wraps (place : FormSection) (fields text : String) : Prop :=
  ∃ (members : List (List StringUnit × JsonTree)) (k u l : List StringUnit)
    (entries : List (List StringUnit × JsonTree)),
    JsonTree.parse? fields.toList = some (.object members)
      ∧ JsonTree.parse? text.toList = some (.object entries)
      ∧ (entries = [(k, .string u), (l, .object members)]
        ∨ entries = [(l, .object members), (k, .string u)])
      ∧ writtenString? k = some "section" ∧ writtenString? u = some place.name
      ∧ writtenString? l = some "fields"

/-- The fields of a record are found whatever the order in which they are written. -/
theorem record?_of_wraps {members : List (List StringUnit × JsonTree)} {k u l : List StringUnit}
    {entries : List (List StringUnit × JsonTree)}
    (hentries : entries = [(k, .string u), (l, .object members)]
      ∨ entries = [(l, .object members), (k, .string u)])
    (hk : writtenString? k = some "section") (hl : writtenString? l = some "fields") :
    ∃ found, JsonTree.record? ["section", "fields"] true (.object entries) = some found
      ∧ found.lookup "section" = some (.string u)
      ∧ found.lookup "fields" = some (.object members) := by
  rcases hentries with rfl | rfl
  · exact ⟨[("section", .string u), ("fields", .object members)],
      by simp [JsonTree.record?, JsonTree.fieldMembers?, hk, hl], rfl, rfl⟩
  · exact ⟨[("fields", .object members), ("section", .string u)],
      by simp [JsonTree.record?, JsonTree.fieldMembers?, hk, hl], rfl, rfl⟩

/-- **Fields are read alone as they are read with a section.** -/
theorem parseFields?_of_wraps {place : FormSection} {fields text : String}
    (h : Wraps place fields text) {sub : Submission} (hsub : parse? text = some sub) :
    parseFields? place fields = some sub := by
  obtain ⟨members, k, u, l, entries, hfields, htext, hentries, hk, hu, hl⟩ := h
  obtain ⟨found, hfound, hsection, hmembers⟩ := record?_of_wraps hentries hk hl
  rw [parse?, htext, Option.bind_some] at hsub
  obtain ⟨found', hfound', hsub⟩ := Option.bind_eq_some_iff.mp hsub
  obtain rfl : found = found' := Option.some_inj.mp (hfound.symm.trans hfound')
  obtain ⟨place', hplace, hsub⟩ := Option.bind_eq_some_iff.mp hsub
  obtain ⟨values, hvalues, hsub⟩ := Option.bind_eq_some_iff.mp hsub
  cases hsub
  have hplace' : place = place' := by
    rw [hsection, Option.bind_some, FormSection.ofTree?, hu, Option.bind_some,
      FormSection.ofName?_name, Option.some_inj] at hplace
    exact hplace
  have hdeeper : JsonTree.objectMembers? JsonTree.maxDepth (.object members) = some values := by
    rw [JsonTree.fieldOr, hmembers] at hvalues
    exact JsonTree.objectMembers?_of_le (by decide) hvalues
  rw [parseFields?, hfields, Option.bind_some, hdeeper, Option.map_some, hplace']

/-! ### Putting one text into another -/

/-- A section and the text of its fields as an object. -/
def wrapped (place : FormSection) (fields : String) : String :=
  "\x7b\"section\":\"" ++ place.name ++ "\",\"fields\":" ++ fields ++ "\x7d"

theorem flatMap_quoteChar_name (place : FormSection) :
    place.name.toList.flatMap Json.quoteChar = place.name.toList := by
  cases place <;> decide

/-- The text of an object can be put into that of another one. -/
theorem wraps_wrapped (place : FormSection) {fields : String}
    {members : List (List StringUnit × JsonTree)}
    (h : JsonTree.parse? fields.toList = some (.object members)) :
    Wraps place fields (wrapped place fields) := by
  obtain ⟨rest, hread, hrest⟩ := JsonTree.parse?_eq_some_iff.mp h
  have hkey : "section".toList.flatMap Json.quoteChar = "section".toList := by decide
  have hfields : "fields".toList.flatMap Json.quoteChar = "fields".toList := by decide
  have htext : (wrapped place fields).toList
      = '\x7b' :: '"' :: ("section".toList.flatMap Json.quoteChar ++ '"' :: ':' :: '"' ::
        (place.name.toList.flatMap Json.quoteChar ++ '"' :: ',' :: '"' ::
          ("fields".toList.flatMap Json.quoteChar ++ '"' :: ':' ::
            (fields.toList ++ ['\x7d'])))) := by
    rw [hkey, hfields, flatMap_quoteChar_name]
    simp [wrapped]
  have hvalue : ∀ fuel, 2 * fields.toList.length + 2 ≤ fuel →
      JsonTree.value? (fuel + 3) (wrapped place fields).toList
        = some (.object [("section".toList.map .ofChar,
            .string (place.name.toList.map .ofChar)),
          ("fields".toList.map .ofChar, .object members)], []) := by
    intro fuel hfuel
    -- the fields are read as they were alone, with the closing brace behind them
    have hinner := JsonTree.value?_carries hfuel hread ['\x7d'] fun _ => by
      rw [stopsBefore_cons]
      rfl
    have hclose : JsonTree.skipBlanks (rest ++ ['\x7d']) = ['\x7d'] := by
      rw [JsonTree.skipBlanks, List.dropWhile_append_of_pos (List.dropWhile_eq_nil_iff.mp hrest)]
      rfl
    rw [htext]
    exact value?_object rfl (members?_more (stringTail?_quoted _ _)
      (value?_string (stringTail?_quoted _ _))
      (members?_last (stringTail?_quoted _ _) hinner hclose))
  refine ⟨members, "section".toList.map .ofChar, place.name.toList.map .ofChar,
    "fields".toList.map .ofChar, _, h, ?_, .inl rfl, writtenString?_map_ofChar _,
    writtenString?_map_ofChar _, writtenString?_map_ofChar _⟩
  have hlength : fields.toList.length + 3 ≤ (wrapped place fields).toList.length := by
    rw [htext]
    simp only [List.length_cons, List.length_append]
    omega
  obtain ⟨fuel, hfuel⟩ : ∃ fuel, 2 * (wrapped place fields).toList.length + 2 = fuel + 3 :=
    ⟨2 * (wrapped place fields).toList.length - 1, by omega⟩
  exact JsonTree.parse?_eq_some_iff.mpr
    ⟨[], by rw [hfuel]; exact hvalue fuel (by omega), rfl⟩

end Submission

end FormOntology
