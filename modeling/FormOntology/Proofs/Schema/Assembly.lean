import Mathlib.Data.List.Basic
import FormOntology.Schema.Compiler

/-!
# Fields of an assembled schema

A property is kept at most once, so the fields of a section have different identifiers, and every
field is made of a declaration that was read.

## Main results

* `nodup_ids_compileSource` — within a section an identifier belongs to one field.
* `mem_fieldsOf_compileSource` — a field of a compiled schema comes from a block of the source.
-/

namespace FormOntology

@[simp] theorem Schema.fieldsOf_ofFields (fields : FormSection → List Field) (s : FormSection) :
    (Schema.ofFields fields).fieldsOf s = fields s := by
  simp [Schema.ofFields, Schema.fieldsOf, SectionSchema.ofFields]

/-! ### Kept declarations -/

/-- A declaration that is placed was not kept before. -/
theorem Placement.of_ok_lookup {t : ClassTable} {kept : List (String × Location)}
    {d : Declaration} {p : Placement} (h : Placement.of t kept d = .ok p) :
    kept.lookup d.identifier = none := by
  unfold Placement.of at h
  split at h
  · cases h
  split at h
  · cases h
  split at h
  · cases h
  split at h
  · cases h
  · assumption

/-- Placing declarations keeps their order and drops none from the list. -/
theorem map_declaration_placements (t : ClassTable) (kept : List (String × Location))
    (ds : List Declaration) : (placements t kept ds).map Placed.declaration = ds := by
  induction ds generalizing kept with
  | nil => rfl
  | cons d ds ih =>
    rw [placements]
    split <;> simp [ih]

/-- A field is made of its declaration. -/
theorem Placed.field?_eq_some {p : Placed} {s : FormSection} {f : Field}
    (h : p.field? s = some f) : ∃ place, p.placement = .ok place ∧ place.sections.contains s
      ∧ f = Placed.fieldOf p.declaration place.label s := by
  unfold Placed.field? at h
  split at h
  · cases h
  · next place hp =>
    split at h
    · next hs =>
      cases h
      exact ⟨place, hp, hs, rfl⟩
    · cases h

theorem lookup_eq_none_of_cons {a b : String} {l : Location} {kept : List (String × Location)}
    (h : ((b, l) :: kept).lookup a = none) : a ≠ b ∧ kept.lookup a = none := by
  by_cases hab : a = b
  · subst hab
    simp at h
  · rw [List.lookup_cons, beq_false_of_ne hab] at h
    exact ⟨hab, h⟩

/-- Fields have identifiers that were not kept before. -/
theorem lookup_of_mem_fields {t : ClassTable} {kept : List (String × Location)}
    {ds : List Declaration} {s : FormSection} {f : Field}
    (h : f ∈ (placements t kept ds).filterMap (·.field? s)) : kept.lookup f.id = none := by
  induction ds generalizing kept with
  | nil => simp [placements] at h
  | cons d ds ih =>
    rw [placements] at h
    split at h
    · exact ih (by simpa [List.filterMap_cons, Placed.field?] using h)
    · next p hp =>
      rw [List.filterMap_cons] at h
      split at h
      · exact (lookup_eq_none_of_cons (ih h)).2
      · next g hg =>
        rcases List.mem_cons.mp h with rfl | h
        · obtain ⟨_, _, _, rfl⟩ := Placed.field?_eq_some hg
          exact Placement.of_ok_lookup hp
        · exact (lookup_eq_none_of_cons (ih h)).2

/-- The fields that placed declarations add to a section have different identifiers. -/
theorem nodup_ids_placements (t : ClassTable) (kept : List (String × Location))
    (ds : List Declaration) (s : FormSection) :
    (((placements t kept ds).filterMap (·.field? s)).map Field.id).Nodup := by
  induction ds generalizing kept with
  | nil => simp [placements]
  | cons d ds ih =>
    rw [placements]
    split
    · simpa [List.filterMap_cons, Placed.field?] using ih kept
    · next p hp =>
      rw [List.filterMap_cons]
      split
      · exact ih _
      · next g hg =>
        obtain ⟨_, _, _, rfl⟩ := Placed.field?_eq_some hg
        rw [List.map_cons, List.nodup_cons]
        refine ⟨?_, ih _⟩
        intro hmem
        obtain ⟨f, hf, hid⟩ := List.mem_map.mp hmem
        exact (lookup_eq_none_of_cons (lookup_of_mem_fields hf)).1 hid

/-- **Within a section of a compiled schema an identifier belongs to one field.** -/
theorem nodup_ids_compileSource [PatternLibrary] (c : Compiler) (source : Combined)
    (s : FormSection) :
    (((c.compileSource source).schema.fieldsOf s).map Field.id).Nodup := by
  rw [Compiler.compileSource, assemble, Schema.fieldsOf_ofFields]
  exact nodup_ids_placements _ [] _ s

/-! ### Where fields come from -/

/-- A field of an assembled schema is made of one of the declarations. -/
theorem mem_fieldsOf_assemble {t : ClassTable} {ds : List Declaration} {s : FormSection}
    {f : Field} (h : f ∈ (assemble t ds).1.fieldsOf s) :
    ∃ d ∈ ds, ∃ label, f = Placed.fieldOf d label s := by
  rw [assemble, Schema.fieldsOf_ofFields, List.mem_filterMap] at h
  obtain ⟨p, hp, hf⟩ := h
  obtain ⟨place, _, _, rfl⟩ := Placed.field?_eq_some hf
  refine ⟨p.declaration, ?_, place.label, rfl⟩
  rw [← map_declaration_placements t [] ds]
  exact List.mem_map_of_mem hp

/-- **A field of a compiled schema comes from a block of the source**, and its attributes are those
that the block is read to have. -/
theorem mem_fieldsOf_compileSource [PatternLibrary] {c : Compiler} {source : Combined}
    {s : FormSection} {f : Field} (h : f ∈ (c.compileSource source).schema.fieldsOf s) :
    ∃ b ∈ blocks c.vocabulary source.text, ∃ label, f = Placed.fieldOf
      (Declaration.resolve b (AttributeSet.extract c.vocabulary b.text)
        (source.locate b.span.start)).1 label s := by
  obtain ⟨d, hd, label, rfl⟩ := mem_fieldsOf_assemble h
  rw [Combined.declarations, Combined.declarationsBy, List.map_map, List.mem_map] at hd
  obtain ⟨b, hb, rfl⟩ := hd
  exact ⟨b, hb, label, rfl⟩

end FormOntology
