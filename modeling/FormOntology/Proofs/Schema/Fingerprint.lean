import FormOntology.Proofs.Json.Members
import FormOntology.Proofs.Json.Reading
import FormOntology.Schema.Basic

/-!
# What the fingerprint tells apart

A schema can be looked up in its canonical JSON, member by member, and so is given away by it.
Together with the reader of JSON texts it follows that two schemas with one canonical text are one
schema.  Two different schemas have a fingerprint in common only if the digest does not tell their
texts apart.

## Main definitions

* `Schema.canonicalBytes` — the bytes that the fingerprint is the digest of.

## Main results

* `SectionSchema.toJson_inj` — a section is given away by its JSON value.
* `Schema.sectionsJson_inj`, `Schema.toJson_inj` — so are the sections of a schema, and a schema.
* `Schema.fingerprint_eq_iff` — **schemas with one canonical text are the same, so a common
  fingerprint of two different ones is a collision of the digest.**
-/

namespace FormOntology

/-! ### Names -/

theorem Control.name_inj {c d : Control} (h : c.name = d.name) : c = d := by
  revert h
  cases c <;> cases d <;> decide

theorem ValueRange.name_inj {r s : ValueRange} (h : r.name = s.name) : r = s := by
  revert h
  cases r <;> cases s <;> decide

theorem FormSection.name_inj {s t : FormSection} (h : s.name = t.name) : s = t := by
  rw [← Option.some_inj, ← ofName?_name s, h, ofName?_name]

/-! ### Records -/

theorem Json.optional_string_inj {o p : Option String} (h : o.map string = p.map string) :
    o = p :=
  Option.map_injective (fun _ _ => Json.string.inj) h

theorem FieldOption.toJson_inj {o p : FieldOption} (h : o.toJson = p.toJson) : o = p := by
  cases o
  cases p
  simpa [toJson] using h

theorem Location.toJson_inj {l m : Location} (h : l.toJson = m.toJson) : l = m := by
  cases l
  cases m
  simpa [toJson, Json.nat, Int.natCast_inj] using h

/-- A field is given away by its JSON value. -/
theorem Field.toJson_inj {f g : Field} (h : f.toJson = g.toJson) : f = g := by
  have hmember : ∀ name, f.toJson.member? name = g.toJson.member? name := fun name => by rw [h]
  have hid : f.id = g.id := by simpa [toJson] using hmember "id"
  have hlabel : f.label = g.label := by simpa [toJson] using hmember "label"
  have hcontrol : f.control = g.control :=
    Control.name_inj (by simpa [toJson] using hmember "type")
  have hrequired : f.required = g.required := by simpa [toJson] using hmember "required"
  have hhelp : f.helpText = g.helpText :=
    Json.optional_string_inj (by simpa [toJson, List.lookup_append] using hmember "helpText")
  have hoptions : f.options = g.options :=
    eq_of_map_eq (fun _ _ _ _ => FieldOption.toJson_inj)
      (by simpa [toJson, List.lookup_append] using hmember "options")
  have hsection : f.inSection = g.inSection :=
    FormSection.name_inj (by simpa [toJson, List.lookup_append] using hmember "section")
  have hconditional : f.conditionalDisplay = g.conditionalDisplay :=
    Json.optional_string_inj
      (by simpa [toJson, List.lookup_append] using hmember "conditionalDisplay")
  have hrange : f.valueType = g.valueType :=
    ValueRange.name_inj (by simpa [toJson, List.lookup_append] using hmember "valueType")
  have hpattern : f.validationPattern = g.validationPattern :=
    Json.optional_string_inj
      (by simpa [toJson, List.lookup_append] using hmember "validationPattern")
  have hdefault : f.defaultValue = g.defaultValue :=
    Json.optional_string_inj (by simpa [toJson, List.lookup_append] using hmember "defaultValue")
  have hsource : f.source = g.source :=
    Location.toJson_inj (by simpa [toJson, List.lookup_append] using hmember "source")
  cases f
  cases g
  simp_all

/-- A section is given away by its JSON value. -/
theorem SectionSchema.toJson_inj {s t : SectionSchema} (h : s.toJson = t.toJson) : s = t := by
  have hmember : ∀ name, s.toJson.member? name = t.toJson.member? name := fun name => by rw [h]
  have hid : s.id = t.id := FormSection.name_inj (by simpa [toJson] using hmember "id")
  have htitle : s.title = t.title := by simpa [toJson] using hmember "title"
  have horder : s.order = t.order := by
    simpa [toJson, Json.nat, Int.natCast_inj] using hmember "order"
  have hfields : s.fields = t.fields :=
    eq_of_map_eq (fun _ _ _ _ => Field.toJson_inj) (by simpa [toJson] using hmember "fields")
  cases s
  cases t
  simp_all

namespace Schema

/-- A section is found in the canonical JSON under its name. -/
theorem member?_sectionsJson (s : Schema) (place : FormSection) :
    s.sectionsJson.member? place.name = (s.sections.get place).map SectionSchema.toJson := by
  have hlookup := lookup_filterMap_name (fun _ _ => FormSection.name_inj)
    (fun place => (s.sections.get place).map (·.toJson)) _ (FormSection.mem_all place)
  rw [← hlookup]
  simp [sectionsJson, Function.comp_def]

/-- The sections of a schema are given away by their JSON value. -/
theorem sectionsJson_inj {s t : Schema} (h : s.sectionsJson = t.sectionsJson) : s = t := by
  have hsections : s.sections = t.sections := PerSection.ext_get fun place => by
    refine Option.map_injective (fun _ _ => SectionSchema.toJson_inj) ?_
    rw [← member?_sectionsJson, h, member?_sectionsJson]
  exact congrArg Schema.mk hsections

/-- A schema is given away by its JSON value. -/
theorem toJson_inj {s t : Schema} (h : s.toJson = t.toJson) : s = t := by
  have hmember : s.toJson.member? "sections" = t.toJson.member? "sections" := by rw [h]
  exact sectionsJson_inj (by simpa [toJson] using hmember)

/-! ### Texts and digests -/

end Schema

@[simp] theorem Json.isWhole_optional (name : String) (o : Option String) :
    (optional name o).all (·.2.isWhole) = true := by
  cases o <;> rfl

@[simp] theorem FieldOption.isWhole_toJson (o : FieldOption) : o.toJson.isWhole = true := rfl

@[simp] theorem Location.isWhole_toJson (l : Location) : l.toJson.isWhole = true := rfl

@[simp] theorem Field.isWhole_toJson (f : Field) : f.toJson.isWhole = true := by
  simp [toJson]

@[simp] theorem SectionSchema.isWhole_toJson (s : SectionSchema) : s.toJson.isWhole = true := by
  simp [toJson]

namespace Schema

theorem isWhole_sectionsJson (s : Schema) : s.sectionsJson.isWhole = true := by
  rw [sectionsJson, Json.isWhole_object, List.all_eq_true]
  intro m hm
  obtain ⟨place, -, hplace⟩ := List.mem_filterMap.mp hm
  obtain ⟨part, -, rfl⟩ := Option.map_eq_some_iff.mp hplace
  exact part.isWhole_toJson

/-- The bytes of the canonical text, which the fingerprint is the digest of. -/
def canonicalBytes (s : Schema) : List UInt8 :=
  (String.ofList s.sectionsJson.compact).toUTF8.data.toList

theorem fingerprint_eq (s : Schema) : s.fingerprint = .ofBytes s.canonicalBytes := rfl

/-- A schema is given away by its canonical text. -/
theorem compact_sectionsJson_inj {s t : Schema}
    (h : s.sectionsJson.compact = t.sectionsJson.compact) : s = t :=
  sectionsJson_inj (Json.compact_inj s.isWhole_sectionsJson t.isWhole_sectionsJson h)

theorem canonicalBytes_inj {s t : Schema} (h : s.canonicalBytes = t.canonicalBytes) : s = t := by
  have htext := String.toByteArray_inj.mp (ByteArray.ext (Array.toList_inj.mp h))
  exact compact_sectionsJson_inj (String.ofList_injective htext)

/-- **Schemas with one canonical text are the same, so a common fingerprint of two different ones
is a collision of the digest.** -/
theorem fingerprint_eq_iff (s t : Schema) :
    (s.sectionsJson.compact = t.sectionsJson.compact ↔ s = t)
      ∧ (s.fingerprint = t.fingerprint ↔
          s = t ∨ s.canonicalBytes ≠ t.canonicalBytes
            ∧ Digest.ofBytes s.canonicalBytes = Digest.ofBytes t.canonicalBytes) := by
  refine ⟨⟨compact_sectionsJson_inj, fun h => h ▸ rfl⟩, ?_⟩
  rw [fingerprint_eq, fingerprint_eq]
  constructor
  · intro h
    by_cases hbytes : s.canonicalBytes = t.canonicalBytes
    · exact .inl (canonicalBytes_inj hbytes)
    · exact .inr ⟨hbytes, h⟩
  · rintro (rfl | ⟨-, h⟩)
    · rfl
    · exact h

end Schema

end FormOntology
