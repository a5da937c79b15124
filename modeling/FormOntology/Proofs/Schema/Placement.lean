import FormOntology.Proofs.Schema.Assembly
import FormOntology.Proofs.Schema.Classification

/-!
# Where declarations are placed

A declaration can be placed if it has a label that is not blank and a class with sections.  Of the
declarations of a property that can be placed the first one is kept; those that cannot be placed
take nothing away from the later ones.  So what a declaration becomes depends on those in front of
it alone, and a section has a field for each kept declaration of its classes, in order.

## Main definitions

* `Declaration.placement?` — the label and the sections of a declaration that can be placed.
* `firstPlaced?` — the first declaration of a property that can be placed.
* `Declaration.keptBehind?` — where a declaration is kept behind others.
* `Assembled` — what is assembled of declarations.

## Main results

* `placements_eq` — what becomes of a declaration, by those in front of it.
* `assembled` — **what is assembled of the declarations of a list.**
-/

namespace FormOntology

variable {t : ClassTable} {kept : List (String × Location)} {d : Declaration}
  {ds : List Declaration}

/-! ### Declarations that can be placed -/

/-- The label of a declaration and the sections of its class, if it has a label that is not blank
and a class with sections. -/
def Declaration.placement? (t : ClassTable) (d : Declaration) : Option Placement := do
  let label ← d.label.filter (!Text.isBlankString ·)
  let className ← d.domain
  return ⟨label, ← t.classify? className⟩

/-- Why a declaration cannot be placed. -/
inductive Unplaceable (t : ClassTable) (d : Declaration) : Defect → Prop where
  /-- It has no label, or a blank one. -/
  | label (h : ∀ label, d.label = some label → Text.isBlankString label = true) :
    Unplaceable t d .missingLabel
  /-- It has a label and no class. -/
  | domain {label : String} (hl : d.label = some label) (hb : Text.isBlankString label = false)
    (h : d.domain = none) : Unplaceable t d .missingDomain
  /-- It has a label and a class without a section. -/
  | unknown {label className : String} (hl : d.label = some label)
    (hb : Text.isBlankString label = false) (hd : d.domain = some className)
    (h : t.classify? className = none) : Unplaceable t d (.unknownClass className)

theorem Declaration.placement?_eq_some_iff {p : Placement} : d.placement? t = some p
    ↔ d.label = some p.label ∧ Text.isBlankString p.label = false
      ∧ ∃ className, d.domain = some className ∧ t.classify? className = some p.sections := by
  unfold Declaration.placement?
  simp only [Option.bind_eq_bind, Option.bind_eq_some_iff, Option.filter_eq_some_iff,
    Bool.not_eq_true']
  constructor
  · rintro ⟨label, ⟨hl, hb⟩, className, hd, sections, hc, h⟩
    cases h
    exact ⟨hl, hb, className, hd, hc⟩
  · rintro ⟨hl, hb, className, hd, hc⟩
    exact ⟨p.label, ⟨hl, hb⟩, className, hd, p.sections, hc, rfl⟩

theorem filter_label {label : String} (hl : d.label = some label)
    (hb : Text.isBlankString label = false) :
    d.label.filter (!Text.isBlankString ·) = some label := by
  simp [hl, hb]

/-- A declaration that can be placed is kept unless its property was. -/
theorem Placement.of_of_placement? {p : Placement} (h : d.placement? t = some p)
    (kept : List (String × Location)) : Placement.of t kept d
      = match kept.lookup d.identifier with
        | some first => .error (.duplicateProperty first)
        | none => .ok p := by
  obtain ⟨hl, hb, className, hd, hc⟩ := Declaration.placement?_eq_some_iff.mp h
  unfold Placement.of
  cases kept.lookup d.identifier <;> simp only [filter_label hl hb, hd, hc]

/-- A declaration that cannot be placed is dropped, whatever was kept. -/
theorem Unplaceable.of_eq {defect : Defect} (h : Unplaceable t d defect)
    (kept : List (String × Location)) : Placement.of t kept d = .error defect := by
  unfold Placement.of
  cases h with
  | label h =>
    have hfilter : d.label.filter (!Text.isBlankString ·) = none := by
      rw [Option.filter_eq_none_iff]
      intro label hl
      simp [h label hl]
    simp only [hfilter]
  | domain hl hb h => simp only [filter_label hl hb, h]
  | unknown hl hb hd h => simp only [filter_label hl hb, hd, h]

/-- What cannot be placed lacks a label, a class or its sections. -/
theorem placement?_eq_none_iff :
    d.placement? t = none ↔ ∃ defect, Unplaceable t d defect := by
  constructor
  · intro h
    by_cases hl : ∀ label, d.label = some label → Text.isBlankString label = true
    · exact ⟨_, .label hl⟩
    · push Not at hl
      obtain ⟨label, hl, hb⟩ := hl
      replace hb := Bool.eq_false_iff.mpr hb
      cases hd : d.domain with
      | none => exact ⟨_, .domain hl hb hd⟩
      | some className =>
        refine ⟨_, .unknown hl hb hd (Option.eq_none_iff_forall_ne_some.mpr fun sections hc => ?_)⟩
        have hp : d.placement? t = some ⟨label, sections⟩ :=
          Declaration.placement?_eq_some_iff.mpr ⟨hl, hb, className, hd, hc⟩
        rw [h] at hp
        cases hp
  · rintro ⟨defect, h⟩
    refine Option.eq_none_iff_forall_ne_some.mpr fun p hp => ?_
    have := (h.of_eq []).symm.trans (Placement.of_of_placement? hp [])
    simp at this

theorem Placement.of_eq_ok_iff {p : Placement} : Placement.of t kept d = .ok p
    ↔ d.placement? t = some p ∧ kept.lookup d.identifier = none := by
  cases h : d.placement? t with
  | none =>
    obtain ⟨defect, hdefect⟩ := placement?_eq_none_iff.mp h
    simp [hdefect.of_eq]
  | some q =>
    rw [Placement.of_of_placement? h]
    cases kept.lookup d.identifier <;> simp

/-- A declaration is dropped because it cannot be placed or because its property was kept. -/
theorem Placement.of_eq_error_iff {defect : Defect} : Placement.of t kept d = .error defect
    ↔ Unplaceable t d defect ∨ ((d.placement? t).isSome = true
      ∧ ∃ first, kept.lookup d.identifier = some first
        ∧ defect = .duplicateProperty first) := by
  cases h : d.placement? t with
  | none =>
    obtain ⟨reason, hreason⟩ := placement?_eq_none_iff.mp h
    rw [hreason.of_eq]
    constructor
    · rintro ⟨⟩
      exact .inl hreason
    · rintro (hdefect | ⟨h, -⟩)
      · exact (hreason.of_eq kept).symm.trans (hdefect.of_eq kept)
      · cases h
  | some p =>
    have hno : ¬Unplaceable t d defect := fun hdefect => by
      simp [placement?_eq_none_iff.mpr ⟨defect, hdefect⟩] at h
    rw [Placement.of_of_placement? h]
    cases kept.lookup d.identifier <;> simp [hno, eq_comm]

/-! ### Kept properties -/

/-- The first declaration of a property that can be placed. -/
def firstPlaced? (t : ClassTable) (ds : List Declaration) (id : String) : Option Declaration :=
  ds.find? fun d => d.identifier = id && (d.placement? t).isSome

/-- The properties that are kept behind one more declaration. -/
def keepOne (t : ClassTable) (kept : List (String × Location)) (d : Declaration) :
    List (String × Location) :=
  match Placement.of t kept d with
  | .error _ => kept
  | .ok _ => (d.identifier, d.location) :: kept

/-- The properties that are kept behind declarations, the last one first. -/
def keptAfter (t : ClassTable) (kept : List (String × Location)) (ds : List Declaration) :
    List (String × Location) :=
  ds.foldl (keepOne t) kept

theorem placements_cons (t : ClassTable) (kept : List (String × Location)) (d : Declaration)
    (ds : List Declaration) : placements t kept (d :: ds)
      = ⟨d, Placement.of t kept d⟩ :: placements t (keepOne t kept d) ds := by
  rw [placements, keepOne]
  cases Placement.of t kept d <;> rfl

/-- One more declaration keeps its property if that was not kept and it can be placed. -/
theorem lookup_keepOne (t : ClassTable) (kept : List (String × Location)) (d : Declaration)
    (id : String) : (keepOne t kept d).lookup id
      = (kept.lookup id).or
        (if d.identifier = id ∧ (d.placement? t).isSome = true then some d.location else none) := by
  unfold keepOne
  cases hof : Placement.of t kept d with
  | error defect =>
    rcases Placement.of_eq_error_iff.mp hof with h | ⟨-, first, hfirst, -⟩
    · simp [placement?_eq_none_iff.mpr ⟨defect, h⟩]
    · by_cases hid : d.identifier = id
      · simp [← hid, hfirst]
      · simp [hid]
  | ok p =>
    obtain ⟨hp, hnone⟩ := Placement.of_eq_ok_iff.mp hof
    by_cases hid : d.identifier = id
    · simp [← hid, hnone, hp]
    · simp [List.lookup_cons, beq_false_of_ne (Ne.symm hid), hid]

/-- A property is kept where it was kept before or where it can be placed first. -/
theorem lookup_keptAfter (t : ClassTable) (kept : List (String × Location))
    (ds : List Declaration) (id : String) : (keptAfter t kept ds).lookup id
      = (kept.lookup id).or ((firstPlaced? t ds id).map (·.location)) := by
  induction ds generalizing kept with
  | nil => simp [keptAfter, firstPlaced?]
  | cons d r ih =>
    have hstep : keptAfter t kept (d :: r) = keptAfter t (keepOne t kept d) r := rfl
    -- a property that was kept before stays so; else `d` is the first one, or it is not counted
    rw [hstep, ih, lookup_keepOne, Option.or_assoc, firstPlaced?, firstPlaced?, List.find?_cons]
    by_cases h : d.identifier = id ∧ (d.placement? t).isSome = true
    · simp [h]
    · have hskip : (decide (d.identifier = id) && (d.placement? t).isSome) = false := by
        rw [Bool.eq_false_iff, ne_eq, Bool.and_eq_true, decide_eq_true_eq]
        exact h
      rw [if_neg h, hskip]
      simp

/-- **What becomes of a declaration, by those in front of it.** -/
theorem placements_eq (t : ClassTable) (kept : List (String × Location))
    (ds : List Declaration) : placements t kept ds
      = ds.zipIdx.map fun (d, i) => ⟨d, Placement.of t (keptAfter t kept (ds.take i)) d⟩ := by
  induction ds generalizing kept with
  | nil => rfl
  | cons d r ih =>
    rw [placements_cons, ih, List.zipIdx_cons, List.map_cons, List.zipIdx_succ, List.map_map]
    rfl

theorem placements_append (t : ClassTable) (kept : List (String × Location))
    (ds more : List Declaration) : placements t kept (ds ++ more)
      = placements t kept ds ++ placements t (keptAfter t kept ds) more := by
  induction ds generalizing kept with
  | nil => rfl
  | cons d r ih =>
    rw [List.cons_append, placements_cons, placements_cons, ih]
    rfl

/-! ### Kept declarations -/

/-- Where a declaration is kept behind others: where it is placed, if none of the others with its
identifier can be. -/
def Declaration.keptBehind? (t : ClassTable) (earlier : List Declaration) (d : Declaration) :
    Option Placement :=
  if (firstPlaced? t earlier d.identifier).isNone then d.placement? t else none

theorem Declaration.keptBehind?_eq_some_iff {earlier : List Declaration} {p : Placement} :
    d.keptBehind? t earlier = some p ↔ d.placement? t = some p
      ∧ ∀ e ∈ earlier, e.identifier = d.identifier → e.placement? t = none := by
  have hfirst : (firstPlaced? t earlier d.identifier).isNone = true
      ↔ ∀ e ∈ earlier, e.identifier = d.identifier → e.placement? t = none := by
    simp [firstPlaced?]
  unfold Declaration.keptBehind?
  rw [← hfirst]
  split <;> simp_all

/-- A declaration is kept exactly if it is placed behind those in front of it. -/
theorem of_keptAfter_eq_ok_iff {earlier : List Declaration} {p : Placement} :
    Placement.of t (keptAfter t [] earlier) d = .ok p ↔ d.keptBehind? t earlier = some p := by
  rw [Placement.of_eq_ok_iff, lookup_keptAfter, Declaration.keptBehind?]
  cases firstPlaced? t earlier d.identifier <;> simp

/-- The first declaration of a property that can be placed is kept. -/
theorem kept_of_firstPlaced? {id : String} {e : Declaration} (h : firstPlaced? t ds id = some e) :
    ∃ j p, ds[j]? = some e ∧ e.identifier = id ∧ e.keptBehind? t (ds.take j) = some p := by
  obtain ⟨he, before, after, rfl, hbefore⟩ := List.find?_eq_some_iff_append.mp h
  rw [Bool.and_eq_true, decide_eq_true_eq] at he
  obtain ⟨hid, hplaced⟩ := he
  obtain ⟨p, hp⟩ := Option.isSome_iff_exists.mp hplaced
  refine ⟨before.length, p, by simp, hid, Declaration.keptBehind?_eq_some_iff.mpr ⟨hp, ?_⟩⟩
  intro a ha hida
  have hfalse := hbefore a (by simpa using ha)
  simpa [hida.trans hid] using hfalse

/-- The field that a declaration behind others adds to a section. -/
def Declaration.fieldBehind? (t : ClassTable) (earlier : List Declaration) (s : FormSection)
    (d : Declaration) : Option Field :=
  (d.keptBehind? t earlier).bind fun p =>
    if s ∈ p.sections then some (Placed.fieldOf d p.label s) else none

theorem field?_placed {earlier : List Declaration} (s : FormSection) :
    Placed.field? ⟨d, Placement.of t (keptAfter t [] earlier) d⟩ s
      = d.fieldBehind? t earlier s := by
  unfold Placed.field? Declaration.fieldBehind?
  cases hof : Placement.of t (keptAfter t [] earlier) d with
  | ok p =>
    rw [of_keptAfter_eq_ok_iff.mp hof]
    simp
  | error defect =>
    cases hk : d.keptBehind? t earlier with
    | none => rfl
    | some p =>
      rw [of_keptAfter_eq_ok_iff.mpr hk] at hof
      cases hof

/-- The fields of a section, one for each declaration that is kept for it, in order. -/
theorem fieldsOf_assemble (t : ClassTable) (ds : List Declaration) (s : FormSection) :
    (assemble t ds).1.fieldsOf s
      = ds.zipIdx.filterMap fun (d, i) => d.fieldBehind? t (ds.take i) s := by
  rw [assemble, Schema.fieldsOf_ofFields, placements_eq, List.filterMap_map]
  exact List.filterMap_congr fun x _ => field?_placed s

theorem Declaration.fieldBehind?_eq_some_iff {earlier : List Declaration} {s : FormSection}
    {f : Field} : d.fieldBehind? t earlier s = some f
      ↔ ∃ p, d.keptBehind? t earlier = some p ∧ s ∈ p.sections
        ∧ f = Placed.fieldOf d p.label s := by
  unfold Declaration.fieldBehind?
  rw [Option.bind_eq_some_iff]
  refine exists_congr fun p => and_congr_right fun _ => ?_
  simp [eq_comm]

theorem mem_fieldsOf_assemble_iff {s : FormSection} {f : Field} :
    f ∈ (assemble t ds).1.fieldsOf s ↔ ∃ i d p, ds[i]? = some d
      ∧ d.keptBehind? t (ds.take i) = some p ∧ s ∈ p.sections
      ∧ f = Placed.fieldOf d p.label s := by
  rw [fieldsOf_assemble, List.mem_filterMap]
  constructor
  · rintro ⟨⟨d, i⟩, hi, hf⟩
    obtain ⟨p, hp⟩ := Declaration.fieldBehind?_eq_some_iff.mp hf
    exact ⟨i, d, p, List.mem_zipIdx_iff_getElem?.mp hi, hp⟩
  · rintro ⟨i, d, p, hi, hp⟩
    exact ⟨(d, i), List.mem_zipIdx_iff_getElem?.mpr hi,
      Declaration.fieldBehind?_eq_some_iff.mpr ⟨p, hp⟩⟩

/-- A property is kept at one place. -/
theorem kept_place_unique {e : Declaration} {i j : Nat} {p q : Placement}
    (hi : ds[i]? = some d) (hj : ds[j]? = some e) (hp : d.keptBehind? t (ds.take i) = some p)
    (hq : e.keptBehind? t (ds.take j) = some q) (hid : d.identifier = e.identifier) : i = j := by
  obtain ⟨hp, hbefore⟩ := Declaration.keptBehind?_eq_some_iff.mp hp
  obtain ⟨hq, hbefore'⟩ := Declaration.keptBehind?_eq_some_iff.mp hq
  -- of two places the one in front would keep the other from being kept
  rcases Nat.lt_trichotomy i j with hij | rfl | hij
  · have := hbefore' d (List.mem_of_getElem? (by rwa [List.getElem?_take_of_lt hij])) hid
    simp [hp] at this
  · rfl
  · have := hbefore e (List.mem_of_getElem? (by rwa [List.getElem?_take_of_lt hij])) hid.symm
    simp [hq] at this

/-! ### Assembled schemas -/

/-- The fields that a declaration behind others adds when it is added to the listed sections one
after another. -/
def Declaration.pushed (t : ClassTable) (earlier : List Declaration) (d : Declaration) :
    List Field :=
  match d.keptBehind? t earlier with
  | none => []
  | some p => p.sections.map (Placed.fieldOf d p.label)

/-- What is assembled of declarations. -/
structure Assembled (t : ClassTable) (ds : List Declaration) (schema : Schema) : Prop where
  /-- All five sections are there, each with its own name, title and place. -/
  sections_get : ∀ s, ∃ fields, schema.sections.get s = some ⟨s, s.title, s.order, fields⟩
  /-- A section has one field for each declaration that is kept for it, in order. -/
  fieldsOf_eq : ∀ s, schema.fieldsOf s
    = ds.zipIdx.filterMap fun (d, i) => d.fieldBehind? t (ds.take i) s
  /-- These are the fields that adding each declaration to each listed section gives. -/
  fieldsOf_eq_pushed : ∀ s, schema.fieldsOf s
    = (ds.zipIdx.flatMap fun (d, i) => d.pushed t (ds.take i)).filter (·.inSection = s)
  /-- The control is the one that a declaration names, if there is such a control, else the
  inferred one. -/
  control_eq : ∀ d ∈ ds, ∀ label s, (Placed.fieldOf d label s).control
    = (d.formType.bind fun name => (Control.parse name).toOption).getD
      (Control.infer d.range d.identifier d.enumeration.length)
  /-- Within a section an identifier belongs to one field. -/
  nodup_ids : ∀ s, ((schema.fieldsOf s).map Field.id).Nodup
  /-- A kept property is in the sections of its class, and nowhere else. -/
  mem_fieldsOf_iff : ∀ earlier d later p, ds = earlier ++ d :: later →
    d.keptBehind? t earlier = some p → ∀ s f,
      f ∈ schema.fieldsOf s ∧ f.id = d.identifier
        ↔ s ∈ p.sections ∧ f = Placed.fieldOf d p.label s

theorem control_fieldOf (d : Declaration) (label : String) (s : FormSection) :
    (Placed.fieldOf d label s).control
      = (d.formType.bind fun name => (Control.parse name).toOption).getD
        (Control.infer d.range d.identifier d.enumeration.length) := by
  change (Placed.controlOf d).1 = _
  unfold Placed.controlOf
  cases d.formType with
  | none => rfl
  | some name =>
    cases h : Control.parse name with
    | ok control => simp [h, Except.toOption]
    | error e => simp [h, Except.toOption]

/-- As no section is listed twice, a section gets one of the fields that are added. -/
theorem filter_pushed {earlier : List Declaration} (s : FormSection) :
    (d.pushed t earlier).filter (·.inSection = s) = (d.fieldBehind? t earlier s).toList := by
  unfold Declaration.pushed Declaration.fieldBehind?
  cases hk : d.keptBehind? t earlier with
  | none => rfl
  | some p =>
    obtain ⟨-, -, className, -, hc⟩ := Declaration.placement?_eq_some_iff.mp
      (Declaration.keptBehind?_eq_some_iff.mp hk).1
    have hfilter : p.sections.filter (· = s) = if s ∈ p.sections then [s] else [] := by
      rw [List.filter_eq, (ClassTable.nodup_of_classify? hc).count]
      split <;> rfl
    simp only [Option.bind_some]
    rw [List.filter_map]
    change (p.sections.filter (· = s)).map _ = _
    rw [hfilter]
    split <;> rfl

/-- A kept property is in the sections of its class, and nowhere else. -/
theorem mem_fieldsOf_iff_of_kept {earlier later : List Declaration} {p : Placement}
    (hk : d.keptBehind? t earlier = some p) {s : FormSection} {f : Field} :
    f ∈ (assemble t (earlier ++ d :: later)).1.fieldsOf s ∧ f.id = d.identifier
      ↔ s ∈ p.sections ∧ f = Placed.fieldOf d p.label s := by
  have hd : (earlier ++ d :: later)[earlier.length]? = some d := by simp
  have hk' : d.keptBehind? t ((earlier ++ d :: later).take earlier.length) = some p := by
    simpa using hk
  rw [mem_fieldsOf_assemble_iff]
  constructor
  · rintro ⟨⟨i, e, q, hi, hq, hs, rfl⟩, hid⟩
    obtain rfl := kept_place_unique hi hd hq hk' hid
    obtain rfl := Option.some.inj (hi.symm.trans hd)
    obtain rfl := Option.some.inj (hq.symm.trans hk')
    exact ⟨hs, rfl⟩
  · rintro ⟨hs, rfl⟩
    exact ⟨⟨_, d, p, hd, hk', hs, rfl⟩, rfl⟩

/-- More declarations only add fields behind. -/
theorem fieldsOf_assemble_prefix (t : ClassTable) (ds more : List Declaration) (s : FormSection) :
    (assemble t ds).1.fieldsOf s <+: (assemble t (ds ++ more)).1.fieldsOf s := by
  rw [assemble, assemble, Schema.fieldsOf_ofFields, Schema.fieldsOf_ofFields, placements_append,
    List.filterMap_append]
  exact List.prefix_append _ _

/-- **What is assembled of the declarations of a list, and of more of them.** -/
theorem assembled (t : ClassTable) (ds : List Declaration) :
    Assembled t ds (assemble t ds).1
      ∧ ∀ more s, (assemble t ds).1.fieldsOf s <+: (assemble t (ds ++ more)).1.fieldsOf s := by
  refine ⟨⟨?_, fieldsOf_assemble t ds, ?_, fun d _ => control_fieldOf d, ?_, ?_⟩,
    fieldsOf_assemble_prefix t ds⟩
  · intro s
    exact ⟨_, by rw [assemble, Schema.ofFields, PerSection.get_ofFn]; rfl⟩
  · intro s
    rw [fieldsOf_assemble, List.filter_flatMap, List.filterMap_eq_flatMap_toList]
    simp only [filter_pushed]
  · intro s
    rw [assemble, Schema.fieldsOf_ofFields]
    exact nodup_ids_placements t [] ds s
  · rintro earlier d later p rfl hk s f
    exact mem_fieldsOf_iff_of_kept hk

/-- A table in which a rule lists a section twice. -/
def doubledTable : ClassTable := ClassTable.standard.add ⟨"Both", [.claims, .drivers, .claims]⟩

/-- Declarations of one property: without a label, of a class with two sections, and once more. -/
def doubledDeclarations : List Declaration :=
  [{ (default : Declaration) with identifier := "a", domain := some "Both" },
    { (default : Declaration) with
      identifier := "a", domain := some "Both", label := some "First" },
    { (default : Declaration) with
      identifier := "a", domain := some "Driver", label := some "Second" }]

/-- The second of them is kept, once in each of its sections. -/
theorem doubledDeclarations_assembled :
    Assembled doubledTable doubledDeclarations (assemble doubledTable doubledDeclarations).1
      ∧ ∀ s, ((assemble doubledTable doubledDeclarations).1.fieldsOf s).map (·.label)
        = if s = .claims ∨ s = .drivers then ["First"] else [] := by
  refine ⟨(assembled doubledTable doubledDeclarations).1, fun s => ?_⟩
  cases s <;> decide +kernel

end FormOntology
