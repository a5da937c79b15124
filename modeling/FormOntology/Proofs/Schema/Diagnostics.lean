import FormOntology.Proofs.Schema.Placement

/-!
# What becomes of a block

Every block of a source is accounted for.  Either it is kept, and then it has a field in each
section of its class and nothing is reported that drops it; or it is dropped, and then it has no
field and exactly one diagnostic tells why.  A defect that is found in reading is reported for kept
and for dropped blocks alike.

## Main definitions

* `Compiler.declarationOf`, `Compiler.placedBehind` — the declaration of a block, and what becomes
  of it behind other blocks.
* `readingDefects` — what is reported when a block is read.
* `KeptBlock`, `DroppedBlock` — what a kept block and a dropped block contribute.
* `Accounted` — a compile that accounts for every block.

## Main results

* `keptBlock_iff_not_droppedBlock` — a block is either kept or dropped.
* `existsUnique_block_of_mem_fieldsOf` — a field is the field of one block.
* `accounted_compileSource` — **every compile accounts for every block.**
-/

namespace FormOntology

variable [PatternLibrary]

/-! ### Blocks and their declarations -/

/-- The declaration of a block. -/
def Compiler.declarationOf (c : Compiler) (source : Combined) (b : Block) : Declaration :=
  (Declaration.resolve b (AttributeSet.extract c.vocabulary b.text)
    (source.locate b.span.start)).1

@[simp] theorem Compiler.declarationOf_identifier (c : Compiler) (source : Combined) (b : Block) :
    (c.declarationOf source b).identifier = b.identifier := rfl

@[simp] theorem Compiler.declarationOf_location (c : Compiler) (source : Combined) (b : Block) :
    (c.declarationOf source b).location = source.locate b.span.start := rfl

/-- What becomes of a block behind others. -/
def Compiler.placedBehind (c : Compiler) (source : Combined) (earlier : List Block) (b : Block) :
    Placed :=
  ⟨c.declarationOf source b, Placement.of c.table
    (keptAfter c.table [] (earlier.map (c.declarationOf source))) (c.declarationOf source b)⟩

/-- The blocks of a source, each with those in front of it. -/
def Compiler.blocksOf (c : Compiler) (source : Combined) : List (Block × List Block) :=
  let bs := blocks c.vocabulary source.text
  bs.zipIdx.map fun (b, i) => (b, bs.take i)

/-- The defects that reading a block with these attributes reports. -/
def readingDefects (b : Block) (a : AttributeSet) : List Defect :=
  (if b.termination = .terminated then [] else [.truncatedBlock])
    ++ (a.range.filter fun word => (ValueRange.ofWord? word).isNone).toList.map
      .unrecognizedRange
    ++ (a.validationPattern.bind fun pattern =>
      match PatternLibrary.compile pattern.toList with
      | .ok _ => none
      | .error message => some (.invalidPattern pattern message)).toList

/-- The diagnostics that reading a block reports. -/
def Compiler.readingDiagnostics (c : Compiler) (source : Combined) (b : Block) :
    List Diagnostic :=
  (readingDefects b (AttributeSet.extract c.vocabulary b.text)).map
    (⟨·, b.identifier, source.locate b.span.start⟩)

theorem resolve_diagnostics (b : Block) (a : AttributeSet) (l : Location) :
    (Declaration.resolve b a l).2 = (readingDefects b a).map (⟨·, b.identifier, l⟩) := by
  have hrange : (resolveRange a.range).2
      = (a.range.filter fun word => (ValueRange.ofWord? word).isNone).toList.map
        .unrecognizedRange := by
    unfold resolveRange
    cases a.range with
    | none => rfl
    | some word => cases h : ValueRange.ofWord? word <;> simp [Option.filter, h]
  have hpattern : (resolvePattern a.validationPattern).2
      = (a.validationPattern.bind fun pattern =>
        match PatternLibrary.compile pattern.toList with
        | .ok _ => none
        | .error message => some (.invalidPattern pattern message)).toList := by
    unfold resolvePattern
    cases a.validationPattern with
    | none => rfl
    | some pattern => cases h : PatternLibrary.compile pattern.toList <;> simp [h]
  have hend : (if b.termination == .terminated then [] else [Defect.truncatedBlock])
      = if b.termination = .terminated then [] else [.truncatedBlock] := by
    simp
  rw [readingDefects, ← hend, ← hrange, ← hpattern]
  rfl

/-- A defect of reading drops nothing. -/
theorem drops_readingDefects {b : Block} {a : AttributeSet} {defect : Defect}
    (h : defect ∈ readingDefects b a) : defect.drops = false := by
  unfold readingDefects at h
  rw [List.mem_append, List.mem_append] at h
  rcases h with (h | h) | h
  · split at h
    · cases h
    · obtain rfl := List.mem_singleton.mp h
      rfl
  · obtain ⟨word, -, rfl⟩ := List.mem_map.mp h
    rfl
  · obtain ⟨pattern, -, hp⟩ := Option.bind_eq_some_iff.mp (Option.mem_toList.mp h)
    split at hp <;> cases hp
    rfl

/-! ### Compiles by blocks -/

variable (c : Compiler) (source : Combined)

theorem declarations_eq : source.declarations c.vocabulary
    = (blocks c.vocabulary source.text).map fun b =>
      (c.declarationOf source b, c.readingDiagnostics source b) := by
  refine List.map_congr_left fun b _ => Prod.ext rfl ?_
  exact resolve_diagnostics b _ _

theorem placements_blocks :
    placements c.table [] ((source.declarations c.vocabulary).map (·.1))
      = (c.blocksOf source).map fun x => c.placedBehind source x.2 x.1 := by
  rw [declarations_eq, List.map_map, placements_eq, Compiler.blocksOf, List.map_map]
  change ((blocks c.vocabulary source.text).map (c.declarationOf source)).zipIdx.map _ = _
  rw [List.zipIdx_map, List.map_map]
  refine List.map_congr_left fun x _ => ?_
  simp only [Function.comp_apply, Compiler.placedBehind, List.map_take]
  rfl

/-- The fields of a section, by blocks. -/
theorem fieldsOf_compileSource (s : FormSection) :
    (c.compileSource source).schema.fieldsOf s
      = (c.blocksOf source).filterMap fun x => (c.placedBehind source x.2 x.1).field? s := by
  rw [Compiler.compileSource, assemble, Schema.fieldsOf_ofFields, placements_blocks,
    List.filterMap_map]
  rfl

/-- The diagnostics, by blocks: first those of reading, then those of placing. -/
theorem diagnostics_compileSource : (c.compileSource source).diagnostics
    = (blocks c.vocabulary source.text).flatMap (c.readingDiagnostics source)
      ++ (c.blocksOf source).flatMap fun x => (c.placedBehind source x.2 x.1).diagnostics := by
  rw [Compiler.compileSource, assemble, placements_blocks, List.flatMap_map, declarations_eq,
    List.flatMap_map]

/-! ### Kept and dropped blocks -/

/-- What a kept block contributes. -/
structure KeptBlock (x : Block × List Block) (p : Placement) : Prop where
  /-- It is the first block of its property that can be placed. -/
  kept : (c.declarationOf source x.1).keptBehind? c.table (x.2.map (c.declarationOf source))
    = some p
  /-- Its class has a section. -/
  sections_ne_nil : p.sections ≠ []
  /-- It has one field in each section of its class. -/
  field?_eq : ∀ s, (c.placedBehind source x.2 x.1).field? s
    = if s ∈ p.sections then some (Placed.fieldOf (c.declarationOf source x.1) p.label s) else none
  /-- Its fields have its identifier and its location. -/
  fieldOf_id : ∀ s, (Placed.fieldOf (c.declarationOf source x.1) p.label s).id = x.1.identifier
    ∧ (Placed.fieldOf (c.declarationOf source x.1) p.label s).source
      = source.locate x.1.span.start
  /-- Only the name of an unknown control is reported. -/
  diagnostics_eq : (c.placedBehind source x.2 x.1).diagnostics
    = ((c.declarationOf source x.1).formType.filter
        fun name => !(Control.parse name).isOk).toList.map
      fun name => ⟨.unknownFormType name, x.1.identifier, source.locate x.1.span.start⟩

/-- What a dropped block contributes. -/
structure DroppedBlock (x : Block × List Block) : Prop where
  /-- It has no field. -/
  field?_eq : ∀ s, (c.placedBehind source x.2 x.1).field? s = none
  /-- One diagnostic tells why it is dropped: it cannot be placed, or a block in front of it with
  its identifier is kept. -/
  diagnostics_eq : ∃ defect, (c.placedBehind source x.2 x.1).diagnostics
      = [⟨defect, x.1.identifier, source.locate x.1.span.start⟩]
    ∧ defect.drops = true
    ∧ (Unplaceable c.table (c.declarationOf source x.1) defect
      ∨ ∃ y ∈ c.blocksOf source, y.2.length < x.2.length ∧ y.1.identifier = x.1.identifier
        ∧ (∃ p, KeptBlock c source y p)
        ∧ defect = .duplicateProperty (source.locate y.1.span.start))

variable {c source} {x : Block × List Block}

omit [PatternLibrary] in
theorem mem_blocksOf_iff : x ∈ c.blocksOf source
    ↔ ∃ i : Nat, (blocks c.vocabulary source.text)[i]? = some x.1
      ∧ x.2 = (blocks c.vocabulary source.text).take i := by
  rw [Compiler.blocksOf, List.mem_map]
  constructor
  · rintro ⟨⟨b, i⟩, hi, rfl⟩
    exact ⟨i, List.mem_zipIdx_iff_getElem?.mp hi, rfl⟩
  · rintro ⟨i, hi, hx⟩
    exact ⟨(x.1, i), List.mem_zipIdx_iff_getElem?.mpr hi, Prod.ext rfl hx.symm⟩

theorem keptBlock_of_keptBehind? {p : Placement}
    (h : (c.declarationOf source x.1).keptBehind? c.table (x.2.map (c.declarationOf source))
      = some p) : KeptBlock c source x p := by
  have hof := of_keptAfter_eq_ok_iff.mpr h
  obtain ⟨-, -, className, -, hc⟩ := Declaration.placement?_eq_some_iff.mp
    (Declaration.keptBehind?_eq_some_iff.mp h).1
  refine ⟨h, ?_, fun s => ?_, fun s => ⟨rfl, rfl⟩, ?_⟩
  · have := (Option.filter_eq_some_iff.mp hc).2
    simpa using this
  · rw [Compiler.placedBehind, field?_placed, Declaration.fieldBehind?, h]
    rfl
  · rw [Compiler.placedBehind, Placed.diagnostics, Placed.defect?]
    simp only [hof]
    unfold Placed.controlOf
    cases (c.declarationOf source x.1).formType with
    | none => rfl
    | some name =>
      cases hparse : Control.parse name <;>
        simp [hparse, Option.filter, Except.isOk, Except.toBool]

omit [PatternLibrary] in
theorem Defect.drops_of_unplaceable {t : ClassTable} {d : Declaration} {defect : Defect}
    (h : Unplaceable t d defect) : defect.drops = true := by
  cases h <;> rfl

/-- A block that is not kept is dropped. -/
theorem droppedBlock_of_keptBehind? (hx : x ∈ c.blocksOf source)
    (h : (c.declarationOf source x.1).keptBehind? c.table (x.2.map (c.declarationOf source))
      = none) : DroppedBlock c source x := by
  obtain ⟨i, hi, htake⟩ := mem_blocksOf_iff.mp hx
  refine ⟨fun s => ?_, ?_⟩
  · rw [Compiler.placedBehind, field?_placed, Declaration.fieldBehind?, h]
    rfl
  · cases hof : Placement.of c.table
      (keptAfter c.table [] (x.2.map (c.declarationOf source))) (c.declarationOf source x.1) with
    | ok p => simp [of_keptAfter_eq_ok_iff.mp hof] at h
    | error defect =>
      have hdiagnostics : (c.placedBehind source x.2 x.1).diagnostics
          = [⟨defect, x.1.identifier, source.locate x.1.span.start⟩] := by
        rw [Compiler.placedBehind, Placed.diagnostics, Placed.defect?]
        simp only [hof]
        rfl
      rcases Placement.of_eq_error_iff.mp hof with hun | ⟨-, first, hfirst, rfl⟩
      · exact ⟨defect, hdiagnostics, Defect.drops_of_unplaceable hun, .inl hun⟩
      · -- the kept location is that of the first block of the property that can be placed
        refine ⟨_, hdiagnostics, rfl, .inr ?_⟩
        rw [lookup_keptAfter, List.lookup_nil, Option.none_or] at hfirst
        obtain ⟨e, he, rfl⟩ := Option.map_eq_some_iff.mp hfirst
        obtain ⟨j, p, hj, hid, hk⟩ := kept_of_firstPlaced? he
        rw [List.getElem?_map] at hj
        obtain ⟨b, hb, rfl⟩ := Option.map_eq_some_iff.mp hj
        have hji : j < i := by
          have hlt := (List.getElem?_eq_some_iff.mp hb).1
          rw [htake, List.length_take] at hlt
          omega
        rw [htake, List.getElem?_take_of_lt hji] at hb
        have hlength : ((blocks c.vocabulary source.text).take j).length < x.2.length := by
          have hi' := (List.getElem?_eq_some_iff.mp hi).1
          rw [htake, List.length_take, List.length_take]
          omega
        rw [htake, ← List.map_take, List.take_take, Nat.min_eq_left (Nat.le_of_lt hji)] at hk
        exact ⟨(b, (blocks c.vocabulary source.text).take j), mem_blocksOf_iff.mpr ⟨j, hb, rfl⟩,
          hlength, hid, ⟨p, keptBlock_of_keptBehind? hk⟩, rfl⟩

/-- **A block is either kept or dropped.** -/
theorem keptBlock_iff_not_droppedBlock (hx : x ∈ c.blocksOf source) :
    (∃ p, KeptBlock c source x p) ↔ ¬DroppedBlock c source x := by
  constructor
  · rintro ⟨p, hp⟩ hd
    obtain ⟨s, hs⟩ := List.exists_mem_of_ne_nil _ hp.sections_ne_nil
    have := hp.field?_eq s
    simp [hd.field?_eq s, hs] at this
  · intro hd
    cases hk : (c.declarationOf source x.1).keptBehind? c.table
      (x.2.map (c.declarationOf source)) with
    | none => exact absurd (droppedBlock_of_keptBehind? hx hk) hd
    | some p => exact ⟨p, keptBlock_of_keptBehind? hk⟩

/-- Whether a block is kept behind others. -/
def Compiler.keepsBehind (c : Compiler) (source : Combined) (x : Block × List Block) : Bool :=
  ((c.declarationOf source x.1).keptBehind? c.table (x.2.map (c.declarationOf source))).isSome

theorem keepsBehind_iff : c.keepsBehind source x = true ↔ ∃ p, KeptBlock c source x p :=
  ⟨fun h => (Option.isSome_iff_exists.mp h).imp fun _ hp => keptBlock_of_keptBehind? hp,
    fun ⟨p, hp⟩ => Option.isSome_iff_exists.mpr ⟨p, hp.kept⟩⟩

/-! ### Accounts -/

/-- Two blocks with the same kept field are the same. -/
theorem block_eq_of_field? {y : Block × List Block} {p q : Placement} {s : FormSection} {f : Field}
    (hx : x ∈ c.blocksOf source) (hy : y ∈ c.blocksOf source) (hp : KeptBlock c source x p)
    (hq : KeptBlock c source y q) (hxf : (c.placedBehind source x.2 x.1).field? s = some f)
    (hyf : (c.placedBehind source y.2 y.1).field? s = some f) : x = y := by
  obtain ⟨i, hi, hxi⟩ := mem_blocksOf_iff.mp hx
  obtain ⟨j, hj, hyj⟩ := mem_blocksOf_iff.mp hy
  have hkx := hp.kept
  have hky := hq.kept
  rw [hxi, List.map_take] at hkx
  rw [hyj, List.map_take] at hky
  have hid {z : Block × List Block} {r : Placement} (hz : KeptBlock c source z r)
      (hf : (c.placedBehind source z.2 z.1).field? s = some f) : f.id = z.1.identifier := by
    rw [hz.field?_eq] at hf
    split at hf
    · cases hf
      exact (hz.fieldOf_id s).1
    · cases hf
  obtain rfl := kept_place_unique (by rw [List.getElem?_map, hi]; rfl)
    (by rw [List.getElem?_map, hj]; rfl) hkx hky ((hid hp hxf).symm.trans (hid hq hyf))
  exact Prod.ext (Option.some.inj (hi.symm.trans hj)) (hxi.trans hyj.symm)

omit [PatternLibrary] in
/-- Where each entry is kept or adds one member that drops it, the two counts are complementary. -/
theorem length_eq_add_of_forall {α β : Type} {kept : α → Bool} {g : α → List β} {drops : β → Bool}
    {l : List α} (h : ∀ x ∈ l, ((g x).filter drops).length = if kept x then 0 else 1) :
    l.length = (l.filter kept).length + ((l.flatMap g).filter drops).length := by
  induction l with
  | nil => rfl
  | cons x r ih =>
    obtain ⟨hx, hr⟩ := List.forall_mem_cons.mp h
    rw [List.flatMap_cons, List.filter_append, List.length_append, hx, List.length_cons, ih hr,
      List.filter_cons]
    split
    · rw [List.length_cons]
      omega
    · omega

variable (c source)

/-- A compile accounts for every block. -/
structure Accounted (o : Compilation) : Prop where
  /-- Every block is either kept or dropped. -/
  kept_iff : ∀ x ∈ c.blocksOf source, (∃ p, KeptBlock c source x p) ↔ ¬DroppedBlock c source x
  /-- The fields of a section are those of the blocks, in order. -/
  fieldsOf_eq : ∀ s, o.schema.fieldsOf s
    = (c.blocksOf source).filterMap fun x => (c.placedBehind source x.2 x.1).field? s
  /-- Every field is the field of exactly one block, and that block is kept. -/
  existsUnique : ∀ s, ∀ f ∈ o.schema.fieldsOf s, ∃! x, x ∈ c.blocksOf source
    ∧ (∃ p, KeptBlock c source x p) ∧ (c.placedBehind source x.2 x.1).field? s = some f
  /-- The diagnostics are, block by block, those of reading, then those of placing. -/
  diagnostics_eq : o.diagnostics
    = (blocks c.vocabulary source.text).flatMap (c.readingDiagnostics source)
      ++ (c.blocksOf source).flatMap fun x => (c.placedBehind source x.2 x.1).diagnostics
  /-- Those of reading drop nothing. -/
  drops_reading : ∀ b, ∀ d ∈ c.readingDiagnostics source b, d.drops = false
  /-- There are as many blocks as kept blocks and diagnostics that drop one. -/
  length_eq : ∃ kept : List (Block × List Block), kept.Sublist (c.blocksOf source)
    ∧ (∀ x ∈ c.blocksOf source, x ∈ kept ↔ ∃ p, KeptBlock c source x p)
    ∧ (blocks c.vocabulary source.text).length
      = kept.length + (o.diagnostics.filter (·.drops)).length

variable {c source}

theorem drops_readingDiagnostics {b : Block} {d : Diagnostic}
    (h : d ∈ c.readingDiagnostics source b) : d.drops = false := by
  obtain ⟨defect, hdefect, rfl⟩ := List.mem_map.mp h
  exact drops_readingDefects hdefect

/-- A kept block is not reported as dropped. -/
theorem KeptBlock.filter_drops {p : Placement} (h : KeptBlock c source x p) :
    (c.placedBehind source x.2 x.1).diagnostics.filter (·.drops) = [] := by
  rw [h.diagnostics_eq, List.filter_eq_nil_iff]
  intro d hd
  obtain ⟨name, -, rfl⟩ := List.mem_map.mp hd
  exact Bool.false_ne_true

/-- A dropped block is reported once. -/
theorem DroppedBlock.length_filter_drops (h : DroppedBlock c source x) :
    ((c.placedBehind source x.2 x.1).diagnostics.filter (·.drops)).length = 1 := by
  obtain ⟨defect, hd, hdrops, -⟩ := h.diagnostics_eq
  rw [hd]
  simp [Diagnostic.drops, hdrops]

theorem filter_drops_reading (bs : List Block) :
    (bs.flatMap (c.readingDiagnostics source)).filter (·.drops) = [] := by
  rw [List.filter_eq_nil_iff]
  intro d hd
  obtain ⟨b, -, hb⟩ := List.mem_flatMap.mp hd
  simp [drops_readingDiagnostics hb]

/-- A field is the field of exactly one block. -/
theorem existsUnique_block_of_mem_fieldsOf {s : FormSection} {f : Field}
    (hf : f ∈ (c.compileSource source).schema.fieldsOf s) : ∃! x, x ∈ c.blocksOf source
      ∧ (∃ p, KeptBlock c source x p) ∧ (c.placedBehind source x.2 x.1).field? s = some f := by
  rw [fieldsOf_compileSource, List.mem_filterMap] at hf
  obtain ⟨x, hx, hxf⟩ := hf
  obtain ⟨p, hp⟩ : ∃ p, KeptBlock c source x p := by
    refine (keptBlock_iff_not_droppedBlock hx).mpr fun hd => ?_
    simp [hd.field?_eq s] at hxf
  refine ⟨x, ⟨hx, ⟨p, hp⟩, hxf⟩, ?_⟩
  rintro y ⟨hy, ⟨q, hq⟩, hyf⟩
  exact block_eq_of_field? hy hx hq hp hyf hxf

/-- There are as many blocks as kept blocks and diagnostics that drop one. -/
theorem length_blocks_eq (c : Compiler) (source : Combined) :
    (blocks c.vocabulary source.text).length
      = ((c.blocksOf source).filter (c.keepsBehind source)).length
        + ((c.compileSource source).diagnostics.filter (·.drops)).length := by
  have hlength : (c.blocksOf source).length = (blocks c.vocabulary source.text).length := by
    simp [Compiler.blocksOf]
  rw [diagnostics_compileSource, List.filter_append, filter_drops_reading, List.nil_append,
    ← hlength]
  refine length_eq_add_of_forall fun x hx => ?_
  split
  · next h =>
    obtain ⟨p, hp⟩ := keepsBehind_iff.mp h
    rw [hp.filter_drops]
    rfl
  · next h =>
    have hdropped : DroppedBlock c source x := by
      by_contra hd
      exact h (keepsBehind_iff.mpr ((keptBlock_iff_not_droppedBlock hx).mpr hd))
    exact hdropped.length_filter_drops

/-- **Every compile accounts for every block.** -/
theorem accounted_compileSource (c : Compiler) (source : Combined) :
    Accounted c source (c.compileSource source) where
  kept_iff _ hx := keptBlock_iff_not_droppedBlock hx
  fieldsOf_eq := fieldsOf_compileSource c source
  existsUnique _ _ hf := existsUnique_block_of_mem_fieldsOf hf
  diagnostics_eq := diagnostics_compileSource c source
  drops_reading _ _ hd := drops_readingDiagnostics hd
  length_eq := by
    refine ⟨(c.blocksOf source).filter (c.keepsBehind source), List.filter_sublist,
      fun x hx => ?_, length_blocks_eq c source⟩
    rw [List.mem_filter, keepsBehind_iff]
    exact and_iff_right hx

end FormOntology
