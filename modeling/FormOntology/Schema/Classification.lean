import FormOntology.Schema.Section

/-!
# Classification

Which sections the properties of a class belong to.  Rules for one class add up to one row of a
table, which lists each section once; a class without a rule, or with rules that name no section,
belongs nowhere.

## Main definitions

* `ClassRule`, `ClassTable` — rules and tables of them.
* `ClassTable.add` — a table with one more rule.
* `ClassTable.classify?` — the sections of a class.
* `ClassTable.standard` — the table in use when no rules are configured.
-/

namespace FormOntology

/-- A class and the sections of its properties. -/
structure ClassRule where
  /-- The class. -/
  className : String
  /-- The sections. -/
  sections : List FormSection
  deriving DecidableEq, Repr, Inhabited

/-- Rules, at most one for each class and with no section twice. -/
@[ext]
structure ClassTable where
  /-- The rules. -/
  rules : List ClassRule
  /-- No class has two rules. -/
  nodup : (rules.map (·.className)).Nodup
  /-- No rule lists a section twice. -/
  nodup_sections : ∀ r ∈ rules, r.sections.Nodup
  deriving DecidableEq, Repr

namespace ClassTable

/-! ### One more rule -/

/-- A list of sections with more of them, each once. -/
def union (old new : List FormSection) : List FormSection :=
  new.foldl (fun sections s => if sections.contains s then sections else sections ++ [s]) old

theorem nodup_union {old : List FormSection} (h : old.Nodup) (new : List FormSection) :
    (union old new).Nodup := by
  unfold union
  induction new generalizing old with
  | nil => exact h
  | cons s new ih =>
    rw [List.foldl_cons]
    apply ih
    split
    · exact h
    · next hs => simpa [List.nodup_append, h] using fun a ha hsame => hs (by simpa [hsame] using ha)

/-- Rules with one more; it extends the rule for its class. -/
def addRule (rule : ClassRule) : List ClassRule → List ClassRule
  | [] => [⟨rule.className, union [] rule.sections⟩]
  | r :: rest =>
    if r.className = rule.className then ⟨r.className, union r.sections rule.sections⟩ :: rest
    else r :: addRule rule rest

variable {rule : ClassRule} {rules : List ClassRule}

theorem className_of_mem_addRule {r : ClassRule} (h : r ∈ addRule rule rules) :
    r.className ∈ rules.map (·.className) ∨ r.className = rule.className := by
  induction rules with
  | nil =>
    obtain rfl := List.mem_singleton.mp h
    exact .inr rfl
  | cons p rest ih =>
    rw [List.map_cons]
    rw [addRule] at h
    split at h
    · next hp =>
      rcases List.mem_cons.mp h with rfl | h
      · exact .inr hp
      · exact .inl (List.mem_cons_of_mem _ (List.mem_map_of_mem h))
    · rcases List.mem_cons.mp h with rfl | h
      · exact .inl List.mem_cons_self
      · exact (ih h).imp_left (List.mem_cons_of_mem _)

theorem nodup_addRule (h : (rules.map (·.className)).Nodup) :
    ((addRule rule rules).map (·.className)).Nodup := by
  induction rules with
  | nil => simp [addRule]
  | cons p rest ih =>
    obtain ⟨hp, hrest⟩ := List.nodup_cons.mp h
    rw [addRule]
    split
    · exact h
    · next hne =>
      refine List.nodup_cons.mpr ⟨fun hmem => ?_, ih hrest⟩
      obtain ⟨r, hr, hname⟩ := List.mem_map.mp hmem
      rcases className_of_mem_addRule hr with hold | hnew
      · exact hp (hname ▸ hold)
      · exact hne (hname.symm.trans hnew)

theorem nodup_sections_addRule (h : ∀ r ∈ rules, r.sections.Nodup) :
    ∀ r ∈ addRule rule rules, r.sections.Nodup := by
  induction rules with
  | nil => simpa [addRule] using nodup_union List.nodup_nil rule.sections
  | cons p rest ih =>
    rw [List.forall_mem_cons] at h
    rw [addRule]
    split
    · exact List.forall_mem_cons.mpr ⟨nodup_union h.1 rule.sections, h.2⟩
    · exact List.forall_mem_cons.mpr ⟨h.1, ih h.2⟩

/-! ### Tables -/

/-- The table without a rule. -/
def empty : ClassTable := ⟨[], List.nodup_nil, by simp⟩

instance : Inhabited ClassTable := ⟨empty⟩

/-- A table with one more rule: the program's `ClassificationTable::add_rule`. -/
def add (t : ClassTable) (rule : ClassRule) : ClassTable :=
  ⟨addRule rule t.rules, nodup_addRule t.nodup, nodup_sections_addRule t.nodup_sections⟩

@[simp] theorem rules_add (t : ClassTable) (rule : ClassRule) :
    (t.add rule).rules = addRule rule t.rules := rfl

/-- A table with more rules. -/
def addAll (t : ClassTable) (rules : List ClassRule) : ClassTable := rules.foldl add t

/-- The sections of a class, at least one: the program's `ClassificationTable::classify`. -/
def classify? (t : ClassTable) (className : String) : Option (List FormSection) :=
  ((t.rules.find? (·.className = className)).map (·.sections)).filter (!·.isEmpty)

theorem nodup_of_classify? {t : ClassTable} {className : String} {sections : List FormSection}
    (h : t.classify? className = some sections) : sections.Nodup := by
  obtain ⟨hmap, -⟩ := Option.filter_eq_some_iff.mp h
  obtain ⟨r, hr, rfl⟩ := Option.map_eq_some_iff.mp hmap
  exact t.nodup_sections r (List.mem_of_find?_eq_some hr)

/-- The rules in use when none are configured. -/
def standardRules : List ClassRule :=
  [⟨"Driver", [.drivers]⟩, ⟨"MainDriver", [.drivers]⟩, ⟨"NamedDriver", [.drivers]⟩,
   ⟨"Vehicle", [.vehicles]⟩, ⟨"VehicleModification", [.vehicles]⟩,
   ⟨"Claim", [.claims]⟩, ⟨"Conviction", [.claims]⟩,
   ⟨"ApplicationSettings", [.settings]⟩, ⟨"UserPreferences", [.settings]⟩,
   ⟨"Document", [.documents]⟩, ⟨"PersonalDocument", [.documents]⟩,
   ⟨"UserDocument", [.documents]⟩]

/-- The table in use when no rules are configured. -/
def standard : ClassTable := empty.addAll standardRules

end ClassTable

end FormOntology
