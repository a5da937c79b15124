import Mathlib.Data.List.Induction
import Mathlib.Data.List.Nodup
import FormOntology.Schema.Classification

/-!
# Tables that rules are added to

What a table holds is told by the rules that were added to it, one after another.  It has one row
for each class that a rule names, in the order in which they were named first, and the row lists the
sections that the rules name for the class, each where it was named first.  So a rule adds to the
row of its class what is new, behind what is there, and nothing else changes.

## Main definitions

* `ClassTable.sectionsOf` — the sections that rules name for a class.
* `ClassTable.rowsOf` — the rows that rules lead to.
* `ClassTable.Base` — the tables that rules are added to, with the rules that they are made of.

## Main results

* `ClassTable.union_eraseDups` — adding sections to a list, each once.
* `ClassTable.addRule_rowsOf` — one more rule.
* `ClassTable.rules_addAll` — **what a table holds, by the rules that were added to it.**
* `ClassTable.classified` — **the sections of a class are those that rules name for it, in order,
  and more rules only add to them.**
-/

namespace FormOntology

/-! ### Lists without repetitions -/

section EraseDups

variable {α : Type} [DecidableEq α] {l m : List α}

theorem eraseDups_concat (l : List α) (a : α) :
    (l ++ [a]).eraseDups = if a ∈ l then l.eraseDups else l.eraseDups ++ [a] := by
  by_cases h : a ∈ l <;> simp [List.eraseDups_append, List.removeAll, List.eraseDups_cons, h]

theorem nodup_eraseDups (l : List α) : l.eraseDups.Nodup := by
  induction l using List.reverseRecOn with
  | nil => exact List.nodup_nil
  | append_singleton l a ih =>
    rw [eraseDups_concat]
    split
    · exact ih
    · next h => simpa [List.nodup_append, ih] using fun b hb => ne_of_mem_of_not_mem hb h

theorem eraseDups_of_nodup (h : l.Nodup) : l.eraseDups = l := by
  induction l using List.reverseRecOn with
  | nil => exact List.eraseDups_nil
  | append_singleton l a ih =>
    obtain ⟨hl, -, hdisjoint⟩ := List.nodup_append.mp h
    have ha : a ∉ l := fun hmem => hdisjoint a hmem a (List.mem_singleton_self a) rfl
    rw [eraseDups_concat, if_neg ha, ih hl]

theorem eraseDups_append_of_subset (h : m ⊆ l) : (l ++ m).eraseDups = l.eraseDups := by
  have hnone : m.removeAll l = [] := List.filter_eq_nil_iff.mpr fun a ha => by simp [h ha]
  rw [List.eraseDups_append, hnone, List.eraseDups_nil, List.append_nil]

theorem eraseDups_eq_nil_iff : l.eraseDups = [] ↔ l = [] := by
  rw [List.eq_nil_iff_forall_not_mem, List.eq_nil_iff_forall_not_mem]
  simp only [List.mem_eraseDups]

end EraseDups

namespace ClassTable

/-! ### Sections -/

/-- Adding sections to a list, each once, keeps of all of them the first occurrences. -/
theorem union_eraseDups (l new : List FormSection) :
    union l.eraseDups new = (l ++ new).eraseDups := by
  unfold union
  induction new generalizing l with
  | nil => rw [List.foldl_nil, List.append_nil]
  | cons s new ih =>
    have hstep : (if l.eraseDups.contains s then l.eraseDups else l.eraseDups ++ [s])
        = (l ++ [s]).eraseDups := by
      simp [eraseDups_concat]
    rw [List.foldl_cons, hstep, ih, List.append_assoc, List.singleton_append]

/-- The sections that rules name for a class, in order. -/
def sectionsOf (rules : List ClassRule) (className : String) : List FormSection :=
  (rules.filter (·.className = className)).flatMap (·.sections)

theorem sectionsOf_concat (rules : List ClassRule) (rule : ClassRule) (className : String) :
    sectionsOf (rules ++ [rule]) className
      = sectionsOf rules className ++ if rule.className = className then rule.sections else [] := by
  rw [sectionsOf, List.filter_append, List.flatMap_append, sectionsOf]
  by_cases h : rule.className = className <;> simp [h]

theorem sectionsOf_of_notMem {rules : List ClassRule} {className : String}
    (h : className ∉ rules.map (·.className)) : sectionsOf rules className = [] := by
  have hnone : rules.filter (·.className = className) = [] :=
    List.filter_eq_nil_iff.mpr fun r hr hname =>
      h (List.mem_map.mpr ⟨r, hr, of_decide_eq_true hname⟩)
  rw [sectionsOf, hnone, List.flatMap_nil]

theorem subset_sectionsOf {rules : List ClassRule} {rule : ClassRule} (h : rule ∈ rules) :
    rule.sections ⊆ sectionsOf rules rule.className := fun _ hs =>
  List.mem_flatMap.mpr ⟨rule, List.mem_filter.mpr ⟨h, decide_eq_true rfl⟩, hs⟩

/-! ### Rows -/

/-- The rows that rules lead to: one for each class, with its sections, each once. -/
def rowsOf (rules : List ClassRule) : List ClassRule :=
  (rules.map (·.className)).eraseDups.map fun c => ⟨c, (sectionsOf rules c).eraseDups⟩

/-- A rule extends the row of its class, or adds one if there is none. -/
theorem addRule_map {rule : ClassRule} {classes : List String} (hnodup : classes.Nodup)
    {old new : String → List FormSection}
    (hnone : rule.className ∉ classes → old rule.className = [])
    (hself : new rule.className = union (old rule.className) rule.sections)
    (hother : ∀ c, c ≠ rule.className → new c = old c) :
    addRule rule (classes.map fun c => ⟨c, old c⟩)
      = (if rule.className ∈ classes then classes else classes ++ [rule.className]).map
        fun c => ⟨c, new c⟩ := by
  induction classes with
  | nil => simp [addRule, hself, hnone]
  | cons c classes ih =>
    obtain ⟨hc, hrest⟩ := List.nodup_cons.mp hnodup
    rw [List.map_cons, addRule]
    by_cases heq : c = rule.className
    · -- the row of the class; the rows behind it belong to others
      subst heq
      have hbehind : classes.map (fun d => ClassRule.mk d (old d))
          = classes.map fun d => ⟨d, new d⟩ := List.map_congr_left fun d hd => by
        rw [hother d (ne_of_mem_of_not_mem hd hc)]
      rw [if_pos rfl, if_pos (List.mem_cons_self ..), List.map_cons, hbehind, hself]
    · have hmem : rule.className ∈ c :: classes ↔ rule.className ∈ classes := by
        simp [Ne.symm heq]
      rw [if_neg heq, ih hrest fun h => hnone fun hcons => h (hmem.mp hcons)]
      simp only [hmem]
      split <;> simp [hother c heq]

/-- **One more rule leads to the rows of one more rule.** -/
theorem addRule_rowsOf (rules : List ClassRule) (rule : ClassRule) :
    addRule rule (rowsOf rules) = rowsOf (rules ++ [rule]) := by
  rw [rowsOf, rowsOf, List.map_append, List.map_singleton, eraseDups_concat]
  simp only [← List.mem_eraseDups (l := rules.map (·.className))]
  refine addRule_map (nodup_eraseDups _) (fun h => ?_) ?_ fun c hc => ?_
  · rw [sectionsOf_of_notMem fun hmem => h (List.mem_eraseDups.mpr hmem), List.eraseDups_nil]
  · rw [union_eraseDups, sectionsOf_concat, if_pos rfl]
  · rw [sectionsOf_concat, if_neg (Ne.symm hc), List.append_nil]

/-! ### Tables -/

theorem addAll_concat (t : ClassTable) (rules : List ClassRule) (rule : ClassRule) :
    t.addAll (rules ++ [rule]) = (t.addAll rules).add rule := List.foldl_concat ..

theorem addAll_append (t : ClassTable) (rules more : List ClassRule) :
    t.addAll (rules ++ more) = (t.addAll rules).addAll more := List.foldl_append

/-- **What a table holds, by the rules that were added to it.** -/
theorem rules_addAll (rules : List ClassRule) : (empty.addAll rules).rules = rowsOf rules := by
  induction rules using List.reverseRecOn with
  | nil => rfl
  | append_singleton rules rule ih => rw [addAll_concat, rules_add, ih, addRule_rowsOf]

/-- The row of a class is found if a rule names the class. -/
theorem find?_rowsOf (rules : List ClassRule) (className : String) :
    (rowsOf rules).find? (·.className = className)
      = if className ∈ rules.map (·.className) then
          some ⟨className, (sectionsOf rules className).eraseDups⟩
        else none := by
  have hrow : (fun r : ClassRule => decide (r.className = className))
      ∘ (fun c => ⟨c, (sectionsOf rules c).eraseDups⟩) = fun c => decide (c = className) := rfl
  rw [rowsOf, List.find?_map, hrow]
  simp only [← List.mem_eraseDups (l := rules.map (·.className))]
  generalize (rules.map (·.className)).eraseDups = classes
  cases h : classes.find? fun c => decide (c = className) with
  | none =>
    have hnot : className ∉ classes := fun hmem => by simpa using List.find?_eq_none.mp h _ hmem
    rw [if_neg hnot, Option.map_none]
  | some c =>
    have hc := List.find?_some h
    obtain rfl : c = className := of_decide_eq_true hc
    rw [if_pos (List.mem_of_find?_eq_some h), Option.map_some]

/-- The sections of a class are those that rules name for it, if there are any. -/
theorem classify?_addAll (rules : List ClassRule) (className : String) :
    (empty.addAll rules).classify? className
      = if sectionsOf rules className = [] then none
        else some (sectionsOf rules className).eraseDups := by
  rw [classify?, rules_addAll, find?_rowsOf]
  split
  · by_cases h : sectionsOf rules className = []
    · simp [h]
    · have hne : (sectionsOf rules className).eraseDups ≠ [] := eraseDups_eq_nil_iff.not.mpr h
      simp [h, hne]
  · next h => simp [sectionsOf_of_notMem h]

theorem getD_classify?_addAll (rules : List ClassRule) (className : String) :
    ((empty.addAll rules).classify? className).getD []
      = (sectionsOf rules className).eraseDups := by
  rw [classify?_addAll]
  split
  · next h => rw [h]; rfl
  · rfl

/-- A table that rules are added to, and the rules that it is made of. -/
inductive Base : ClassTable → List ClassRule → Prop where
  /-- The table without a rule. -/
  | empty : Base .empty []
  /-- The table in use when no rules are configured. -/
  | standard : Base .standard standardRules

theorem Base.addAll {t : ClassTable} {base : List ClassRule} (h : Base t base)
    (added : List ClassRule) : t.addAll added = ClassTable.empty.addAll (base ++ added) := by
  rw [addAll_append]
  cases h <;> rfl

/-- A rule that was added before changes nothing. -/
theorem add_of_mem {rules : List ClassRule} {rule : ClassRule} (h : rule ∈ rules) :
    (empty.addAll rules).add rule = empty.addAll rules := by
  have hclasses : (rules.map (·.className) ++ [rule.className]).eraseDups
      = (rules.map (·.className)).eraseDups :=
    eraseDups_append_of_subset (List.cons_subset.mpr ⟨List.mem_map_of_mem h, List.nil_subset _⟩)
  have hsections : ∀ c, (sectionsOf (rules ++ [rule]) c).eraseDups
      = (sectionsOf rules c).eraseDups := by
    intro c
    rw [sectionsOf_concat]
    split
    · next hc => exact eraseDups_append_of_subset (hc ▸ subset_sectionsOf h)
    · rw [List.append_nil]
  refine ClassTable.ext ?_
  rw [rules_add, rules_addAll, addRule_rowsOf, rowsOf, List.map_append, List.map_singleton,
    hclasses]
  simp only [hsections]
  rfl

/-- **The sections of a class are those that rules name for it, in order, and more rules only add
to them.**  No class has two rows and no row lists a section twice.  The sections of a class are
those that the rules of the base table and the added rules name for it, in order, without later
repetitions; a class without any has none.  One more rule leaves what a class has in place and adds
behind it, it adds nothing to another class, and if it was added before it changes nothing. -/
theorem classified {t : ClassTable} {base : List ClassRule} (h : Base t base)
    (added : List ClassRule) :
    ((t.addAll added).rules.map (·.className)).Nodup
      ∧ (∀ r ∈ (t.addAll added).rules, r.sections.Nodup)
      ∧ (∀ c, (t.addAll added).classify? c = if sectionsOf (base ++ added) c = [] then none
        else some (sectionsOf (base ++ added) c).eraseDups)
      ∧ (∀ rule c, ((t.addAll added).classify? c).getD []
        <+: (((t.addAll added).add rule).classify? c).getD [])
      ∧ (∀ rule c, c ≠ rule.className →
        ((t.addAll added).add rule).classify? c = (t.addAll added).classify? c)
      ∧ ∀ rule ∈ base ++ added, (t.addAll added).add rule = t.addAll added := by
  rw [h.addAll]
  generalize base ++ added = rules
  refine ⟨(empty.addAll rules).nodup, (empty.addAll rules).nodup_sections, classify?_addAll rules,
    fun rule c => ?_, fun rule c hc => ?_, fun rule => add_of_mem⟩
  · rw [← addAll_concat, getD_classify?_addAll, getD_classify?_addAll, sectionsOf_concat,
      List.eraseDups_append]
    exact List.prefix_append _ _
  · rw [← addAll_concat, classify?_addAll, classify?_addAll, sectionsOf_concat,
      if_neg (Ne.symm hc), List.append_nil]

/-- Rules for a class without sections, for a standard class, and for the first class again. -/
def repeatedRules : List ClassRule :=
  [⟨"Ghost", []⟩, ⟨"Driver", [.claims, .drivers, .claims]⟩, ⟨"Ghost", [.settings, .settings]⟩]

/-- The first class gets its section late, and the standard class keeps the one that it had. -/
theorem repeatedRules_classified : Base .standard standardRules
    ∧ (standard.addAll repeatedRules).classify? "Ghost" = some [.settings]
    ∧ (standard.addAll repeatedRules).classify? "Driver" = some [.drivers, .claims]
    ∧ (standard.addAll repeatedRules).add ⟨"Ghost", []⟩ = standard.addAll repeatedRules := by
  obtain ⟨-, -, hclassify, -, -, hadd⟩ := classified .standard repeatedRules
  exact ⟨.standard, (hclassify "Ghost").trans (by decide), (hclassify "Driver").trans (by decide),
    hadd _ (by decide)⟩

end ClassTable

end FormOntology
