import FormOntology.FileTree

/-!
# Writing files

A file that was written is read back as it was written.  The path leads to the same place before
and after: a path goes on through directories only, and what is replaced by a file, or added as one,
was no directory.

## Main results

* `FileTree.node?_set_self`, `FileTree.node?_set_of_ne` — the nodes after one was set.
* `FileTree.write?_eq_some` — what writing does.
* `FileTree.read_of_write?` — **what was written is read back.**
-/

namespace FormOntology.FileTree

variable {t u : FileTree} {path : String} {bytes : ByteArray}

/-! ### Nodes -/

theorem lookup_filter_of_ne {ns names : List String} (h : ns ≠ names)
    (nodes : List (List String × FileNode)) :
    (nodes.filter (·.1 ≠ names)).lookup ns = nodes.lookup ns := by
  induction nodes with
  | nil => rfl
  | cons node nodes ih =>
    obtain ⟨ms, n⟩ := node
    by_cases hms : ms = names
    · have hns : (ns == ms) = false := beq_eq_false_iff_ne.mpr (hms ▸ h)
      rw [List.filter_cons_of_neg (by simp [hms]), ih, List.lookup_cons, hns]
    · rw [List.filter_cons_of_pos (by simp [hms]), List.lookup_cons, List.lookup_cons, ih]

theorem lookup_filter_self (names : List String) (nodes : List (List String × FileNode)) :
    (nodes.filter (·.1 ≠ names)).lookup names = none := by
  rw [List.lookup_eq_none_iff]
  intro node hnode
  have hne : node.1 ≠ names := of_decide_eq_true (List.mem_filter.mp hnode).2
  exact bne_iff_ne.mpr hne.symm

@[simp] theorem node?_set_self {names : List String} (h : names ≠ []) (t : FileTree)
    (n : FileNode) : (t.set names n).node? names = some n := by
  rw [node?, if_neg (by simpa using h), set, List.lookup_append, lookup_filter_self, Option.none_or]
  simp

theorem node?_set_of_ne {ns names : List String} (h : ns ≠ names) (t : FileTree) (n : FileNode) :
    (t.set names n).node? ns = t.node? ns := by
  rw [node?, node?, set, List.lookup_append, lookup_filter_of_ne h]
  simp [List.lookup_cons, beq_eq_false_iff_ne.mpr h]

/-! ### Paths -/

/-- A path leads to the same place in every tree that has the same directories and more. -/
theorem walk_of_directories (h : ∀ ns, t.node? ns = some .directory → u.node? ns = some .directory)
    {p q : Place} {steps : List String} (hwalk : t.walk p steps = .ok q) :
    u.walk p steps = .ok q := by
  induction steps generalizing p with
  | nil => exact hwalk
  | cons step rest ih =>
    cases p with
    | outside =>
      rw [walk] at hwalk ⊢
      split at hwalk
      · next hstep => rw [if_pos hstep, ih hwalk]
      · cases hwalk
    | inside ns =>
      rw [walk] at hwalk ⊢
      split at hwalk
      · cases hwalk
      · cases hwalk
      · next hnode =>
        rw [h ns hnode]
        simp only
        -- the step stays, goes up or goes down
        split at hwalk
        · next hstay => rw [if_pos hstay, ih hwalk]
        · next hstay =>
          rw [if_neg hstay]
          split at hwalk
          · next hup => rw [if_pos hup, ih hwalk]
          · next hup => rw [if_neg hup, ih hwalk]

theorem resolve_of_directories
    (h : ∀ ns, t.node? ns = some .directory → u.node? ns = some .directory) {q : Place}
    (hpath : t.resolve path = .ok q) : u.resolve path = .ok q := by
  unfold resolve at hpath ⊢
  split at hpath
  · cases hpath
  · next hempty =>
    rw [if_neg hempty]
    split at hpath
    · next habs => rw [if_pos habs, walk_of_directories h hpath]
    · next habs => rw [if_neg habs, walk_of_directories h hpath]

/-! ### Files -/

theorem read_of_node? {names : List String} (hpath : t.resolve path = .ok (.inside names))
    (hnode : t.node? names = some (.file bytes)) : t.read path = .ok bytes := by
  simp only [read, hpath, bind, Except.bind, hnode]

/-- Writing sets a file at the place of the path, where no directory was. -/
theorem write?_eq_some (h : t.write? path bytes = some u) : ∃ names,
    t.resolve path = .ok (.inside names) ∧ t.node? names ≠ some .directory
      ∧ u = t.set names (.file bytes) := by
  rw [write?] at h
  split at h
  · next names hnames =>
    refine ⟨names, hnames, ?_⟩
    split at h
    · cases h
    · next hnode => cases h; simp [hnode]
    · next hnode =>
      split at h
      · split at h
        · cases h
        · cases h; simp [hnode]
      · cases h
  · cases h

/-- **What was written is read back.** -/
theorem read_of_write? (h : t.write? path bytes = some u) : u.read path = .ok bytes := by
  obtain ⟨names, hpath, hnode, rfl⟩ := write?_eq_some h
  have hne : names ≠ [] := by
    rintro rfl
    exact hnode rfl
  have hdirectories : ∀ ns, t.node? ns = some .directory →
      (t.set names (.file bytes)).node? ns = some .directory := by
    intro ns hns
    have hns' : ns ≠ names := by
      rintro rfl
      exact hnode hns
    rw [node?_set_of_ne hns', hns]
  exact read_of_node? (resolve_of_directories hdirectories hpath) (node?_set_self hne t _)

end FormOntology.FileTree
