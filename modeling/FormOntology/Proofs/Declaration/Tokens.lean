import FormOntology.Declaration.Header

/-!
# Reading tokens

Each reader of a declaration takes a piece off the start of a text.  A fixed word is read whatever
follows it; a name, an identifier and blanks are read as far as they go, so the character behind
them is of another kind.

## Main results

* `readWord?_eq_some_iff`, `readBlanks?_eq_some_iff`, `readIdentifier?_eq_some_iff`,
  `Vocabulary.read?_eq_some_iff` — what each reader takes, and what it leaves.
-/

namespace FormOntology

open Text

/-! ### Runs of one kind of character -/

/-- Whether a text does not begin with a character of a kind. -/
def StopsBefore (p : Char → Bool) (text : List Char) : Prop :=
  ∀ c, text.head? = some c → p c = false

@[simp] theorem stopsBefore_nil (p : Char → Bool) : StopsBefore p [] := by
  simp [StopsBefore]

@[simp] theorem stopsBefore_cons {p : Char → Bool} {c : Char} {r : List Char} :
    StopsBefore p (c :: r) ↔ p c = false := by
  simp [StopsBefore]

theorem stopsBefore_dropWhile (p : Char → Bool) (text : List Char) :
    StopsBefore p (text.dropWhile p) := by
  induction text with
  | nil => simp
  | cons c r ih =>
    by_cases hc : p c = true
    · rwa [List.dropWhile_cons_of_pos hc]
    · rw [List.dropWhile_cons_of_neg hc]
      simpa using hc

theorem takeWhile_append_of_stopsBefore {p : Char → Bool} {x rest : List Char}
    (hx : ∀ c ∈ x, p c = true) (hrest : StopsBefore p rest) : (x ++ rest).takeWhile p = x := by
  rw [List.takeWhile_append_of_pos hx]
  cases rest with
  | nil => simp
  | cons c r => simp [stopsBefore_cons.mp hrest]

theorem dropWhile_append_of_stopsBefore {p : Char → Bool} {x rest : List Char}
    (hx : ∀ c ∈ x, p c = true) (hrest : StopsBefore p rest) : (x ++ rest).dropWhile p = rest := by
  rw [List.dropWhile_append_of_pos hx]
  cases rest with
  | nil => simp
  | cons c r => simp [stopsBefore_cons.mp hrest]

/-- Two texts that begin with a run of one kind of character have the same run. -/
theorem append_inj_of_stopsBefore {p : Char → Bool} {x x' y y' : List Char}
    (hx : ∀ c ∈ x, p c = true) (hx' : ∀ c ∈ x', p c = true) (hy : StopsBefore p y)
    (hy' : StopsBefore p y') (h : x ++ y = x' ++ y') : x = x' ∧ y = y' := by
  have htake := takeWhile_append_of_stopsBefore hx hy
  have hdrop := dropWhile_append_of_stopsBefore hx hy
  rw [h, takeWhile_append_of_stopsBefore hx' hy'] at htake
  rw [h, dropWhile_append_of_stopsBefore hx' hy'] at hdrop
  exact ⟨htake.symm, hdrop.symm⟩

/-- What is taken of a text is taken without what follows, if that does not go on. -/
theorem takeWhile_append_of_stops {p : Char → Bool} {y : List Char} (hy : StopsBefore p y)
    (x : List Char) : (x ++ y).takeWhile p = x.takeWhile p := by
  induction x with
  | nil =>
    cases y with
    | nil => rfl
    | cons c y => simp [stopsBefore_cons.mp hy]
  | cons c x ih =>
    rw [List.cons_append, List.takeWhile_cons, List.takeWhile_cons, ih]

theorem dropWhile_append_of_stops {p : Char → Bool} {y : List Char} (hy : StopsBefore p y)
    (x : List Char) : (x ++ y).dropWhile p = x.dropWhile p ++ y := by
  induction x with
  | nil =>
    cases y with
    | nil => rfl
    | cons c y => simp [stopsBefore_cons.mp hy]
  | cons c x ih =>
    rw [List.cons_append, List.dropWhile_cons, List.dropWhile_cons, ih]
    split <;> rfl

/-! ### The readers -/

/-- A fixed word is taken off as it is. -/
theorem readWord?_eq_some_iff {word text rest : List Char} :
    readWord? word text = some rest ↔ text = word ++ rest := by
  induction word generalizing text with
  | nil => simp [readWord?]
  | cons w ws ih =>
    cases text with
    | nil => simp [readWord?]
    | cons c r =>
      rw [readWord?, List.cons_append, List.cons.injEq]
      by_cases hc : c = w
      · rw [if_pos hc, ih]
        simp [hc]
      · simp [hc]

/-- Blanks are taken off, at least one and all there are. -/
theorem readBlanks?_eq_some_iff {text rest : List Char} :
    readBlanks? text = some rest ↔ ∃ gap, text = gap ++ rest ∧ gap ≠ []
      ∧ (∀ c ∈ gap, isBlank c = true) ∧ StopsBefore isBlank rest := by
  constructor
  · intro h
    cases text with
    | nil => simp [readBlanks?] at h
    | cons c r =>
      rw [readBlanks?] at h
      split at h
      · next hc =>
        obtain rfl : trimStart r = rest := by simpa using h
        refine ⟨c :: r.takeWhile isBlank, ?_, by simp, ?_, stopsBefore_dropWhile _ _⟩
        · rw [List.cons_append, trimStart, List.takeWhile_append_dropWhile]
        · intro d hd
          rcases List.mem_cons.mp hd with rfl | hd
          · exact hc
          · exact List.all_eq_true.mp List.all_takeWhile d hd
      · simp at h
  · rintro ⟨gap, rfl, hne, hgap, hrest⟩
    obtain ⟨c, gap, rfl⟩ := List.exists_cons_of_ne_nil hne
    rw [List.cons_append, readBlanks?, if_pos (hgap c (List.mem_cons_self ..)), trimStart,
      dropWhile_append_of_stopsBefore (fun d hd => hgap d (List.mem_cons_of_mem _ hd)) hrest]

/-- An identifier is taken off as far as it goes. -/
theorem readIdentifier?_eq_some_iff {text name rest : List Char} :
    readIdentifier? text = some (name, rest)
      ↔ text = name ++ rest ∧ isName name = true ∧ StopsBefore isNameChar rest := by
  constructor
  · intro h
    cases text with
    | nil => simp [readIdentifier?] at h
    | cons c r =>
      rw [readIdentifier?] at h
      split at h
      · next hc =>
        obtain ⟨rfl, rfl⟩ : c :: r.takeWhile isNameChar = name ∧ r.dropWhile isNameChar = rest := by
          simpa using h
        refine ⟨by simp, ?_, stopsBefore_dropWhile _ _⟩
        rw [isName, hc, List.all_takeWhile]
        rfl
      · simp at h
  · rintro ⟨rfl, hname, hrest⟩
    cases name with
    | nil => simp [isName] at hname
    | cons c r =>
      rw [isName, Bool.and_eq_true, List.all_eq_true] at hname
      rw [List.cons_append, readIdentifier?, if_pos hname.1,
        takeWhile_append_of_stopsBefore hname.2 hrest,
        dropWhile_append_of_stopsBefore hname.2 hrest]

/-- A namespace name is taken off with its colon. -/
theorem Vocabulary.read?_eq_some_iff {v : Vocabulary} {text name rest : List Char} :
    v.read? text = some (name, rest)
      ↔ text = name ++ ':' :: rest ∧ (∀ c ∈ name, isNameChar c = true)
        ∧ v.accepts (String.ofList name) = true := by
  constructor
  · intro h
    rw [Vocabulary.read?] at h
    split at h
    · next r hr =>
      split at h
      · next hv =>
        simp only [Option.some.injEq, Prod.mk.injEq] at h
        obtain ⟨rfl, rfl⟩ := h
        refine ⟨?_, fun c hc => List.all_eq_true.mp List.all_takeWhile c hc, hv⟩
        rw [← hr, List.takeWhile_append_dropWhile]
      · simp at h
    · simp at h
  · rintro ⟨rfl, hname, hv⟩
    have hstop : StopsBefore isNameChar (':' :: rest) := stopsBefore_cons.mpr (by decide)
    rw [Vocabulary.read?, takeWhile_append_of_stopsBefore hname hstop,
      dropWhile_append_of_stopsBefore hname hstop]
    simp [hv]

end FormOntology
