import Mathlib.Data.List.TakeWhile
import FormOntology.Pattern.Atom
import FormOntology.Proofs.Except

/-!
# Reading on behind a text

What stands behind a text in parentheses begins with the closing one.  A reader that has read the
whole of the text stops in front of that parenthesis, with one exception: in verbose text a comment
may be open at the end, and then it swallows the rest of the line, the parenthesis with it.

## Main definitions

* `Closing` — what may stand behind the text.
* `Carried` — a reader reads a text as before when something stands behind it, and leaves that
  unread or has lost it in a comment.

## Main results

* `skipSpace_append_or` — skipping what counts as nothing leaves what stands behind or swallows it.
* `collect_append` — collecting characters that does not reach the end leaves what stands behind.
-/

namespace FormOntology

/-! ### Inversion -/

theorem map_pair_eq_ok {ε α β : Type} {x : Except ε α} {a : α} {r rest : β} :
    x.map (·, r) = .ok (a, rest) ↔ x = .ok a ∧ r = rest := by
  cases x with
  | error e => simp [Except.map]
  | ok b => simp [Except.map]

/-! ### What stands behind a text -/

/-- What may stand behind the text in parentheses: nothing more, or the closing parenthesis and
more on the same line. -/
structure Closing (s : List Char) : Prop where
  /-- It begins with a closing parenthesis. -/
  head : s = [] ∨ ∃ t, s = ')' :: t
  /-- It is on one line. -/
  notMem_lineFeed : '\n' ∉ s
  /-- It has no colon, so it ends no class such as `[:alpha:]`. -/
  notMem_colon : ':' ∉ s

theorem closing_nil : Closing [] := ⟨.inl rfl, by simp, by simp⟩

theorem closing_parenthesis : Closing [')'] := ⟨.inr ⟨[], rfl⟩, by decide, by decide⟩

theorem closing_anchor : Closing [')', '$'] := ⟨.inr ⟨['$'], rfl⟩, by decide, by decide⟩

/-- A text is read in the same way whatever stands behind it; that is left unread, or a comment at
the end of the text swallows it.  What is read is told as a function of what is left. -/
structure Carried {α : Type} (read : List Char → Except PatternError α) (text : List Char)
    (out : List Char → α) (rest : List Char) : Prop where
  /-- Nothing is left of nothing. -/
  rest_nil : text = [] → rest = []
  /-- What stands behind the text is left or swallowed. -/
  behind : (∀ s, Closing s → read (text ++ s) = .ok (out (rest ++ s)))
    ∨ (rest = [] ∧ ∀ s, Closing s → read (text ++ s) = .ok (out []))

namespace Carried

variable {α β : Type} {read : List Char → Except PatternError α} {text rest : List Char}
  {out : List Char → α}

/-- What does not reach the end of the text leaves what stands behind. -/
theorem of_ne_nil (h : Carried read text out rest) (hr : rest ≠ []) {s : List Char}
    (hs : Closing s) : read (text ++ s) = .ok (out (rest ++ s)) :=
  h.behind.elim (· s hs) fun h => absurd h.1 hr

/-- The text alone is read so. -/
theorem here (h : Carried read text out rest) : read text = .ok (out rest) := by
  rcases h.behind with hleft | ⟨rfl, hlost⟩
  · simpa using hleft [] closing_nil
  · simpa using hlost [] closing_nil

/-- A reader that leaves the text as it is. -/
theorem self (h : ∀ s, Closing s → read (text ++ s) = .ok (out (text ++ s))) :
    Carried read text out text :=
  ⟨id, .inl h⟩

/-- Reading by way of another reader. -/
theorem congr {read' : List Char → Except PatternError α} {text' : List Char}
    (h : Carried read' text' out rest) (hnil : text = [] → text' = [])
    (he : ∀ s, Closing s → read (text ++ s) = read' (text' ++ s)) : Carried read text out rest :=
  ⟨fun ht => h.rest_nil (hnil ht), h.behind.imp (fun h s hs => (he s hs).trans (h s hs))
    (And.imp_right fun h s hs => (he s hs).trans (h s hs))⟩

/-- Reading behind a character. -/
theorem cons {read' : List Char → Except PatternError α} {c : Char}
    (h : Carried read' text out rest) (he : ∀ t, read (c :: t) = read' t) :
    Carried read (c :: text) out rest :=
  h.congr (fun h => absurd h (List.cons_ne_nil _ _)) fun s _ => he (text ++ s)

/-- One reader after another: where a comment has swallowed what stands behind, the second reader
finds nothing. -/
theorem bind {f : α → Except PatternError β} {out' : List Char → β} {rest' : List Char}
    (h : Carried read text out rest) (hf : Carried (fun t => f (out t)) rest out' rest') :
    Carried (fun t => read t >>= f) text out' rest' := by
  refine ⟨fun ht => hf.rest_nil (h.rest_nil ht), ?_⟩
  rcases h.behind with hleft | ⟨hr, hlost⟩
  · exact hf.behind.imp (fun hf s hs => bind_eq_ok.mpr ⟨_, hleft s hs, hf s hs⟩)
      (And.imp_right fun hf s hs => bind_eq_ok.mpr ⟨_, hleft s hs, hf s hs⟩)
  · have hr' := hf.rest_nil hr
    have hnil := hf.here
    rw [hr, hr'] at hnil
    exact .inr ⟨hr', fun s hs => bind_eq_ok.mpr ⟨_, hlost s hs, hnil⟩⟩

end Carried

/-! ### Words -/

theorem dropWhile_append_of_ne_nil {p : Char → Bool} {x : List Char} (h : x.dropWhile p ≠ [])
    (y : List Char) : (x ++ y).dropWhile p = x.dropWhile p ++ y := by
  rw [List.dropWhile_append, if_neg (by simpa using h)]

theorem takeWhile_append_of_ne_nil {p : Char → Bool} {x : List Char} (h : x.dropWhile p ≠ [])
    (y : List Char) : (x ++ y).takeWhile p = x.takeWhile p := by
  induction x with
  | nil => exact absurd rfl h
  | cons c x ih =>
    rw [List.cons_append, List.takeWhile_cons, List.takeWhile_cons]
    split
    · next hc => rw [ih (by simpa [hc] using h)]
    · rfl

/-! ### Verbose text -/

theorem dropSpace_append {comment : Bool} {text : List Char} (h : dropSpace comment text ≠ [])
    (s : List Char) : dropSpace comment (text ++ s) = dropSpace comment text ++ s := by
  induction text generalizing comment with
  | nil => cases comment <;> exact absurd rfl h
  | cons c r ih =>
    cases comment with
    | true => exact ih h
    | false =>
      rw [List.cons_append]
      simp only [dropSpace] at h ⊢
      by_cases hb : Text.isBlank c = true
      · simp only [if_pos hb] at h ⊢
        exact ih h
      · simp only [if_neg hb] at h ⊢
        by_cases hc : c = '#'
        · simp only [if_pos hc] at h ⊢
          exact ih h
        · simp only [if_neg hc, List.cons_append]

/-- A comment reaches to the end of the line. -/
theorem dropSpace_true_of_notMem {s : List Char} (h : '\n' ∉ s) : dropSpace true s = [] := by
  induction s with
  | nil => rfl
  | cons c r ih =>
    rw [List.mem_cons, not_or] at h
    rw [dropSpace, bne_iff_ne.mpr (Ne.symm h.1)]
    exact ih h.2

theorem dropSpace_closing {s : List Char} (hs : Closing s) : dropSpace false s = s := by
  rcases hs.head with rfl | ⟨t, rfl⟩ <;> rfl

theorem dropSpace_append_of_eq_nil {comment : Bool} {text : List Char}
    (h : dropSpace comment text = []) :
    (∀ s, Closing s → dropSpace comment (text ++ s) = s)
      ∨ ∀ s, Closing s → dropSpace comment (text ++ s) = [] := by
  induction text generalizing comment with
  | nil =>
    cases comment with
    | true => exact .inr fun s hs => dropSpace_true_of_notMem hs.notMem_lineFeed
    | false => exact .inl fun s hs => dropSpace_closing hs
  | cons c r ih =>
    cases comment with
    | true => exact ih h
    | false =>
      simp only [List.cons_append, dropSpace] at h ⊢
      by_cases hb : Text.isBlank c = true
      · simp only [if_pos hb] at h ⊢
        exact ih h
      · simp only [if_neg hb] at h ⊢
        by_cases hc : c = '#'
        · simp only [if_pos hc] at h ⊢
          exact ih h
        · rw [if_neg hc] at h
          cases h

theorem skipSpace_append {verbose : Bool} {text : List Char} (h : skipSpace verbose text ≠ [])
    (s : List Char) : skipSpace verbose (text ++ s) = skipSpace verbose text ++ s := by
  cases verbose with
  | false => rfl
  | true => exact dropSpace_append h s

@[simp] theorem skipSpace_nil (verbose : Bool) : skipSpace verbose [] = [] := by
  cases verbose <;> rfl

theorem skipSpace_closing {verbose : Bool} {s : List Char} (hs : Closing s) :
    skipSpace verbose s = s := by
  cases verbose with
  | false => rfl
  | true => exact dropSpace_closing hs

theorem dropSpace_dropSpace (comment : Bool) (text : List Char) :
    dropSpace false (dropSpace comment text) = dropSpace comment text := by
  induction text generalizing comment with
  | nil => cases comment <;> rfl
  | cons c r ih =>
    cases comment with
    | true => exact ih _
    | false =>
      rw [dropSpace]
      by_cases hb : Text.isBlank c = true
      · rw [if_pos hb, ih]
      · by_cases hc : c = '#'
        · rw [if_neg hb, if_pos hc, ih]
        · rw [if_neg hb, if_neg hc, dropSpace, if_neg hb, if_neg hc]

@[simp] theorem skipSpace_skipSpace (verbose : Bool) (text : List Char) :
    skipSpace verbose (skipSpace verbose text) = skipSpace verbose text := by
  cases verbose with
  | false => rfl
  | true => exact dropSpace_dropSpace false text

/-- Where nothing is to be skipped, nothing is when something stands behind. -/
theorem skipSpace_append_self {verbose : Bool} {text : List Char}
    (h : skipSpace verbose text = text) {s : List Char} (hs : Closing s) :
    skipSpace verbose (text ++ s) = text ++ s := by
  by_cases hn : text = []
  · rw [hn]
    exact skipSpace_closing hs
  · rw [skipSpace_append (by rwa [h]), h]

/-- **Skipping what counts as nothing leaves what stands behind a text, or swallows it.** -/
theorem skipSpace_append_or (verbose : Bool) (text : List Char) :
    (∀ s, Closing s → skipSpace verbose (text ++ s) = skipSpace verbose text ++ s)
      ∨ (skipSpace verbose text = []
        ∧ ∀ s, Closing s → skipSpace verbose (text ++ s) = []) := by
  by_cases h : skipSpace verbose text = []
  · cases verbose with
    | false => exact .inl fun s _ => rfl
    | true =>
      rcases dropSpace_append_of_eq_nil h with hs | hs
      · exact .inl fun s hc => by rw [h]; exact hs s hc
      · exact .inr ⟨h, hs⟩
  · exact .inl fun s _ => skipSpace_append h s

/-- A reader in front of which what counts as nothing is skipped. -/
theorem Carried.skip {α : Type} {read : List Char → Except PatternError α} {text rest : List Char}
    {out : List Char → α} {verbose : Bool} (h : Carried read (skipSpace verbose text) out rest) :
    Carried (fun t => read (skipSpace verbose t)) text out rest := by
  rcases skipSpace_append_or verbose text with hs | ⟨hnil, hs⟩
  · exact h.congr (fun ht => by rw [ht, skipSpace_nil]) fun s hc => congrArg read (hs s hc)
  · have hr := h.rest_nil hnil
    have hread := h.here
    rw [hnil, hr] at hread
    exact ⟨fun _ => hr, .inr ⟨hr, fun s hc => (congrArg read (hs s hc)).trans hread⟩⟩

theorem Carried.of_skip {α : Type} {read : List Char → Except PatternError α}
    {text rest : List Char} {out : List Char → α} {verbose : Bool}
    (hread : ∀ t, read (skipSpace verbose t) = read t)
    (h : Carried read (skipSpace verbose text) out rest) : Carried read text out rest :=
  h.skip.congr id fun s _ => (hread (text ++ s)).symm

/-- Collecting characters that does not reach the end leaves what stands behind. -/
theorem collect_append {verbose : Bool} {p : Char → Bool} {comment : Bool}
    {text taken rest : List Char} (h : collect verbose p comment text = (taken, rest))
    (hr : rest ≠ []) (s : List Char) :
    collect verbose p comment (text ++ s) = (taken, rest ++ s) := by
  induction text generalizing comment taken with
  | nil => cases comment <;> exact absurd (congrArg Prod.snd h).symm hr
  | cons c r ih =>
    cases comment with
    | true => exact ih h
    | false =>
      rw [List.cons_append]
      simp only [collect] at h ⊢
      split at h
      · next hb => rw [if_pos hb]; exact ih h
      · next hb =>
        rw [if_neg hb]
        split at h
        · next hc => rw [if_pos hc]; exact ih h
        · next hc =>
          rw [if_neg hc]
          split at h
          · next hp =>
            obtain ⟨rfl, rfl⟩ := Prod.mk.inj h
            rw [if_pos hp, ih rfl]
          · next hp =>
            obtain ⟨rfl, rfl⟩ := Prod.mk.inj h
            rw [if_neg hp]
            rfl

end FormOntology
