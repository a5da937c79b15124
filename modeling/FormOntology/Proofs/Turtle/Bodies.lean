import FormOntology.Proofs.Turtle.Runs
import FormOntology.Turtle.Literal

/-!
# Bodies in longer texts

What stands behind a literal or a list does not belong to its body, and a text that closes nothing
makes no body of what is open in front of it.

## Main results

* `literalBody?_append_of_notMem`, `listBody?_append_of_notMem` — none is read because of a text
  that closes nothing.
* `longBody?_append`, `shortBody?_append_of_shortTail`, `listTail?_append` — a body that is closed
  is read in a longer text.
-/

namespace FormOntology.Turtle

/-! ### Bodies by their first characters -/

@[simp] theorem longBody?_nil : longBody? [] = none := rfl

theorem longBody?_triple {c : Char} {r : List Char} (h : startsTriple (c :: r) = true) :
    longBody? (c :: r) = some [] := by
  rw [longBody?, if_pos h]

theorem longBody?_cons {c : Char} {r : List Char} (h : ¬startsTriple (c :: r) = true) :
    longBody? (c :: r) = (longBody? r).map (c :: ·) := by
  rw [longBody?, if_neg h]

@[simp] theorem shortBody?_nil : shortBody? [] = none := rfl

@[simp] theorem shortBody?_quote (r : List Char) : shortBody? ('"' :: r) = some [] := by
  rw [shortBody?.eq_def]
  rfl

@[simp] theorem shortBody?_newline (r : List Char) : shortBody? ('\n' :: r) = none := by
  rw [shortBody?.eq_def]
  rfl

@[simp] theorem shortBody?_backslash : shortBody? ['\\'] = none := rfl

theorem shortBody?_escape (d : Char) (r : List Char) : shortBody? ('\\' :: d :: r)
    = if d = '\n' then none else (shortBody? r).map ('\\' :: d :: ·) := by
  rw [shortBody?, if_neg (by decide), if_neg (by decide), if_pos rfl]

theorem shortBody?_cons {c : Char} (hq : c ≠ '"') (hn : c ≠ '\n') (hb : c ≠ '\\')
    (r : List Char) : shortBody? (c :: r) = (shortBody? r).map (c :: ·) := by
  rw [shortBody?.eq_def]
  simp only [hq, hn, hb, if_false]

@[simp] theorem listTail?_nil (quoted : Bool) : listTail? quoted [] = none := by
  cases quoted <;> rfl

theorem listTail?_false (c : Char) (r : List Char) : listTail? false (c :: r)
    = if c = ')' then some [] else (listTail? (c == '"') r).map (c :: ·) := rfl

@[simp] theorem listTail?_quote (r : List Char) :
    listTail? true ('"' :: r) = (listTail? false r).map ('"' :: ·) := by
  rw [listTail?.eq_def]
  rfl

@[simp] theorem listTail?_backslash : listTail? true ['\\'] = none := rfl

theorem listTail?_escape (d : Char) (r : List Char) : listTail? true ('\\' :: d :: r)
    = if d = '\n' then none else (listTail? true r).map ('\\' :: d :: ·) := by
  rw [listTail?, if_neg (by decide), if_pos rfl]

theorem listTail?_cons {c : Char} (hq : c ≠ '"') (hb : c ≠ '\\') (r : List Char) :
    listTail? true (c :: r) = (listTail? true r).map (c :: ·) := by
  rw [listTail?.eq_def]
  simp only [hq, hb, if_false]

/-! ### Texts behind that close nothing -/

section NotMem

variable {y : List Char}

/-- Three quotes do not go on in a text without quotes. -/
theorem startsTriple_append_of_notMem (hy : '"' ∉ y) (x : List Char) :
    startsTriple (x ++ y) = startsTriple x := by
  rw [Bool.eq_iff_iff]
  refine ⟨?_, fun h => startsTriple_append h y⟩
  intro h
  obtain ⟨w, hw⟩ := startsTriple_iff.mp h
  match x with
  | [] => simp_all
  | [_] => simp_all
  | [_, _] => simp_all
  | _ :: _ :: _ :: _ => exact h

theorem longBody?_append_of_notMem (hy : '"' ∉ y) (x : List Char) :
    longBody? (x ++ y) = longBody? x := by
  induction x with
  | nil =>
    rw [List.nil_append, longBody?_nil]
    induction y with
    | nil => rfl
    | cons d y ih =>
      have hnil : ¬startsTriple (d :: y) = true := by
        rw [← List.nil_append (d :: y), startsTriple_append_of_notMem hy]
        simp [startsTriple]
      rw [longBody?_cons hnil, ih fun h => hy (List.mem_cons_of_mem _ h)]
      rfl
  | cons c x ih =>
    have htriple : startsTriple (c :: (x ++ y)) = startsTriple (c :: x) :=
      startsTriple_append_of_notMem hy (c :: x)
    by_cases h : startsTriple (c :: x) = true
    · rw [List.cons_append, longBody?_triple (htriple.trans h), longBody?_triple h]
    · rw [List.cons_append, longBody?_cons (by rwa [htriple]), ih, longBody?_cons h]

/-- A text without quotes closes no short literal. -/
theorem shortBody?_eq_none (hy : '"' ∉ y) : shortBody? y = none := by
  fun_induction shortBody? y <;> simp_all

theorem shortBody?_append_of_notMem (hy : '"' ∉ y) (x : List Char) :
    shortBody? (x ++ y) = shortBody? x := by
  fun_induction shortBody? x with
  | case1 => exact shortBody?_eq_none hy
  | case2 => simp
  | case3 => simp
  | case4 =>
    cases y with
    | nil => simp
    | cons d y =>
      have hnone : shortBody? y = none := shortBody?_eq_none fun h => hy (List.mem_cons_of_mem _ h)
      simp [shortBody?_escape, hnone]
  | case5 => simp [shortBody?_escape]
  | case6 d r hd _ _ ih =>
    rw [List.cons_append, List.cons_append, shortBody?_escape, if_neg hd, ih]
  | case7 c r hq hn hb ih => rw [List.cons_append, shortBody?_cons hq hn hb, ih]

/-- A text without quotes closes no literal. -/
theorem literalBody?_append_of_notMem (hy : '"' ∉ y) (x : List Char) :
    literalBody? (x ++ y) = literalBody? x := by
  cases x with
  | nil =>
    cases y with
    | nil => rfl
    | cons d y =>
      have hd : d ≠ '"' := fun h => hy (by simp [h])
      simp [literalBody?, hd]
  | cons c x =>
    have htriple := startsTriple_append_of_notMem hy (c :: x)
    rw [List.cons_append] at htriple ⊢
    rw [literalBody?, literalBody?, htriple, shortBody?_append_of_notMem hy]
    by_cases h : startsTriple (c :: x) = true
    · have hlen := three_le_length_of_startsTriple h
      rw [List.length_cons] at hlen
      rw [if_pos h, if_pos h, List.drop_append_of_le_length (by omega),
        longBody?_append_of_notMem hy]
    · rw [if_neg h, if_neg h]

theorem listTail?_eq_none (hy : ')' ∉ y) (quoted : Bool) : listTail? quoted y = none := by
  fun_induction listTail? quoted y <;> simp_all

theorem listTail?_append_of_notMem (hy : ')' ∉ y) (quoted : Bool) (x : List Char) :
    listTail? quoted (x ++ y) = listTail? quoted x := by
  fun_induction listTail? quoted x with
  | case1 => exact listTail?_eq_none hy _
  | case2 => rfl
  | case3 c r hc ih => rw [List.cons_append, listTail?_false, if_neg hc, ih]
  | case4 r ih => rw [List.cons_append, listTail?_quote, ih]
  | case5 =>
    cases y with
    | nil => rfl
    | cons d y =>
      have hnone : listTail? true y = none :=
        listTail?_eq_none (fun h => hy (List.mem_cons_of_mem _ h)) true
      simp [listTail?_escape, hnone]
  | case6 => simp [listTail?_escape]
  | case7 d r hd _ ih => rw [List.cons_append, List.cons_append, listTail?_escape, if_neg hd, ih]
  | case8 c r hq hb ih => rw [List.cons_append, listTail?_cons hq hb, ih]

/-- A text without parentheses closes no list, and opens none. -/
theorem listBody?_append_of_notMem (hy : ')' ∉ y) (ho : '(' ∉ y) (x : List Char) :
    listBody? (x ++ y) = listBody? x := by
  cases x with
  | nil =>
    cases y with
    | nil => rfl
    | cons d y =>
      have hd : d ≠ '(' := fun h => ho (by simp [h])
      simp [listBody?, hd]
  | cons c x => rw [List.cons_append, listBody?, listBody?, listTail?_append_of_notMem hy]

end NotMem

/-! ### Bodies that are closed -/

theorem three_le_length_of_longBody? {x b : List Char} (h : longBody? x = some b) :
    3 ≤ x.length := by
  induction x generalizing b with
  | nil => simp at h
  | cons c x ih =>
    by_cases htriple : startsTriple (c :: x) = true
    · exact three_le_length_of_startsTriple htriple
    · rw [longBody?_cons htriple, Option.map_eq_some_iff] at h
      obtain ⟨b, hb, -⟩ := h
      exact Nat.le_succ_of_le (ih hb)

/-- The body of a long literal is read in a longer text. -/
theorem longBody?_append {x b : List Char} (h : longBody? x = some b) (y : List Char) :
    longBody? (x ++ y) = some b := by
  induction x generalizing b with
  | nil => simp at h
  | cons c x ih =>
    have hlen := three_le_length_of_longBody? h
    rw [List.cons_append]
    by_cases htriple : startsTriple (c :: x) = true
    · rw [longBody?_triple htriple] at h
      have ht : startsTriple (c :: (x ++ y)) = true := startsTriple_append htriple y
      rw [longBody?_triple ht, h]
    · have htriple' : ¬startsTriple (c :: (x ++ y)) = true := fun ht =>
        htriple (startsTriple_of_append (b := y) ht hlen)
      rw [longBody?_cons htriple, Option.map_eq_some_iff] at h
      obtain ⟨b, hb, rfl⟩ := h
      rw [longBody?_cons htriple', ih hb]
      rfl

theorem longBody?_cons_ne_none {c : Char} {x : List Char} (h : longBody? x ≠ none) :
    longBody? (c :: x) ≠ none := by
  by_cases htriple : startsTriple (c :: x) = true
  · simp [longBody?_triple htriple]
  · simpa [longBody?_cons htriple] using h

/-- A long literal that ends in front of more text has a body. -/
theorem longBody?_ne_none_of_closed {x y : List Char} (h : longTail (x ++ y) ≤ x.length)
    (hy : y ≠ []) : longBody? x ≠ none := by
  -- a literal with no body runs over the end of `x`, at least by one character of `y`
  have hpos : ∀ z : List Char, z ≠ [] → 0 < longTail z := by
    intro z hz
    by_cases hshort : longTail z < 3
    · rw [longTail_eq_length hshort]
      exact List.length_pos_iff.mpr hz
    · omega
  fun_induction longTail x with
  | case1 =>
    have := hpos y hy
    simp only [List.nil_append, List.length_nil] at h
    omega
  | case2 =>
    obtain ⟨d, y, rfl⟩ := List.exists_cons_of_ne_nil hy
    simp at h
  | case3 d r ih =>
    simp only [List.cons_append, longTail_escape, List.length_cons] at h
    exact longBody?_cons_ne_none (longBody?_cons_ne_none (ih (by omega)))
  | case4 c r _ ht => simp [longBody?_triple ht]
  | case5 c r hb ht ih =>
    have ht' : ¬startsTriple (c :: (r ++ y)) = true := by
      intro hs
      rw [List.cons_append, longTail_triple hs] at h
      exact ht (startsTriple_of_append (b := y) hs h)
    rw [List.cons_append, longTail_cons hb ht', List.length_cons] at h
    exact longBody?_cons_ne_none (ih (by omega))

/-- A short literal that ends in front of more text has the body that it has alone. -/
theorem shortBody?_append_of_shortTail {x y : List Char} (h : shortTail (x ++ y) ≤ x.length) :
    shortBody? (x ++ y) = shortBody? x := by
  fun_induction shortBody? x with
  | case1 =>
    rcases Decidable.em (y = []) with rfl | hy
    · rfl
    · obtain ⟨y, rfl⟩ := List.head?_eq_some_iff.mp
        (head?_of_shortTail_eq_zero (Nat.le_zero.mp h) hy)
      simp
  | case2 => simp
  | case3 => simp
  | case4 =>
    cases y with
    | nil => simp
    | cons d y => simp at h
  | case5 => simp [shortBody?_escape]
  | case6 d r hd _ _ ih =>
    simp only [List.cons_append, shortTail_escape, List.length_cons] at h
    rw [List.cons_append, List.cons_append, shortBody?_escape, if_neg hd, ih (by omega)]
  | case7 c r hq hn hb ih =>
    rw [List.cons_append, shortTail_cons hq hn hb, List.length_cons] at h
    rw [List.cons_append, shortBody?_cons hq hn hb, ih (by omega)]

/-- The body of a list is read in a longer text. -/
theorem listTail?_append {quoted : Bool} {x b : List Char} (h : listTail? quoted x = some b)
    (y : List Char) : listTail? quoted (x ++ y) = some b := by
  fun_induction listTail? quoted x generalizing b with
  | case1 => simp at h
  | case2 r => exact h
  | case3 c r hc ih =>
    obtain ⟨b, hb, rfl⟩ := Option.map_eq_some_iff.mp h
    rw [List.cons_append, listTail?_false, if_neg hc, ih hb, Option.map_some]
  | case4 r ih =>
    obtain ⟨b, hb, rfl⟩ := Option.map_eq_some_iff.mp h
    rw [List.cons_append, listTail?_quote, ih hb, Option.map_some]
  | case5 => simp at h
  | case6 => simp at h
  | case7 d r hd _ ih =>
    obtain ⟨b, hb, rfl⟩ := Option.map_eq_some_iff.mp h
    rw [List.cons_append, List.cons_append, listTail?_escape, if_neg hd, ih hb, Option.map_some]
  | case8 c r hq hb ih =>
    obtain ⟨b, hb', rfl⟩ := Option.map_eq_some_iff.mp h
    rw [List.cons_append, listTail?_cons hq hb, ih hb', Option.map_some]

end FormOntology.Turtle
