import FormOntology.Turtle.Inert

/-!
# Lengths of runs

How far a comment, a literal or an IRI reaches is measured on all the text behind its first
character.  The measures are local: what follows a run that has ended does not count, and what
follows the end of a line only counts for a literal.

## Main results

* `opening_eq_some` — the four ways to open a run.
* `opening_of_append` — a run that ends inside a text opens the same in that text alone.
* `opening_of_lt_append` — a run that goes on behind the end of a line is a literal.
* `opening_append_congr` — a run opens the same in front of a text that goes on in the same way.
-/

namespace FormOntology.Turtle

open Text

/-! ### Measuring runs

One equation for each way a run goes on or ends. -/

@[simp] theorem commentTail_nil : commentTail [] = 0 := rfl

@[simp] theorem commentTail_newline (r : List Char) : commentTail ('\n' :: r) = 0 := rfl

theorem commentTail_cons {c : Char} (h : c ≠ '\n') (r : List Char) :
    commentTail (c :: r) = commentTail r + 1 := by
  simp [commentTail, h]

@[simp] theorem shortTail_nil : shortTail [] = 0 := rfl

@[simp] theorem shortTail_quote (r : List Char) : shortTail ('"' :: r) = 1 := by
  rw [shortTail.eq_def]; rfl

@[simp] theorem shortTail_newline (r : List Char) : shortTail ('\n' :: r) = 0 := by
  rw [shortTail.eq_def]; rfl

@[simp] theorem shortTail_backslash : shortTail ['\\'] = 1 := rfl

@[simp] theorem shortTail_escape (d : Char) (r : List Char) :
    shortTail ('\\' :: d :: r) = shortTail r + 2 := by
  rw [shortTail.eq_def]; rfl

theorem shortTail_cons {c : Char} (hq : c ≠ '"') (hn : c ≠ '\n') (hb : c ≠ '\\')
    (r : List Char) : shortTail (c :: r) = shortTail r + 1 := by
  rw [shortTail.eq_def]
  simp [hq, hn, hb]

@[simp] theorem longTail_nil : longTail [] = 0 := rfl

@[simp] theorem longTail_backslash : longTail ['\\'] = 1 := rfl

@[simp] theorem longTail_escape (d : Char) (r : List Char) :
    longTail ('\\' :: d :: r) = longTail r + 2 := by
  rw [longTail.eq_def]; rfl

theorem three_le_length_of_startsTriple {text : List Char} (h : startsTriple text = true) :
    3 ≤ text.length := by
  match text with
  | [] => simp [startsTriple] at h
  | [_] => simp [startsTriple] at h
  | [_, _] => simp [startsTriple] at h
  | _ :: _ :: _ :: _ => simp

theorem ne_backslash_of_startsTriple {c : Char} {r : List Char}
    (h : startsTriple (c :: r) = true) : c ≠ '\\' := by
  rintro rfl
  match r with
  | [] => simp [startsTriple] at h
  | [_] => simp [startsTriple] at h
  | _ :: _ :: _ => simp [startsTriple] at h

theorem longTail_triple {c : Char} {r : List Char} (h : startsTriple (c :: r) = true) :
    longTail (c :: r) = 3 := by
  rw [longTail.eq_def]
  simp [ne_backslash_of_startsTriple h, h]

theorem longTail_cons {c : Char} (hb : c ≠ '\\') {r : List Char}
    (ht : ¬startsTriple (c :: r) = true) : longTail (c :: r) = longTail r + 1 := by
  rw [longTail.eq_def]
  simp [hb, ht]

@[simp] theorem iriTail?_nil : iriTail? [] = none := rfl

@[simp] theorem iriTail?_close (r : List Char) : iriTail? ('>' :: r) = some 1 := by
  rw [iriTail?.eq_def]; rfl

theorem iriTail?_blank {c : Char} (hc : c ≠ '>') (hb : isAsciiBlank c = true) (r : List Char) :
    iriTail? (c :: r) = none := by
  rw [iriTail?.eq_def]
  simp [hc, hb]

theorem iriTail?_cons {c : Char} (hc : c ≠ '>') (hb : ¬isAsciiBlank c = true) (r : List Char) :
    iriTail? (c :: r) = (iriTail? r).map (· + 1) := by
  rw [iriTail?.eq_def]
  simp [hc, hb]

/-! ### What opens a run -/

@[simp] theorem opening_hash (r : List Char) : opening '#' r = some (.comment, commentTail r) := rfl

theorem opening_triple {r : List Char} (h : startsTriple ('"' :: r) = true) :
    opening '"' r = some (.longLiteral, longTail (r.drop 2) + 2) := by
  simp [opening, h]

theorem opening_quote {r : List Char} (h : ¬startsTriple ('"' :: r) = true) :
    opening '"' r = some (.shortLiteral, shortTail r) := by
  simp [opening, h]

@[simp] theorem opening_angle (r : List Char) :
    opening '<' r = (iriTail? r).map (.iri, ·) := rfl

theorem opening_eq_none_iff {c : Char} {r : List Char} :
    opening c r = none ↔ c ≠ '#' ∧ c ≠ '"' ∧ (c = '<' → iriTail? r = none) := by
  unfold opening
  split
  · next h => simp [h]
  split
  · next h => split <;> simp [h]
  split
  · next h => simp [h]
  · next h₁ h₂ h₃ => simp [h₁, h₂, h₃]

/-- The four ways to open a run. -/
theorem opening_eq_some {c : Char} {r : List Char} {k : Inert} {n : Nat}
    (h : opening c r = some (k, n)) :
    (c = '#' ∧ k = .comment ∧ n = commentTail r)
      ∨ (c = '"' ∧ startsTriple ('"' :: r) = true ∧ k = .longLiteral
        ∧ n = longTail (r.drop 2) + 2)
      ∨ (c = '"' ∧ ¬startsTriple ('"' :: r) = true ∧ k = .shortLiteral ∧ n = shortTail r)
      ∨ (c = '<' ∧ k = .iri ∧ iriTail? r = some n) := by
  by_cases hh : c = '#'
  · subst hh
    rw [opening_hash, Option.some.injEq, Prod.mk.injEq] at h
    exact .inl ⟨rfl, h.1.symm, h.2.symm⟩
  by_cases hq : c = '"'
  · subst hq
    by_cases ht : startsTriple ('"' :: r) = true
    · rw [opening_triple ht, Option.some.injEq, Prod.mk.injEq] at h
      exact .inr (.inl ⟨rfl, ht, h.1.symm, h.2.symm⟩)
    · rw [opening_quote ht, Option.some.injEq, Prod.mk.injEq] at h
      exact .inr (.inr (.inl ⟨rfl, ht, h.1.symm, h.2.symm⟩))
  by_cases hi : c = '<'
  · subst hi
    rw [opening_angle, Option.map_eq_some_iff] at h
    obtain ⟨m, hm, hk⟩ := h
    rw [Prod.mk.injEq] at hk
    exact .inr (.inr (.inr ⟨rfl, hk.1.symm, hk.2 ▸ hm⟩))
  · rw [opening_eq_none_iff.mpr ⟨hh, hq, fun h => absurd h hi⟩] at h
    simp at h

/-! ### Runs that end in a prefix

Each of the four measures is local: a run that ends inside `r` is measured the same whether or not
something follows `r`. -/

theorem startsTriple_append {text : List Char} (h : startsTriple text = true)
    (b : List Char) : startsTriple (text ++ b) = true := by
  match text with
  | [] => simp [startsTriple] at h
  | [_] => simp [startsTriple] at h
  | [_, _] => simp [startsTriple] at h
  | _ :: _ :: _ :: _ => simpa [startsTriple] using h

theorem startsTriple_of_append {text b : List Char} (h : startsTriple (text ++ b) = true)
    (hlen : 3 ≤ text.length) : startsTriple text = true := by
  match text with
  | [] => simp at hlen
  | [_] => simp at hlen
  | [_, _] => simp at hlen
  | _ :: _ :: _ :: _ => simpa [startsTriple] using h

theorem startsTriple_of_append_letter {text : List Char}
    (h : startsTriple (text ++ ['x']) = true) : startsTriple text = true := by
  match text with
  | [] => simp [startsTriple] at h
  | [_] => simp [startsTriple] at h
  | [_, _] => simp [startsTriple] at h
  | _ :: _ :: _ :: _ => simpa [startsTriple] using h

theorem commentTail_of_append {r b : List Char} (h : commentTail (r ++ b) ≤ r.length) :
    commentTail (r ++ b) = commentTail r := by
  induction r with
  | nil => simpa using h
  | cons c r ih =>
    by_cases hc : c = '\n'
    · simp [hc]
    · rw [List.cons_append, commentTail_cons hc, List.length_cons] at h
      rw [List.cons_append, commentTail_cons hc, commentTail_cons hc, ih (by omega)]

theorem shortTail_of_append {r b : List Char} (h : shortTail (r ++ b) ≤ r.length) :
    shortTail (r ++ b) = shortTail r := by
  fun_induction shortTail r with
  | case1 => simpa using h
  | case2 r => simp
  | case3 r => simp
  | case4 => cases b <;> simp_all
  | case5 d r _ _ ih =>
    simp only [List.cons_append, shortTail_escape, List.length_cons] at h ⊢
    rw [ih (by omega)]
  | case6 c r hq hn hb ih =>
    rw [List.cons_append, shortTail_cons hq hn hb, List.length_cons] at h
    rw [List.cons_append, shortTail_cons hq hn hb, ih (by omega)]

theorem longTail_of_append {r b : List Char} (h : longTail (r ++ b) ≤ r.length) :
    longTail (r ++ b) = longTail r := by
  fun_induction longTail r with
  | case1 => simpa using h
  | case2 => cases b <;> simp_all
  | case3 d r ih =>
    simp only [List.cons_append, longTail_escape, List.length_cons] at h ⊢
    rw [ih (by omega)]
  | case4 c r _ ht =>
    exact longTail_triple (startsTriple_append ht b)
  | case5 c r hb ht ih =>
    have ht' : ¬startsTriple (c :: (r ++ b)) = true := by
      intro hs
      rw [List.cons_append, longTail_triple hs] at h
      exact ht (startsTriple_of_append hs h)
    rw [List.cons_append, longTail_cons hb ht', List.length_cons] at h
    rw [List.cons_append, longTail_cons hb ht', ih (by omega)]

theorem iriTail?_append {r : List Char} {n : Nat} (h : iriTail? r = some n) (b : List Char) :
    iriTail? (r ++ b) = some n := by
  fun_induction iriTail? r generalizing n with
  | case1 => simp at h
  | case2 r => simpa using h
  | case3 c r _ _ => simp at h
  | case4 c r hc hb ih =>
    obtain ⟨m, hm, rfl⟩ := Option.map_eq_some_iff.mp h
    rw [List.cons_append, iriTail?_cons hc hb, ih hm, Option.map_some]

theorem iriTail?_of_append {r b : List Char} {n : Nat} (h : iriTail? (r ++ b) = some n)
    (hn : n ≤ r.length) : iriTail? r = some n := by
  induction r generalizing n with
  | nil =>
    -- an IRI has at least its closing bracket
    have : ∀ l : List Char, iriTail? l ≠ some 0 := by
      intro l
      fun_cases iriTail? l <;> simp
    exact absurd h (Nat.le_zero.mp hn ▸ this _)
  | cons c r ih =>
    by_cases hc : c = '>'
    · simpa [hc] using h
    by_cases hb : isAsciiBlank c = true
    · rw [List.cons_append, iriTail?_blank hc hb] at h
      simp at h
    · rw [List.cons_append, iriTail?_cons hc hb] at h
      obtain ⟨m, hm, rfl⟩ := Option.map_eq_some_iff.mp h
      rw [iriTail?_cons hc hb, ih hm (by simpa using hn), Option.map_some]

theorem commentTail_le (r : List Char) : commentTail r ≤ r.length :=
  (List.takeWhile_sublist _).length_le

theorem shortTail_le (r : List Char) : shortTail r ≤ r.length := by
  fun_induction shortTail r <;> simp_all

theorem longTail_le (r : List Char) : longTail r ≤ r.length := by
  fun_induction longTail r with
  | case4 c r _ ht => exact three_le_length_of_startsTriple ht
  | _ => simp_all

theorem iriTail?_le {r : List Char} {n : Nat} (h : iriTail? r = some n) : n ≤ r.length := by
  fun_induction iriTail? r generalizing n with
  | case1 => simp at h
  | case2 r => simp at h; simp [← h]
  | case3 => simp at h
  | case4 c r _ _ ih =>
    obtain ⟨m, hm, rfl⟩ := Option.map_eq_some_iff.mp h
    simpa using ih hm

/-- An IRI ends with its closing bracket. -/
theorem iriTail?_eq_some {r : List Char} {n : Nat} (h : iriTail? r = some n) :
    ∃ u w, r = u ++ '>' :: w ∧ n = u.length + 1 := by
  fun_induction iriTail? r generalizing n with
  | case1 => simp at h
  | case2 r => exact ⟨[], r, rfl, by simpa using h.symm⟩
  | case3 => simp at h
  | case4 c r _ _ ih =>
    obtain ⟨m, hm, rfl⟩ := Option.map_eq_some_iff.mp h
    obtain ⟨u, w, rfl, rfl⟩ := ih hm
    exact ⟨c :: u, w, rfl, rfl⟩

/-! ### Runs inside a text -/

/-- A run does not reach over the end of the text. -/
theorem opening_le {c : Char} {r : List Char} {k : Inert} {n : Nat}
    (h : opening c r = some (k, n)) : n ≤ r.length := by
  rcases opening_eq_some h with ⟨-, -, rfl⟩ | ⟨-, ht, -, rfl⟩ | ⟨-, -, -, rfl⟩ | ⟨-, -, hn⟩
  · exact commentTail_le r
  · have hlen := three_le_length_of_startsTriple ht
    have hle := longTail_le (r.drop 2)
    simp only [List.length_drop, List.length_cons] at hlen hle
    omega
  · exact shortTail_le r
  · exact iriTail?_le hn

/-- A run that ends inside `r` opens the same whether or not something follows `r`. -/
theorem opening_of_append {c : Char} {r b : List Char} {k : Inert} {n : Nat}
    (h : opening c (r ++ b) = some (k, n)) (hn : n ≤ r.length) : opening c r = some (k, n) := by
  rcases opening_eq_some h with
    ⟨rfl, rfl, rfl⟩ | ⟨rfl, ht, rfl, rfl⟩ | ⟨rfl, ht, rfl, rfl⟩ | ⟨rfl, rfl, hi⟩
  · rw [opening_hash, commentTail_of_append hn]
  · have hlen : 2 ≤ r.length := by omega
    rw [List.drop_append_of_le_length hlen] at hn ⊢
    rw [opening_triple (startsTriple_of_append (b := b) ht (by simpa using hlen)),
      longTail_of_append (by rw [List.length_drop]; omega)]
  · rw [opening_quote fun hs => ht (startsTriple_append hs b), shortTail_of_append hn]
  · rw [opening_angle, iriTail?_of_append hi hn, Option.map_some]

/-- A character that opens no run opens none when the text is shorter. -/
theorem opening_eq_none_of_append {c : Char} {r b : List Char} (h : opening c (r ++ b) = none) :
    opening c r = none := by
  rw [opening_eq_none_iff] at h ⊢
  refine ⟨h.1, h.2.1, ?_⟩
  intro hc
  cases ht : iriTail? r with
  | none => rfl
  | some n =>
    have := h.2.2 hc
    rw [iriTail?_append ht b] at this
    simp at this

/-! ### Runs over the end of a line -/

theorem commentTail_of_lineFeed {r y : List Char} (h : '\n' ∈ r ∨ y.head? = some '\n') :
    commentTail (r ++ y) ≤ r.length := by
  induction r with
  | nil =>
    rcases h with h | h
    · simp at h
    · obtain ⟨y, rfl⟩ := List.head?_eq_some_iff.mp h
      simp
  | cons c r ih =>
    by_cases hc : c = '\n'
    · simp [hc]
    · rw [List.cons_append, commentTail_cons hc, List.length_cons]
      have := ih (by simpa [Ne.symm hc] using h)
      omega

theorem iriTail?_of_lineFeed {r y : List Char} {n : Nat} (h : '\n' ∈ r ∨ y.head? = some '\n')
    (hn : iriTail? (r ++ y) = some n) : n ≤ r.length := by
  induction r generalizing n with
  | nil =>
    rcases h with h | h
    · simp at h
    · obtain ⟨y, rfl⟩ := List.head?_eq_some_iff.mp h
      rw [List.nil_append, iriTail?_blank (by decide) (by decide)] at hn
      simp at hn
  | cons c r ih =>
    by_cases hc : c = '>'
    · simp only [hc, List.cons_append, iriTail?_close, Option.some.injEq] at hn
      simp [← hn]
    by_cases hb : isAsciiBlank c = true
    · rw [List.cons_append, iriTail?_blank hc hb] at hn
      simp at hn
    · rw [List.cons_append, iriTail?_cons hc hb] at hn
      obtain ⟨m, hm, rfl⟩ := Option.map_eq_some_iff.mp hn
      have hne : '\n' ≠ c := by rintro rfl; exact hb (by decide)
      simpa using ih (by simpa [hne] using h) hm

theorem commentTail_of_lt_append {r y : List Char} (h : r.length < commentTail (r ++ y)) :
    commentTail r = r.length := by
  induction r with
  | nil => rfl
  | cons c r ih =>
    by_cases hc : c = '\n'
    · simp [hc] at h
    · rw [List.cons_append, commentTail_cons hc, List.length_cons, Nat.add_lt_add_iff_right] at h
      rw [commentTail_cons hc, ih h, List.length_cons]

/-- A short literal that runs over the end of `r` does so whatever follows `r`. -/
theorem shortTail_of_lt_append {r y : List Char} (h : r.length < shortTail (r ++ y)) :
    shortTail r = r.length ∧ shortTail (r ++ ['x']) = r.length + 1 := by
  fun_induction shortTail r with
  | case1 => exact ⟨rfl, rfl⟩
  | case2 r => simp at h
  | case3 r => simp at h
  | case4 => exact ⟨rfl, rfl⟩
  | case5 d r _ _ ih =>
    simp only [List.cons_append, shortTail_escape, List.length_cons, Nat.add_lt_add_iff_right]
      at h ⊢
    obtain ⟨h₁, h₂⟩ := ih h
    exact ⟨by rw [h₁], by rw [h₂]⟩
  | case6 c r hq hn hb ih =>
    simp only [List.cons_append, shortTail_cons hq hn hb, List.length_cons,
      Nat.add_lt_add_iff_right] at h ⊢
    obtain ⟨h₁, h₂⟩ := ih h
    exact ⟨by rw [h₁], by rw [h₂]⟩

/-- A long literal that runs over the end of `r` does so whatever follows `r`. -/
theorem longTail_of_lt_append {r y : List Char} (h : r.length < longTail (r ++ y)) :
    longTail r = r.length ∧ longTail (r ++ ['x']) = r.length + 1 := by
  fun_induction longTail r with
  | case1 => exact ⟨rfl, rfl⟩
  | case2 => exact ⟨rfl, rfl⟩
  | case3 d r ih =>
    simp only [List.cons_append, longTail_escape, List.length_cons, Nat.add_lt_add_iff_right]
      at h ⊢
    obtain ⟨h₁, h₂⟩ := ih h
    exact ⟨by rw [h₁], by rw [h₂]⟩
  | case4 c r _ ht =>
    have hle := three_le_length_of_startsTriple ht
    have h3 : longTail (c :: r ++ y) = 3 := longTail_triple (startsTriple_append ht y)
    omega
  | case5 c r hb ht ih =>
    have htx : ¬startsTriple (c :: (r ++ ['x'])) = true := fun hs =>
      ht (startsTriple_of_append_letter hs)
    rw [List.cons_append, longTail_cons hb htx, List.length_cons, Nat.add_left_inj,
      Nat.add_left_inj]
    -- the letter tells a literal that is still open from one that has just been closed
    by_cases hty : startsTriple (c :: (r ++ y)) = true
    · -- the closing quotes begin in `r` but end behind it
      rw [List.cons_append, longTail_triple hty, List.length_cons] at h
      match r with
      | [] => exact ⟨rfl, rfl⟩
      | [d] =>
        obtain rfl : d = '"' := by cases y <;> simp_all [startsTriple]
        exact ⟨rfl, rfl⟩
      | _ :: _ :: _ =>
        simp only [List.length_cons] at h
        omega
    · rw [List.cons_append, longTail_cons hb hty, List.length_cons, Nat.add_lt_add_iff_right] at h
      exact ih h

/-- Three quotes do not stand on two lines. -/
theorem two_le_length_of_lineFeed {r y : List Char} (hb : '\n' ∈ r ∨ y.head? = some '\n')
    (ht : startsTriple ('"' :: (r ++ y)) = true) : 2 ≤ r.length := by
  match r with
  | [] =>
    cases y with
    | nil => simp [startsTriple] at ht
    | cons e y => cases y <;> simp_all [startsTriple]
  | [d] =>
    cases y with
    | nil => simp [startsTriple] at ht
    | cons e y => simp_all [startsTriple]
  | _ :: _ :: _ => simp

/-- A run that goes on behind the end of a line opens a literal, whatever it goes on with. -/
theorem opening_of_lt_append {c : Char} {r y : List Char} {k : Inert} {n : Nat}
    (hb : '\n' ∈ r ∨ y.head? = some '\n') (h : opening c (r ++ y) = some (k, n))
    (hn : r.length < n) : k ≠ .comment ∧ opening c r = some (k, r.length)
      ∧ opening c (r ++ ['x']) = some (k, r.length + 1) := by
  rcases opening_eq_some h with
    ⟨rfl, rfl, rfl⟩ | ⟨rfl, ht, rfl, rfl⟩ | ⟨rfl, ht, rfl, rfl⟩ | ⟨rfl, rfl, hi⟩
  · -- a comment ends with its line
    have := commentTail_of_lineFeed hb
    omega
  · have hlen := two_le_length_of_lineFeed hb ht
    have ht' : startsTriple ('"' :: r) = true :=
      startsTriple_of_append (b := y) ht (by simpa using hlen)
    rw [List.drop_append_of_le_length hlen] at hn
    obtain ⟨h₁, h₂⟩ := longTail_of_lt_append (r := r.drop 2) (y := y)
      (by rw [List.length_drop]; omega)
    refine ⟨by simp, ?_, ?_⟩
    · rw [opening_triple ht', h₁, List.length_drop, Nat.sub_add_cancel hlen]
    · have htx : startsTriple ('"' :: (r ++ ['x'])) = true := startsTriple_append ht' ['x']
      rw [opening_triple htx, List.drop_append_of_le_length hlen, h₂, List.length_drop,
        show r.length - 2 + 1 + 2 = r.length + 1 by omega]
  · have ht' : ¬startsTriple ('"' :: r) = true := fun hs => ht (startsTriple_append hs y)
    have htx : ¬startsTriple ('"' :: (r ++ ['x'])) = true := fun hs =>
      ht' (startsTriple_of_append_letter hs)
    obtain ⟨h₁, h₂⟩ := shortTail_of_lt_append hn
    exact ⟨by simp, by rw [opening_quote ht', h₁], by rw [opening_quote htx, h₂]⟩
  · -- and so does what could have been an IRI
    have := iriTail?_of_lineFeed hb hi
    omega

/-! ### Runs in front of another text

A run that is closed is as long in front of any text.  One that ends with its line or with the text
is as long in front of a text that begins a line or is empty too. -/

theorem startsTriple_iff {text : List Char} :
    startsTriple text = true ↔ ∃ r, text = '"' :: '"' :: '"' :: r := by
  match text with
  | [] => simp [startsTriple]
  | [_] => simp [startsTriple]
  | [_, _] => simp [startsTriple]
  | _ :: _ :: _ :: _ => simp [startsTriple, and_assoc]

theorem head?_of_shortTail_eq_zero {l : List Char} (h : shortTail l = 0) (hl : l ≠ []) :
    l.head? = some '\n' := by
  fun_cases shortTail l with
  | case6 c r hq hn hb =>
    rw [shortTail_cons hq hn hb] at h
    omega
  | _ => simp_all

/-- A short literal that ends with `u` does so whatever follows, if the end of the text and the end
of the line stay where they are. -/
theorem shortTail_append_congr {u z y : List Char} (h : shortTail (u ++ z) = u.length)
    (hnil : z = [] → y = []) (hline : z.head? = some '\n' → y.head? = some '\n') :
    shortTail (u ++ y) = u.length := by
  fun_induction shortTail u with
  | case1 =>
    rcases Decidable.em (z = []) with hz | hz
    · simp [hnil hz]
    · obtain ⟨y, rfl⟩ := List.head?_eq_some_iff.mp (hline (head?_of_shortTail_eq_zero h hz))
      simp
  | case2 r =>
    obtain rfl : r = [] := by simpa using h
    simp
  | case3 r => simp at h
  | case4 =>
    rcases z with - | ⟨d, z⟩
    · simp [hnil rfl]
    · simp at h
  | case5 d r _ _ ih =>
    simp only [List.cons_append, shortTail_escape, List.length_cons, Nat.add_left_inj] at h ⊢
    rw [ih h]
  | case6 c r hq hn hb ih =>
    simp only [List.cons_append, shortTail_cons hq hn hb, List.length_cons, Nat.add_left_inj]
      at h ⊢
    exact ih h

/-- A long literal without closing quotes reaches to the end of the text. -/
theorem longTail_eq_length {l : List Char} (h : longTail l < 3) : longTail l = l.length := by
  fun_induction longTail l with
  | case1 => rfl
  | case2 => rfl
  | case3 d r ih => rw [ih (by omega)]; rfl
  | case4 c r hb ht => omega
  | case5 c r hb ht ih => rw [ih (by omega)]; rfl

/-- A long literal that is closed in `u` is as long in front of any text. -/
theorem longTail_append_of_closed {u z : List Char} (h : longTail (u ++ z) ≤ u.length)
    (hz : z ≠ []) (y : List Char) : longTail (u ++ y) = longTail u := by
  fun_induction longTail u with
  | case1 =>
    have := longTail_eq_length (l := z) (by simp at h; omega)
    simp_all
  | case2 =>
    obtain ⟨d, z, rfl⟩ := List.exists_cons_of_ne_nil hz
    simp at h
  | case3 d r ih =>
    simp only [List.cons_append, longTail_escape, List.length_cons] at h ⊢
    rw [ih (by omega)]
  | case4 c r _ ht => exact longTail_triple (startsTriple_append ht y)
  | case5 c r hb ht ih =>
    have htz : ¬startsTriple (c :: (r ++ z)) = true := by
      intro hs
      rw [List.cons_append, longTail_triple hs] at h
      exact ht (startsTriple_of_append hs h)
    rw [List.cons_append, longTail_cons hb htz, List.length_cons, Nat.add_le_add_iff_right] at h
    have hlen : 2 ≤ r.length := by
      apply Nat.le_of_not_lt
      intro hlen
      have heq := longTail_eq_length (l := r ++ z) (by omega)
      have := List.length_pos_iff.mpr hz
      rw [List.length_append] at heq
      omega
    have hty : ¬startsTriple (c :: (r ++ y)) = true := fun hs =>
      ht (startsTriple_of_append (b := y) hs (by simp only [List.length_cons]; omega))
    rw [List.cons_append, longTail_cons hb hty, ih h]

/-- A run other than a comment opens the same in front of a text that goes on in its place. -/
theorem opening_append_congr {c : Char} {u z y : List Char} {k : Inert}
    (h : opening c (u ++ z) = some (k, u.length)) (hk : k ≠ .comment) (hnil : z = [] → y = [])
    (hline : z.head? = some '\n' → y.head? = some '\n')
    (hquote : y.head? = some '"' → z.head? = some '"') :
    opening c (u ++ y) = some (k, u.length) := by
  rcases opening_eq_some h with
    ⟨-, rfl, -⟩ | ⟨rfl, ht, rfl, hn⟩ | ⟨rfl, ht, rfl, hn⟩ | ⟨rfl, rfl, hi⟩
  · exact absurd rfl hk
  · have hlen : 2 ≤ u.length := by omega
    have htu : startsTriple ('"' :: u) = true := startsTriple_of_append ht (by simpa using hlen)
    have ht' : startsTriple ('"' :: (u ++ y)) = true := startsTriple_append htu y
    rw [List.drop_append_of_le_length hlen] at hn
    rw [opening_triple ht', List.drop_append_of_le_length hlen]
    rcases Decidable.em (z = []) with hz | hz
    · rw [hnil hz, ← hz, ← hn]
    · -- the literal is closed, so nothing behind it counts
      have hd : (u.drop 2).length = u.length - 2 := List.length_drop
      rw [longTail_append_of_closed (z := z) (by omega) hz y,
        ← longTail_of_append (b := z) (by omega), ← hn]
  · have ht' : ¬startsTriple ('"' :: (u ++ y)) = true := by
      intro hs
      obtain ⟨r, hr⟩ := startsTriple_iff.mp hs
      -- a second and a third quote can stand in `u`, on the border or behind it
      match u with
      | [] =>
        obtain rfl : y = '"' :: '"' :: r := by simpa using hr
        obtain ⟨z, rfl⟩ := List.head?_eq_some_iff.mp (hquote rfl)
        simp at hn
      | [d] =>
        simp only [List.cons_append, List.nil_append, List.cons.injEq, true_and] at hr
        obtain ⟨rfl, rfl⟩ := hr
        obtain ⟨z, rfl⟩ := List.head?_eq_some_iff.mp (hquote rfl)
        exact ht (startsTriple_iff.mpr ⟨z, rfl⟩)
      | d :: e :: u =>
        simp only [List.cons_append, List.cons.injEq, true_and] at hr
        exact ht (startsTriple_iff.mpr ⟨u ++ z, by simp [hr.1, hr.2.1]⟩)
    rw [opening_quote ht', shortTail_append_congr hn.symm hnil hline]
  · have := iriTail?_append (iriTail?_of_append hi (Nat.le_refl _)) y
    rw [opening_angle, this, Option.map_some]

end FormOntology.Turtle
