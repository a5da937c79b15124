import Mathlib.Data.Nat.Bitwise
import FormOntology.Pattern.Basic

/-!
# What patterns match

A pattern relates the positions of a text at which a match can begin to those at which it can end.
The relation follows the pattern and knows nothing of sets of positions; moving a whole set of
positions through the pattern gives exactly the ends of the matches that begin in the set.

## Main results

* `Pattern.testBit_advance` — **moving a set of positions gives the ends of all matches.**
* `Pattern.occursIn_iff` — a pattern occurs in a text exactly if some part of the text matches.
-/

namespace FormOntology

/-! ### Repetition -/

theorem repeated_add {R : Nat → Nat → Prop} {m n i j : Nat} :
    Repeated R (m + n) i j ↔ ∃ k, Repeated R m i k ∧ Repeated R n k j := by
  induction m generalizing i with
  | zero => simp [Repeated]
  | succ m ih =>
    rw [Nat.succ_add]
    simp only [Repeated, ih]
    constructor
    · rintro ⟨l, hl, k, hk, hj⟩
      exact ⟨k, ⟨l, hl, hk⟩, hj⟩
    · rintro ⟨k, ⟨l, hl, hk⟩, hj⟩
      exact ⟨l, hl, k, hk, hj⟩

theorem Repeated.le {R : Nat → Nat → Prop} (hR : ∀ {i j}, R i j → i ≤ j) {n i j : Nat}
    (h : Repeated R n i j) : i ≤ j := by
  induction n generalizing i with
  | zero => exact Nat.le_of_eq h
  | succ n ih =>
    obtain ⟨k, hk, hj⟩ := h
    exact Nat.le_trans (hR hk) (ih hj)

/-- Where every step stays or moves on, as many steps do as there are positions to pass. -/
theorem Repeated.shorten {R : Nat → Nat → Prop} (hR : ∀ {i j}, R i j → i ≤ j) {n i j : Nat}
    (h : Repeated R n i j) : ∃ m, m ≤ n ∧ m ≤ j - i ∧ Repeated R m i j := by
  induction n generalizing i with
  | zero => exact ⟨0, Nat.le_refl 0, Nat.zero_le _, h⟩
  | succ n ih =>
    obtain ⟨k, hk, hj⟩ := h
    obtain ⟨m, hmn, hmj, hm⟩ := ih hj
    rcases Nat.eq_or_lt_of_le (hR hk) with rfl | hlt
    · exact ⟨m, by omega, hmj, hm⟩
    · have hkj := hm.le hR
      exact ⟨m + 1, by omega, by omega, k, hk, hm⟩

/-! ### Matches -/

namespace Pattern

variable {text : List Char}

theorem Matches.le {p : Pattern} {i j : Nat} (h : p.Matches text i j) : i ≤ j := by
  induction p generalizing i j with
  | empty => exact Nat.le_of_eq h
  | one set => exact Nat.le_of_succ_le (Nat.le_of_eq h.1)
  | look l => exact Nat.le_of_eq h.1
  | cat p q ihp ihq =>
    obtain ⟨k, hp, hq⟩ := h
    exact Nat.le_trans (ihp hp) (ihq hq)
  | alt p q ihp ihq => exact h.elim ihp ihq
  | times least most p ih =>
    obtain ⟨n, -, hn⟩ := h
    exact hn.le ih

theorem Matches.le_length {p : Pattern} {i j : Nat} (h : p.Matches text i j)
    (hi : i ≤ text.length) : j ≤ text.length := by
  induction p generalizing i j with
  | empty => exact Nat.le_trans (Nat.le_of_eq (Eq.symm h)) hi
  | one set =>
    obtain ⟨rfl, c, hc, -⟩ := h
    exact (List.getElem?_eq_some_iff.mp hc).1
  | look l => exact Nat.le_trans (Nat.le_of_eq h.1.symm) hi
  | cat p q ihp ihq =>
    obtain ⟨k, hp, hq⟩ := h
    exact ihq hq (ihp hp hi)
  | alt p q ihp ihq => exact h.elim (ihp · hi) (ihq · hi)
  | times least most p ih =>
    obtain ⟨n, -, hn⟩ := h
    generalize least + n = count at hn
    induction count generalizing i with
    | zero => exact Nat.le_trans (Nat.le_of_eq (Eq.symm hn)) hi
    | succ n ihn =>
      obtain ⟨k, hk, hj⟩ := hn
      exact ihn (ih hk hi) hj

/-! ### Sets of positions -/

/-- Whether all members of a set are positions of a text. -/
def PositionsOf (text : List Char) (s : Nat) : Prop := ∀ i, s.testBit i = true → i ≤ text.length

theorem testBit_bit_zero (n : Nat) (b : Bool) :
    (2 * n + (if b then 1 else 0)).testBit 0 = b := by
  cases b <;> simp [Nat.testBit_zero]

theorem testBit_bit_succ (n i : Nat) (b : Bool) :
    (2 * n + (if b then 1 else 0)).testBit (i + 1) = n.testBit i := by
  have h : (2 * n + (if b then 1 else 0)) / 2 = n := by cases b <;> grind
  rw [Nat.testBit_succ, h]

theorem testBit_setBits (set : CharSet) (text : List Char) (i : Nat) :
    (setBits set text).testBit i = text[i]?.any set := by
  induction text generalizing i with
  | nil => simp [setBits]
  | cons c r ih =>
    rw [setBits]
    cases i with
    | zero => simpa using testBit_bit_zero (setBits set r) (set c)
    | succ i => rw [testBit_bit_succ _ _ (set c), ih, List.getElem?_cons_succ]

theorem testBit_lookBits (l : Look) (first : Option Char) (text : List Char) (i : Nat) :
    (lookBits l first text).testBit i = true
      ↔ i ≤ text.length ∧ l.holds (charBefore first text i) text[i]? = true := by
  induction text generalizing first i with
  | nil =>
    rw [lookBits]
    cases i with
    | zero => cases h : l.holds first none <;> simp [charBefore, h]
    | succ i => split <;> simp [Nat.testBit_succ]
  | cons c r ih =>
    rw [lookBits]
    cases i with
    | zero =>
      rw [testBit_bit_zero (lookBits l (some c) r) (l.holds first (some c))]
      simp [charBefore]
    | succ i =>
      rw [testBit_bit_succ, ih, List.getElem?_cons_succ, List.length_cons, Nat.succ_le_succ_iff]
      cases i <;> rfl

/-! ### Moving sets of positions -/

/-- A function on sets gives the positions that a relation reaches from a set. -/
def Moves (text : List Char) (R : Nat → Nat → Prop) (step : Nat → Nat) : Prop :=
  ∀ s, PositionsOf text s → ∀ j, (step s).testBit j = true ↔ ∃ i, s.testBit i = true ∧ R i j

/-- Stopping where a step changes nothing is no different from going on. -/
theorem iterate_succ (step : Nat → Nat) (n s : Nat) :
    iterate step (n + 1) s = iterate step n (step s) := by
  have fixed (h : step s = s) : ∀ m, iterate step m s = s := by
    intro m
    cases m with
    | zero => rfl
    | succ m => rw [iterate]; simp [h]
  rw [iterate]
  split
  · next h => rw [h, fixed h]
  · rfl

theorem reach_succ (step : Nat → Nat) (n s : Nat) :
    reach step (n + 1) s = reach step n (s ||| step s) := by
  have fixed (h : s ||| step s = s) : ∀ m, reach step m s = s := by
    intro m
    cases m with
    | zero => rfl
    | succ m => rw [reach]; simp [h]
  rw [reach]
  split
  · next h => rw [h, fixed h]
  · rfl

variable {R : Nat → Nat → Prop} {step : Nat → Nat}

theorem Moves.positionsOf (h : Moves text R step)
    (hR : ∀ {i j}, R i j → i ≤ text.length → j ≤ text.length) {s : Nat}
    (hs : PositionsOf text s) : PositionsOf text (step s) := by
  intro j hj
  obtain ⟨i, hi, hij⟩ := (h s hs j).mp hj
  exact hR hij (hs i hi)

theorem Moves.iterate (h : Moves text R step)
    (hR : ∀ {i j}, R i j → i ≤ text.length → j ≤ text.length) (n : Nat) :
    Moves text (Repeated R n) (Pattern.iterate step n) := by
  induction n with
  | zero => intro s _ j; simp [Pattern.iterate, Repeated]
  | succ n ih =>
    intro s hs j
    rw [iterate_succ, ih _ (h.positionsOf hR hs)]
    constructor
    · rintro ⟨k, hk, hj⟩
      obtain ⟨i, hi, hik⟩ := (h s hs k).mp hk
      exact ⟨i, hi, k, hik, hj⟩
    · rintro ⟨i, hi, k, hik, hj⟩
      exact ⟨k, (h s hs k).mpr ⟨i, hi, hik⟩, hj⟩

theorem Moves.reach (h : Moves text R step)
    (hR : ∀ {i j}, R i j → i ≤ text.length → j ≤ text.length) (n : Nat) :
    Moves text (fun i j => ∃ m ≤ n, Repeated R m i j) (Pattern.reach step n) := by
  induction n with
  | zero => intro s _ j; simp [Pattern.reach, Repeated]
  | succ n ih =>
    intro s hs j
    have hunion : PositionsOf text (s ||| step s) := by
      intro k hk
      rw [Nat.testBit_or, Bool.or_eq_true] at hk
      exact hk.elim (hs k) (h.positionsOf hR hs k)
    rw [reach_succ, ih _ hunion]
    constructor
    · rintro ⟨k, hk, m, hm, hj⟩
      rw [Nat.testBit_or, Bool.or_eq_true, h s hs] at hk
      rcases hk with hk | ⟨i, hi, hik⟩
      · exact ⟨k, hk, m, Nat.le_succ_of_le hm, hj⟩
      · exact ⟨i, hi, m + 1, Nat.succ_le_succ hm, k, hik, hj⟩
    · rintro ⟨i, hi, m, hm, hj⟩
      cases m with
      | zero => exact ⟨i, by simp [hi], 0, Nat.zero_le n, hj⟩
      | succ m =>
        obtain ⟨k, hik, hj⟩ := hj
        have hk := (h s hs k).mpr ⟨i, hi, hik⟩
        exact ⟨k, by simp [hk], m, Nat.le_of_succ_le_succ hm, hj⟩

theorem advance_times (text : List Char) (least : Nat) (most : Option Nat) (p : Pattern) (s : Nat) :
    (times least most p).advance text s
      = Pattern.reach (p.advance text)
        ((most.map fun m => min (m - least) text.length).getD text.length)
        (Pattern.iterate (p.advance text) least s) := by
  cases most <;> rfl

/-- **Moving a set of positions gives the ends of all matches that begin in the set.** -/
theorem testBit_advance (text : List Char) (p : Pattern) :
    Moves text (p.Matches text) (p.advance text) := by
  induction p with
  | empty => intro s _ j; simp [advance, Matches]
  | one set =>
    intro s _ j
    rw [advance, Nat.testBit_shiftLeft, Bool.and_eq_true, Nat.testBit_and, Bool.and_eq_true,
      testBit_setBits, Option.any_eq_true_iff_get]
    constructor
    · rintro ⟨hj, hs, hc, hset⟩
      have hj : 1 ≤ j := of_decide_eq_true hj
      exact ⟨j - 1, hs, by omega, _, (Option.some_get hc).symm, hset⟩
    · rintro ⟨i, hs, rfl, c, hc, hset⟩
      simp [hs, hc, hset]
  | look l =>
    intro s hs j
    rw [advance, Nat.testBit_and, Bool.and_eq_true, testBit_lookBits]
    constructor
    · rintro ⟨hj, -, hl⟩
      exact ⟨j, hj, rfl, hl⟩
    · rintro ⟨i, hi, rfl, hl⟩
      exact ⟨hi, hs i hi, hl⟩
  | cat p q ihp ihq =>
    intro s hs j
    rw [advance, ihq _ (ihp.positionsOf Matches.le_length hs)]
    constructor
    · rintro ⟨k, hk, hj⟩
      obtain ⟨i, hi, hik⟩ := (ihp s hs k).mp hk
      exact ⟨i, hi, k, hik, hj⟩
    · rintro ⟨i, hi, k, hik, hj⟩
      exact ⟨k, (ihp s hs k).mpr ⟨i, hi, hik⟩, hj⟩
  | alt p q ihp ihq =>
    intro s hs j
    rw [advance, Nat.testBit_or, Bool.or_eq_true, ihp s hs, ihq s hs, ← exists_or]
    simp only [Matches, and_or_left]
  | times least most p ih =>
    intro s hs j
    have hfirst := ih.iterate Matches.le_length least
    have hpos : PositionsOf text (iterate (p.advance text) least s) :=
      hfirst.positionsOf (fun {i j} h hi => by
        have : (times least (some least) p).Matches text i j := ⟨0, by simp, h⟩
        exact this.le_length hi) hs
    rw [advance_times, (ih.reach Matches.le_length _) _ hpos]
    constructor
    · rintro ⟨k, hk, n, hn, hj⟩
      obtain ⟨i, hi, hik⟩ := (hfirst s hs k).mp hk
      refine ⟨i, hi, n, ?_, repeated_add.mpr ⟨k, hik, hj⟩⟩
      rintro m rfl
      exact Nat.le_trans hn (Nat.min_le_left _ _)
    · rintro ⟨i, hi, n, hn, h⟩
      obtain ⟨k, hik, hj⟩ := repeated_add.mp h
      have hk := (hfirst s hs k).mpr ⟨i, hi, hik⟩
      -- no more steps are needed than the text has characters
      obtain ⟨n', hn', hlen, hj⟩ := hj.shorten Matches.le
      have hkj : j ≤ text.length := by
        have : (times 0 none p).Matches text k j := ⟨n', by simp, by rwa [Nat.zero_add]⟩
        exact this.le_length (hpos k hk)
      refine ⟨k, hk, n', ?_, hj⟩
      cases most with
      | none => exact Nat.le_trans hlen (Nat.le_trans (Nat.sub_le j k) hkj)
      | some m =>
        have := hn m rfl
        exact Nat.le_min.mpr ⟨by omega, by omega⟩

/-- **A pattern occurs in a text exactly if some part of the text matches.** -/
theorem occursIn_iff {p : Pattern} :
    p.occursIn text = true ↔ ∃ i j, i ≤ text.length ∧ p.Matches text i j := by
  have hall (i : Nat) : (allBits text).testBit i = true ↔ i ≤ text.length := by
    have : allBits text = 2 ^ (text.length + 1) - 1 := rfl
    rw [this, Nat.testBit_two_pow_sub_one, decide_eq_true_iff, Nat.lt_succ_iff]
  have hmoves := testBit_advance text p (allBits text) fun i => (hall i).mp
  rw [occursIn, bne_iff_ne]
  constructor
  · intro h
    obtain ⟨j, hj⟩ := Nat.exists_testBit_of_ne_zero h
    obtain ⟨i, hi, hij⟩ := (hmoves j).mp hj
    exact ⟨i, j, (hall i).mp hi, hij⟩
  · rintro ⟨i, j, hi, hij⟩ h
    have := (hmoves j).mpr ⟨i, (hall i).mpr hi, hij⟩
    simp [h] at this

end Pattern

end FormOntology
