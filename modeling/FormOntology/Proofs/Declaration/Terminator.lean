import FormOntology.Declaration.Block
import FormOntology.Proofs.Text.Offset
import FormOntology.Proofs.Turtle.Marks

/-!
# The end of a block

A block ends at the first full stop that stands alone, if that comes before the limit of the block.
Where the full stop is does not depend on the limit, and two texts with a line border between them
have the full stops that each has alone.

## Main definitions

* `fullStop?` — the offset behind the first full stop that stands alone.

## Main results

* `terminator?_eq_filter` — the search with a limit is the search without one, cut off.
* `fullStop?_append` — the first full stop of marked texts put together.
-/

namespace FormOntology

open Text Turtle

/-- The size of marked characters. -/
def markSize (ms : List Mark) : Nat := size (ms.map Mark.char)

@[simp] theorem markSize_nil : markSize [] = 0 := rfl

@[simp] theorem markSize_cons (m : Mark) (ms : List Mark) :
    markSize (m :: ms) = m.char.utf8Size + markSize ms := rfl

@[simp] theorem markSize_append (a b : List Mark) :
    markSize (a ++ b) = markSize a + markSize b := by
  simp [markSize]

@[simp] theorem markSize_mark (text : List Char) : markSize (mark text) = size text := by
  rw [markSize, map_char_mark]

/-! ### Full stops -/

/-- Whether a mark with these marks behind it is a full stop that stands alone. -/
def isFullStop (m : Mark) (r : List Mark) : Bool := m.char == '.' && !m.inert && startsBlank r

/-- The offset behind the first full stop that stands alone, in a marked text that begins at
`offset`. -/
def fullStop? : (offset : Nat) → List Mark → Option Nat
  | _, [] => none
  | offset, m :: r =>
    if isFullStop m r then some (offset + 1) else fullStop? (offset + m.char.utf8Size) r

@[simp] theorem fullStop?_nil (offset : Nat) : fullStop? offset [] = none := rfl

theorem fullStop?_of_isFullStop {m : Mark} {r : List Mark} (h : isFullStop m r = true)
    (offset : Nat) : fullStop? offset (m :: r) = some (offset + 1) := by
  rw [fullStop?, if_pos h]

theorem fullStop?_cons {m : Mark} {r : List Mark} (h : isFullStop m r = false) (offset : Nat) :
    fullStop? offset (m :: r) = fullStop? (offset + m.char.utf8Size) r := by
  rw [fullStop?, h]
  rfl

/-- A full stop is a plain character of the text, with a blank or nothing behind it. -/
theorem fullStop?_eq_some {offset s : Nat} {ms : List Mark} (h : fullStop? offset ms = some s) :
    ∃ a r, ms = a ++ ⟨'.', false⟩ :: r ∧ startsBlank r = true
      ∧ s = offset + markSize a + 1 := by
  induction ms generalizing offset with
  | nil => simp at h
  | cons m r ih =>
    cases hm : isFullStop m r with
    | true =>
      rw [fullStop?_of_isFullStop hm, Option.some.injEq] at h
      obtain ⟨c, inert⟩ := m
      simp only [isFullStop, Bool.and_eq_true, beq_iff_eq, Bool.not_eq_true'] at hm
      obtain ⟨⟨rfl, rfl⟩, hr⟩ := hm
      exact ⟨[], r, rfl, hr, h.symm⟩
    | false =>
      rw [fullStop?_cons hm] at h
      obtain ⟨a, r', rfl, hr, rfl⟩ := ih h
      exact ⟨m :: a, r', rfl, hr, by simp [Nat.add_assoc]⟩

theorem lt_of_fullStop? {offset s : Nat} {ms : List Mark} (h : fullStop? offset ms = some s) :
    offset < s ∧ s ≤ offset + markSize ms := by
  obtain ⟨a, r, rfl, -, rfl⟩ := fullStop?_eq_some h
  rw [markSize_append, markSize_cons, show Char.utf8Size '.' = 1 from rfl]
  omega

/-- The search with a limit is the search without one, cut off. -/
theorem terminator?_eq_filter (limit offset : Nat) (ms : List Mark) :
    terminator? limit offset ms = (fullStop? offset ms).filter (· ≤ limit) := by
  induction ms generalizing offset with
  | nil => rfl
  | cons m r ih =>
    have hstep : terminator? limit offset (m :: r) = if limit ≤ offset then none else
        if isFullStop m r then some (offset + 1)
        else terminator? limit (offset + m.char.utf8Size) r := rfl
    rw [hstep]
    split
    · next hle =>
      rw [eq_comm, Option.filter_eq_none_iff]
      intro s hs
      have := (lt_of_fullStop? hs).1
      simp only [decide_eq_true_eq]
      omega
    · next hlt =>
      cases hm : isFullStop m r with
      | true =>
        rw [fullStop?_of_isFullStop hm, if_pos rfl, Option.filter_some, if_pos]
        simp only [decide_eq_true_eq]
        omega
      | false =>
        rw [fullStop?_cons hm, ← ih, if_neg (by simp)]

/-- The first full stop of marked texts put together is that of the first, or else that of the
second. -/
theorem fullStop?_append {offset : Nat} {a b : List Mark}
    (h : a.getLast? = some ⟨'.', false⟩ → startsBlank b = true) :
    fullStop? offset (a ++ b)
      = (fullStop? offset a).or (fullStop? (offset + markSize a) b) := by
  induction a generalizing offset with
  | nil => simp
  | cons m r ih =>
    have hr : r.getLast? = some ⟨'.', false⟩ → startsBlank b = true := fun hl =>
      h (by rw [List.getLast?_cons, hl]; rfl)
    have hm : isFullStop m (r ++ b) = isFullStop m r := by
      cases r with
      | cons n r => rfl
      | nil =>
        obtain ⟨c, inert⟩ := m
        rw [Bool.eq_iff_iff]
        simp only [isFullStop, Bool.and_eq_true, beq_iff_eq, Bool.not_eq_true', List.nil_append]
        constructor
        · rintro ⟨hc, -⟩
          exact ⟨hc, rfl⟩
        · rintro ⟨⟨rfl, rfl⟩, -⟩
          exact ⟨⟨rfl, rfl⟩, h rfl⟩
    rw [List.cons_append, fullStop?, fullStop?, hm]
    split
    · rfl
    · rw [ih hr, markSize_cons, Nat.add_assoc]

/-- Where the full stop is depends on where the text stands. -/
theorem fullStop?_add (k offset : Nat) (ms : List Mark) :
    fullStop? (k + offset) ms = (fullStop? offset ms).map (k + ·) := by
  induction ms generalizing offset with
  | nil => rfl
  | cons m r ih =>
    rw [fullStop?, fullStop?, Nat.add_assoc, Nat.add_assoc, ih]
    split <;> rfl

/-! ### Marks of a part of a text -/

/-- The marks behind the first part of a text. -/
theorem dropMarks_append (a b : List Mark) (n : Nat) :
    dropMarks (markSize a + n) (a ++ b) = dropMarks n b := by
  induction a with
  | nil => simp
  | cons m r ih =>
    have hm := m.char.utf8Size_pos
    rw [markSize_cons, List.cons_append, dropMarks, if_neg (by omega),
      show m.char.utf8Size + markSize r + n - m.char.utf8Size = markSize r + n by omega, ih]

@[simp] theorem dropMarks_zero (ms : List Mark) : dropMarks 0 ms = ms := by
  cases ms <;> simp [dropMarks]

end FormOntology
