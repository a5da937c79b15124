import FormOntology.Declaration.Block

/-!
# Blocks one by one

The blocks of a text can be taken one by one.  The anchors of the text are found first, so at every
step it is known how many blocks are still to come.

## Main definitions

* `BlockIterator`, `BlockIterator.ofText` — the blocks still to come, and those of a text.
* `BlockIterator.next?` — the next block, and what is left then.
* `BlockIterator.remaining` — the number of blocks still to come.
* `BlockIterator.Takes`, `BlockIterator.Yields` — the blocks taken on the way to another iterator,
  and all the blocks that an iterator gives.

## Main results

* `BlockIterator.Takes.coming_eq` — what was taken and what is still to come.
* `BlockIterator.yields_coming` — an iterator gives the blocks of the anchors that are left.
-/

namespace FormOntology

open Text Turtle

/-- The blocks of a text that are still to come. -/
structure BlockIterator where
  /-- The text. -/
  text : List Char
  /-- The text, marked. -/
  marks : List Mark
  /-- The anchors of the text. -/
  anchors : List Anchor
  /-- The number of anchors whose block was taken. -/
  next : Nat
  deriving DecidableEq, Repr, Inhabited

namespace BlockIterator

/-- All the blocks of a text. -/
def ofText (v : Vocabulary) (text : List Char) : BlockIterator :=
  ⟨text, mark text, liveAnchors v text, 0⟩

/-- The next block, and what is left then: the program's `Blocks::next`. -/
def next? (i : BlockIterator) : Option (Block × BlockIterator) :=
  (i.anchors[i.next]?).map fun a =>
    let limit := ((i.anchors[i.next + 1]?).map (·.span.start)).getD (size i.text)
    (blockAt i.text i.marks limit a, { i with next := i.next + 1 })

/-- The number of blocks that are still to come. -/
def remaining (i : BlockIterator) : Nat := i.anchors.length - i.next

/-! ### Runs of an iterator -/

/-- The blocks that are taken on the way from one iterator to another. -/
inductive Takes : BlockIterator → List Block → BlockIterator → Prop
  /-- Nothing is taken on the spot. -/
  | nil {i : BlockIterator} : Takes i [] i
  /-- One block more is taken. -/
  | cons {i j k : BlockIterator} {b : Block} {bs : List Block} (h : i.next? = some (b, j))
      (h' : Takes j bs k) : Takes i (b :: bs) k

/-- The blocks that an iterator gives before it gives none. -/
def Yields (i : BlockIterator) (bs : List Block) : Prop := ∃ j, Takes i bs j ∧ j.next? = none

/-- The blocks of the anchors that are left. -/
def coming (i : BlockIterator) : List Block := blocksAt i.text i.marks (i.anchors.drop i.next)

@[simp] theorem coming_ofText (v : Vocabulary) (text : List Char) :
    (ofText v text).coming = blocks v text := rfl

/-- As many blocks come as are said to be left. -/
theorem length_coming (i : BlockIterator) : i.coming.length = i.remaining := by
  rw [coming, length_blocksAt, List.length_drop, remaining]

theorem next?_eq_none_iff {i : BlockIterator} : i.next? = none ↔ i.coming = [] := by
  rw [← List.length_eq_zero_iff, length_coming, next?, Option.map_eq_none_iff,
    List.getElem?_eq_none_iff, remaining, Nat.sub_eq_zero_iff_le]

/-- What comes next is the first of what is still to come. -/
theorem coming_of_next? {i j : BlockIterator} {b : Block} (h : i.next? = some (b, j)) :
    i.coming = b :: j.coming := by
  obtain ⟨a, ha, heq⟩ := Option.map_eq_some_iff.mp h
  obtain ⟨rfl, rfl⟩ := Prod.mk.inj heq
  obtain ⟨hlt, rfl⟩ := List.getElem?_eq_some_iff.mp ha
  unfold coming
  rw [List.drop_eq_getElem_cons hlt]
  -- the limit is the next anchor, or else the end of the text
  cases hdrop : i.anchors.drop (i.next + 1) with
  | nil =>
    have hnone : i.anchors[i.next + 1]? = none := by
      rw [← List.head?_drop, hdrop]
      rfl
    rw [hnone]
    rfl
  | cons c as =>
    have hsome : i.anchors[i.next + 1]? = some c := by
      rw [← List.head?_drop, hdrop]
      rfl
    rw [hsome]
    rfl

/-- **What was taken and what is still to come** is what was to come at first. -/
theorem Takes.coming_eq {i j : BlockIterator} {bs : List Block} (h : Takes i bs j) :
    i.coming = bs ++ j.coming := by
  induction h with
  | nil => rfl
  | cons hnext _ ih => rw [coming_of_next? hnext, ih, List.cons_append]

/-- **An iterator gives the blocks of the anchors that are left.** -/
theorem yields_coming (i : BlockIterator) : Yields i i.coming := by
  induction h : i.coming generalizing i with
  | nil => exact ⟨i, .nil, next?_eq_none_iff.mpr h⟩
  | cons b bs ih =>
    obtain ⟨⟨b', j⟩, hnext⟩ : ∃ p, i.next? = some p := by
      rw [← Option.ne_none_iff_exists', Ne, next?_eq_none_iff, h]
      exact List.cons_ne_nil b bs
    obtain ⟨rfl, hj⟩ := List.cons.inj ((coming_of_next? hnext).symm.trans h)
    obtain ⟨k, htakes, hk⟩ := ih j hj
    exact ⟨k, .cons hnext htakes, hk⟩

end BlockIterator

end FormOntology
