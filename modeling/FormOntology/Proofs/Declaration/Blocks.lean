import FormOntology.Proofs.Declaration.Anchors
import FormOntology.Proofs.Declaration.Terminator

/-!
# Blocks

A block is settled by its anchor, by the first full stop behind the anchor and by the limit, which
is where the next anchor stands.  The anchors in front of it do not count.

## Main definitions

* `blockEnd` — where a block ends, and how.
* `limitOf` — the limit of a block, from the anchors behind its own.

## Main results

* `blockAt_eq` — a block by its anchor, its first full stop and its limit.
* `mem_blocksAt_iff` — the blocks of anchors, one for each.
-/

namespace FormOntology

open Text Turtle

/-! ### One block -/

/-- Where a block ends and how, in a text of size `total`, if the first full stop behind its anchor
ends at `stop?`. -/
def blockEnd (total limit : Nat) (stop? : Option Nat) : Nat × Termination :=
  match stop?.filter (· ≤ limit) with
  | some stop => (stop, .terminated)
  | none => (limit, if limit < total then .truncatedAtNextAnchor else .unterminatedAtEnd)

theorem blockEnd_of_le {total limit stop : Nat} (h : stop ≤ limit) :
    blockEnd total limit (some stop) = (stop, .terminated) := by
  rw [blockEnd, Option.filter_some, if_pos (by simpa using h)]

theorem blockEnd_of_forall_lt {total limit : Nat} {stop? : Option Nat}
    (h : ∀ stop, stop? = some stop → limit < stop) : blockEnd total limit stop?
      = (limit, if limit < total then .truncatedAtNextAnchor else .unterminatedAtEnd) := by
  have hnone : stop?.filter (· ≤ limit) = none := by
    rw [Option.filter_eq_none_iff]
    intro stop hstop
    have := h stop hstop
    simp only [decide_eq_true_eq]
    omega
  rw [blockEnd, hnone]

theorem blockEnd_truncated {total limit : Nat} {stop? : Option Nat} (hlimit : limit < total)
    (h : ∀ stop, stop? = some stop → limit < stop) :
    blockEnd total limit stop? = (limit, .truncatedAtNextAnchor) := by
  rw [blockEnd_of_forall_lt h, if_pos hlimit]

/-- A block ends at a full stop that does not stand behind its limit, or there is none and it ends
at its limit. -/
theorem blockEnd_cases (total limit : Nat) (stop? : Option Nat) :
    (∃ stop, stop? = some stop ∧ stop ≤ limit
        ∧ blockEnd total limit stop? = (stop, .terminated))
      ∨ ((∀ stop, stop? = some stop → limit < stop) ∧ blockEnd total limit stop?
        = (limit, if limit < total then .truncatedAtNextAnchor else .unterminatedAtEnd)) := by
  cases stop? with
  | none => exact .inr ⟨by simp, blockEnd_of_forall_lt (by simp)⟩
  | some stop =>
    by_cases h : stop ≤ limit
    · exact .inl ⟨stop, rfl, h, blockEnd_of_le h⟩
    · have hlt : ∀ s, some stop = some s → limit < s := by
        rintro s ⟨⟩
        omega
      exact .inr ⟨hlt, blockEnd_of_forall_lt hlt⟩

/-- The first full stop behind an anchor. -/
def Anchor.fullStop? (a : Anchor) (marks : List Mark) : Option Nat :=
  FormOntology.fullStop? a.span.stop (dropMarks a.span.stop marks)

/-- **A block by its anchor, its first full stop and its limit.** -/
theorem blockAt_eq (text : List Char) (marks : List Mark) (limit : Nat) (a : Anchor) :
    blockAt text marks limit a =
      { qualifier := String.ofList a.header.qualifier
        identifier := String.ofList a.header.identifier
        text := trimEnd (takeBytes
          ((blockEnd (size text) limit (a.fullStop? marks)).1 - a.span.start)
          (dropBytes a.span.start text))
        span := ⟨a.span.start, (blockEnd (size text) limit (a.fullStop? marks)).1⟩
        termination := (blockEnd (size text) limit (a.fullStop? marks)).2 } := by
  have heq := terminator?_eq_filter limit a.span.stop (dropMarks a.span.stop marks)
  cases h : (FormOntology.fullStop? a.span.stop
      (dropMarks a.span.stop marks)).filter (· ≤ limit) <;>
    simp only [blockAt, heq, blockEnd, Anchor.fullStop?, h]

theorem span_blockAt (text : List Char) (marks : List Mark) (limit : Nat) (a : Anchor) :
    (blockAt text marks limit a).span
      = ⟨a.span.start, (blockEnd (size text) limit (a.fullStop? marks)).1⟩ := by
  rw [blockAt_eq]

theorem termination_blockAt (text : List Char) (marks : List Mark) (limit : Nat) (a : Anchor) :
    (blockAt text marks limit a).termination
      = (blockEnd (size text) limit (a.fullStop? marks)).2 := by
  rw [blockAt_eq]

/-! ### The blocks of anchors -/

/-- The limit of a block in a text of size `total`, from the anchors behind its own. -/
def limitOf (total : Nat) : List Anchor → Nat
  | [] => total
  | b :: _ => b.span.start

theorem blocksAt_cons (text : List Char) (marks : List Mark) (a : Anchor) (as : List Anchor) :
    blocksAt text marks (a :: as)
      = blockAt text marks (limitOf (size text) as) a :: blocksAt text marks as := by
  cases as <;> rfl

/-- There is one block for each anchor. -/
theorem mem_blocksAt_iff {text : List Char} {marks : List Mark} {as : List Anchor} {b : Block} :
    b ∈ blocksAt text marks as
      ↔ ∃ before a behind, as = before ++ a :: behind
        ∧ b = blockAt text marks (limitOf (size text) behind) a := by
  induction as with
  | nil => simp [blocksAt]
  | cons a as ih =>
    rw [blocksAt_cons, List.mem_cons, ih]
    constructor
    · rintro (rfl | ⟨before, a', behind, rfl, rfl⟩)
      · exact ⟨[], a, as, rfl, rfl⟩
      · exact ⟨a :: before, a', behind, rfl, rfl⟩
    · rintro ⟨before, a', behind, has, rfl⟩
      cases before with
      | nil =>
        simp only [List.nil_append, List.cons.injEq] at has
        obtain ⟨rfl, rfl⟩ := has
        exact .inl rfl
      | cons a'' before =>
        simp only [List.cons_append, List.cons.injEq] at has
        exact .inr ⟨before, a', behind, has.2, rfl⟩

/-! ### Anchors and limits -/

theorem mem_anchors_of_mem_liveAnchors {v : Vocabulary} {text : List Char} {a : Anchor}
    (h : a ∈ liveAnchors v text) : a ∈ anchors v text :=
  (List.mem_filter.mp h).1

/-- An anchor has a header, and it does not go over the end of the text. -/
theorem span_of_mem_liveAnchors {v : Vocabulary} {text : List Char} {a : Anchor}
    (h : a ∈ liveAnchors v text) :
    a.span.start < a.span.stop ∧ a.span.stop ≤ size text := by
  obtain ⟨x, f, rest, hat, rfl⟩ := headerAt_of_mem_anchors (mem_anchors_of_mem_liveAnchors h)
  refine ⟨Nat.lt_add_of_pos_right (size_pos f.text_ne_nil), ?_⟩
  rw [hat.text_eq, size_append, size_append]
  simp only
  omega

section Order

variable {v : Vocabulary} {text : List Char} {before behind : List Anchor} {a : Anchor}
  (h : liveAnchors v text = before ++ a :: behind)
include h

/-- Anchors come one behind the other. -/
theorem liveAnchors_order : (∀ b ∈ before, b.span.stop ≤ a.span.start)
    ∧ ∀ b ∈ behind, a.span.stop ≤ b.span.start := by
  have hpair : (liveAnchors v text).Pairwise fun a b => a.span.stop ≤ b.span.start :=
    (pairwise_anchorsFrom v 0 true text).filter _
  rw [h, List.pairwise_append, List.pairwise_cons] at hpair
  exact ⟨fun b hb => hpair.2.2 b hb a (List.mem_cons_self ..), hpair.2.1.1⟩

/-- The limit of a block lies between its header and the end of the text. -/
theorem limitOf_bounds :
    a.span.stop ≤ limitOf (size text) behind ∧ limitOf (size text) behind ≤ size text := by
  cases behind with
  | nil =>
    have hmem : a ∈ liveAnchors v text := h ▸ by simp
    have ha := span_of_mem_liveAnchors hmem
    exact ⟨ha.2, Nat.le_refl _⟩
  | cons b behind =>
    have hmem : b ∈ liveAnchors v text := h ▸ by simp
    have hb := span_of_mem_liveAnchors hmem
    exact ⟨(liveAnchors_order h).2 b (List.mem_cons_self ..), by simp only [limitOf]; omega⟩

/-- A block reaches over its header and not over its limit. -/
theorem blockEnd_bounds :
    a.span.stop ≤ (blockEnd (size text) (limitOf (size text) behind) (a.fullStop? (mark text))).1
      ∧ (blockEnd (size text) (limitOf (size text) behind) (a.fullStop? (mark text))).1
        ≤ limitOf (size text) behind := by
  rcases blockEnd_cases (size text) (limitOf (size text) behind) (a.fullStop? (mark text)) with
    ⟨s, hs, hle, heq⟩ | ⟨-, heq⟩
  · rw [heq]
    exact ⟨Nat.le_of_lt (lt_of_fullStop? hs).1, hle⟩
  · rw [heq]
    exact ⟨(limitOf_bounds h).1, Nat.le_refl _⟩

end Order

/-- A block is not empty and does not go over the end of the text. -/
theorem span_of_mem_blocks {v : Vocabulary} {text : List Char} {b : Block}
    (hb : b ∈ blocks v text) : b.span.start < b.span.stop ∧ b.span.stop ≤ size text := by
  obtain ⟨before, a, behind, ha, rfl⟩ := mem_blocksAt_iff.mp hb
  have hmem : a ∈ liveAnchors v text := ha ▸ by simp
  have hspan := span_of_mem_liveAnchors hmem
  have hend := blockEnd_bounds ha
  have hlimit := limitOf_bounds ha
  rw [span_blockAt]
  constructor <;> simp only <;> omega

end FormOntology
