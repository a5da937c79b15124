/-!
# Ordered spans

A span is a half-open range of numbers: byte offsets of a text, or code points.  Spans are *ordered*
when none is upside down and each begins at or behind the end of the one before it; whether a number
lies in one of them is found by binary search.

A set of code points is written as hexadecimal numbers and ranges of them, in order and with a blank
between two, as in `41-5A 5F 61-7A`.

## Main definitions

* `Span`, `Span.Contains` — the numbers from `start` to in front of `stop`.
* `Spans.firstBehind` — the index of the first span that ends behind a number.
* `Spans.contains` — membership in ordered spans.
* `OrderedSpans` — spans in order.
* `Unicode.parseTable` — the spans of a written set.

## Main results

* `OrderedSpans.contains_iff` — **binary search in ordered spans finds whether one contains a
  number.**
-/

namespace FormOntology

/-- The numbers from `start` to in front of `stop`. -/
structure Span where
  /-- The first number. -/
  start : Nat
  /-- The number behind the last one. -/
  stop : Nat
  deriving DecidableEq, Repr, Inhabited

/-- Whether a number lies in a span. -/
def Span.Contains (s : Span) (n : Nat) : Prop := s.start ≤ n ∧ n < s.stop

instance (s : Span) (n : Nat) : Decidable (s.Contains n) := inferInstanceAs (Decidable (_ ∧ _))

namespace Spans

/-- The first index from `lo` on of a span that ends behind `n`, or `hi` if there is none in front
of `hi`. -/
def firstBehind (spans : Array Span) (n lo hi : Nat) : Nat :=
  if lo < hi then
    let mid := (lo + hi) / 2
    if (spans[mid]?).any (·.stop ≤ n) then firstBehind spans n (mid + 1) hi
    else firstBehind spans n lo mid
  else lo
termination_by hi - lo

/-- Whether `n` lies in one of the spans, if they are ordered: the program's
`InertRanges::contains`. -/
def contains (spans : Array Span) (n : Nat) : Bool :=
  (spans[firstBehind spans n 0 spans.size]?).any fun s => s.Contains n

/-- Binary search ends between the spans that end at or in front of `n` and the others. -/
theorem firstBehind_spec (spans : Array Span) (n lo hi : Nat) (hsize : hi ≤ spans.size)
    (hle : lo ≤ hi)
    (hmono : ∀ i j (hi : i < spans.size) (hj : j < spans.size), i ≤ j →
      spans[j].stop ≤ n → spans[i].stop ≤ n)
    (hleft : ∀ i (h : i < spans.size), i < lo → spans[i].stop ≤ n)
    (hright : ∀ i (h : i < spans.size), hi ≤ i → n < spans[i].stop) :
    (∀ i (h : i < spans.size), i < firstBehind spans n lo hi → spans[i].stop ≤ n)
      ∧ ∀ i (h : i < spans.size), firstBehind spans n lo hi ≤ i → n < spans[i].stop := by
  fun_induction firstBehind spans n lo hi with
  | case1 lo hi hlt mid hmid ih =>
    have hm : mid < spans.size := by omega
    rw [Array.getElem?_eq_getElem hm, Option.any_some, decide_eq_true_eq] at hmid
    exact ih hsize (by omega) (fun i h hi => hmono i mid h hm (by omega) hmid) hright
  | case2 lo hi hlt mid hmid ih =>
    have hm : mid < spans.size := by omega
    rw [Array.getElem?_eq_getElem hm, Option.any_some, decide_eq_true_eq] at hmid
    exact ih (by omega) (by omega) hleft fun i h hi =>
      Nat.lt_of_not_le fun hs => hmid (hmono mid i hm h hi hs)
  | case3 lo hi hge =>
    obtain rfl : lo = hi := by omega
    exact ⟨hleft, hright⟩

end Spans

/-- Spans in order. -/
structure OrderedSpans where
  /-- The spans. -/
  list : List Span
  /-- None is upside down. -/
  start_le_stop : ∀ s ∈ list, s.start ≤ s.stop
  /-- Each begins at or behind the end of every one before it. -/
  pairwise : list.Pairwise fun s t => s.stop ≤ t.start

namespace OrderedSpans

/-- **Binary search in ordered spans finds whether one of them contains a number.** -/
theorem contains_iff (o : OrderedSpans) (n : Nat) :
    Spans.contains o.list.toArray n = true ↔ ∃ s ∈ o.list, s.Contains n := by
  obtain ⟨l, hle, hpairwise⟩ := o
  dsimp only
  -- which spans end in front of `n` is decided by the order of the spans
  have hmono : ∀ i j (hi : i < l.toArray.size) (hj : j < l.toArray.size), i ≤ j →
      l.toArray[j].stop ≤ n → l.toArray[i].stop ≤ n := by
    intro i j hi hj hij hs
    rcases Nat.eq_or_lt_of_le hij with rfl | hlt
    · exact hs
    · simp only [List.size_toArray, List.getElem_toArray] at hi hj hs ⊢
      have h₁ := List.pairwise_iff_getElem.mp hpairwise i j hi hj hlt
      have h₂ := hle l[j] (List.getElem_mem hj)
      omega
  obtain ⟨hleft, hright⟩ := Spans.firstBehind_spec l.toArray n 0 l.toArray.size (Nat.le_refl _)
    (Nat.zero_le _) hmono (fun i _ hi => absurd hi (Nat.not_lt_zero i))
    (fun i hi hle => absurd hi (Nat.not_lt_of_le hle))
  simp only [List.size_toArray, List.getElem_toArray] at hleft hright
  unfold Spans.contains
  rw [Option.any_eq_true]
  simp only [decide_eq_true_eq, List.size_toArray, List.getElem?_toArray]
  constructor
  · rintro ⟨s, hs, hn⟩
    exact ⟨s, List.mem_of_getElem? hs, hn⟩
  · rintro ⟨s, hs, hn⟩
    obtain ⟨i, hi, rfl⟩ := List.getElem_of_mem hs
    -- the span that contains `n` is the first one that ends behind `n`
    have hle : Spans.firstBehind l.toArray n 0 l.length ≤ i := by
      apply Nat.le_of_not_lt
      intro hlt
      have := hleft i hi hlt
      have := hn.2
      omega
    rcases Nat.eq_or_lt_of_le hle with he | hlt
    · exact ⟨l[i], by rw [he, List.getElem?_eq_getElem hi], hn⟩
    · have hf : Spans.firstBehind l.toArray n 0 l.length < l.length := by omega
      have h₁ := hright _ hf (Nat.le_refl _)
      have h₂ := List.pairwise_iff_getElem.mp hpairwise _ i hf hi hlt
      have := hn.1
      omega

end OrderedSpans

/-! ### Written sets -/

namespace Unicode

/-- The value of a hexadecimal digit; anything but a digit or an upper-case letter counts as
zero. -/
def hexDigit (c : Char) : Nat :=
  if c.isDigit then c.toNat - 48 else if c.isUpper then c.toNat - 55 else 0

/-- The value of hexadecimal digits. -/
def hexNumber (digits : List Char) : Nat := digits.foldl (fun n c => 16 * n + hexDigit c) 0

/-- The span of a number or of a range of numbers. -/
def parseSpan (text : List Char) : Span :=
  match text.splitOn '-' with
  | a :: b :: _ => ⟨hexNumber a, hexNumber b + 1⟩
  | _ => ⟨hexNumber text, hexNumber text + 1⟩

/-- The spans of a written set, line by line. -/
def parseTable (lines : List String) : Array Span :=
  (lines.flatMap fun line => (line.toList.splitOn ' ').map parseSpan).toArray

end Unicode

end FormOntology
