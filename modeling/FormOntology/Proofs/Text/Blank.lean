import Mathlib.Data.List.TakeWhile
import FormOntology.Text.Blank

/-!
# Trimmed texts

A text is trimmed when it neither begins nor ends with a blank.  What trimming gives is trimmed, so
trimming twice is trimming once.

## Main results

* `trim_trim` — trimming is idempotent.
* `isBlankString_eq_false_of_trim` — a trimmed text that is not empty is not blank.
* `trimEnd_prefix` — what trimming takes away is blank.
* `trim_append_of_blank` — blanks around a text make no difference.
-/

namespace FormOntology.Text

/-- A text without a blank at its start. -/
theorem trimStart_eq_self_iff {text : List Char} :
    trimStart text = text ↔ ∀ c, text.head? = some c → isBlank c = false := by
  cases text with
  | nil => simp
  | cons c r =>
    rw [trimStart_cons]
    constructor
    · intro h d hd
      obtain rfl : c = d := by simpa using hd
      by_contra hb
      rw [Bool.not_eq_false] at hb
      rw [if_pos hb] at h
      -- what is left of a blank and `r` is no longer than `r`
      have hlen : (trimStart r).length ≤ r.length := (List.dropWhile_sublist _).length_le
      rw [h, List.length_cons] at hlen
      omega
    · intro h
      rw [h c rfl]
      rfl

theorem trimStart_head {text : List Char} {c : Char} (h : (trimStart text).head? = some c) :
    isBlank c = false := by
  induction text with
  | nil => simp at h
  | cons d r ih =>
    rw [trimStart_cons] at h
    by_cases hb : isBlank d = true
    · rw [if_pos hb] at h
      exact ih h
    · rw [if_neg hb] at h
      obtain rfl : d = c := by simpa using h
      simpa using hb

@[simp] theorem trimStart_trimStart (text : List Char) :
    trimStart (trimStart text) = trimStart text :=
  trimStart_eq_self_iff.mpr fun _ => trimStart_head

@[simp] theorem trimEnd_trimEnd (text : List Char) : trimEnd (trimEnd text) = trimEnd text := by
  simp [trimEnd]

/-- Blanks are all that is trimmed. -/
theorem trimEnd_prefix (text : List Char) :
    ∃ blanks, text = trimEnd text ++ blanks ∧ ∀ c ∈ blanks, isBlank c = true := by
  refine ⟨(text.reverse.takeWhile isBlank).reverse, ?_, ?_⟩
  · rw [trimEnd, trimStart, ← List.reverse_append, List.takeWhile_append_dropWhile,
      List.reverse_reverse]
  · intro c hc
    exact List.all_eq_true.mp List.all_takeWhile c (List.mem_reverse.mp hc)

/-- A text that does not end in a blank is left as it is at its end. -/
theorem trimEnd_concat {c : Char} (hc : isBlank c = false) (text : List Char) :
    trimEnd (text ++ [c]) = text ++ [c] := by
  have hstart : trimStart (c :: text.reverse) = c :: text.reverse := by
    rw [trimStart_cons, hc, if_neg Bool.false_ne_true]
  rw [trimEnd, List.reverse_concat, hstart, ← List.reverse_concat, List.reverse_reverse]

theorem trimStart_of_blank {text : List Char} (h : ∀ c ∈ text, isBlank c = true) :
    trimStart text = [] :=
  List.dropWhile_eq_nil_iff.mpr h

/-- Trimming the end does not uncover a blank at the start. -/
theorem trimStart_trimEnd_of_trimStart {text : List Char} (h : trimStart text = text) :
    trimStart (trimEnd text) = trimEnd text := by
  rw [trimStart_eq_self_iff] at h ⊢
  intro c hc
  obtain ⟨blanks, ht, -⟩ := trimEnd_prefix text
  apply h c
  rw [ht, List.head?_append, hc, Option.some_or]

/-! ### Blanks around a text -/

theorem trimStart_append_of_blank {blanks : List Char} (h : ∀ c ∈ blanks, isBlank c = true)
    (text : List Char) : trimStart (blanks ++ text) = trimStart text :=
  List.dropWhile_append_of_pos h

theorem trimEnd_append_of_blank {blanks : List Char} (h : ∀ c ∈ blanks, isBlank c = true)
    (text : List Char) : trimEnd (text ++ blanks) = trimEnd text := by
  have hreverse : ∀ c ∈ blanks.reverse, isBlank c = true := fun c hc =>
    h c (List.mem_reverse.mp hc)
  rw [trimEnd, List.reverse_append, trimStart_append_of_blank hreverse, trimEnd]

/-- Blanks around a text are trimmed. -/
theorem trim_append_of_blank {front back : List Char} (hf : ∀ c ∈ front, isBlank c = true)
    (hb : ∀ c ∈ back, isBlank c = true) (text : List Char) :
    trim (front ++ (text ++ back)) = trim text := by
  rw [trim, trimStart_append_of_blank hf, trim, trimStart, List.dropWhile_append]
  split
  · next hblank =>
    have hnil : List.dropWhile isBlank back = [] := trimStart_of_blank hb
    rw [trimStart, List.isEmpty_iff.mp hblank, hnil]
  · exact trimEnd_append_of_blank hb _

theorem trim_eq_self {text : List Char} (h : ∀ c ∈ text, isBlank c = false) :
    trim text = text := by
  have hstart : ∀ t : List Char, (∀ c ∈ t, isBlank c = false) → trimStart t = t := by
    intro t ht
    exact trimStart_eq_self_iff.mpr fun c hc => ht c (List.mem_of_mem_head? hc)
  rw [trim, hstart text h, trimEnd, hstart _ (fun c hc => h c (List.mem_reverse.mp hc)),
    List.reverse_reverse]

/-! ### What trimming gives -/

/-- **Trimming is idempotent.** -/
@[simp] theorem trim_trim (text : List Char) : trim (trim text) = trim text := by
  have h : trimStart (trim text) = trim text :=
    trimStart_trimEnd_of_trimStart (trimStart_trimStart text)
  rw [trim, h, trim, trimEnd_trimEnd]

/-- A trimmed text that is not empty is not blank. -/
theorem isBlankString_eq_false_of_trim {s : String} (h : trim s.toList = s.toList)
    (hne : s.toList ≠ []) : isBlankString s = false := by
  have hstart : trimStart s.toList = s.toList := by
    rw [← h]
    exact trimStart_trimEnd_of_trimStart (trimStart_trimStart _)
  obtain ⟨c, r, hcr⟩ := List.exists_cons_of_ne_nil hne
  have hc := trimStart_eq_self_iff.mp hstart c (by rw [hcr]; rfl)
  rw [isBlankString, hcr, List.all_cons, hc, Bool.false_and]

end FormOntology.Text
