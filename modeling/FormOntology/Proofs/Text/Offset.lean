import FormOntology.Text.Offset

/-!
# Offsets in texts put together

## Main results

* `size_pos` — only the empty text has no bytes.
* `dropBytes_append`, `takeBytes_append_of_le` — cutting a text that stands behind or in front of
  another one.
* `append_inj_of_size`, `exists_append_of_size_le` — where a text is cut is told by an offset.
* `append_eq_append_cons` — an entry of two lists put together is one of the first or of the second.
-/

namespace FormOntology.Text

theorem size_pos {x : List Char} (h : x ≠ []) : 0 < size x := by
  obtain ⟨c, x, rfl⟩ := List.exists_cons_of_ne_nil h
  have := c.utf8Size_pos
  rw [size_cons]
  omega

/-- What is dropped behind `x` is dropped from what follows `x`. -/
theorem dropBytes_append (x y : List Char) (n : Nat) :
    dropBytes (size x + n) (x ++ y) = dropBytes n y := by
  induction x with
  | nil => simp
  | cons c r ih =>
    have hc := c.utf8Size_pos
    rw [size_cons, List.cons_append, dropBytes, if_neg (by omega),
      show c.utf8Size + size r + n - c.utf8Size = size r + n by omega, ih]

/-- What is taken inside `x` is taken from `x`. -/
theorem takeBytes_append_of_le {x : List Char} {n : Nat} (h : n ≤ size x) (y : List Char) :
    takeBytes n (x ++ y) = takeBytes n x := by
  induction x generalizing n with
  | nil =>
    obtain rfl : n = 0 := by simpa using h
    cases y <;> simp [takeBytes]
  | cons c r ih =>
    rw [size_cons] at h
    rw [List.cons_append, takeBytes, takeBytes, ih (by omega)]

/-- A text is cut at one place at most for every offset. -/
theorem append_inj_of_size {a b c d : List Char} (h : a ++ b = c ++ d) (hsize : size a = size c) :
    a = c ∧ b = d := by
  obtain rfl : a = c := by
    rw [← takeBytes_size_append a b, h, hsize, takeBytes_size_append]
  exact ⟨rfl, List.append_cancel_left h⟩

/-- A text that is cut twice has a piece between the cuts. -/
theorem exists_append_of_size_le {a b c d : List Char} (h : a ++ b = c ++ d)
    (hsize : size c ≤ size a) : ∃ w, a = c ++ w ∧ d = w ++ b := by
  rcases List.append_eq_append_iff.mp h with ⟨w, rfl, rfl⟩ | ⟨w, ha, hd⟩
  · rcases w with - | ⟨e, w⟩
    · exact ⟨[], by simp, by simp⟩
    · have := e.utf8Size_pos
      rw [size_append, size_cons] at hsize
      omega
  · exact ⟨w, ha, hd⟩

/-- An entry of two lists put together is one of the first or of the second. -/
theorem append_eq_append_cons {α : Type} {l m before after : List α} {a : α}
    (h : l ++ m = before ++ a :: after) :
    (∃ w, l = before ++ a :: w ∧ after = w ++ m) ∨ ∃ w, before = l ++ w ∧ m = w ++ a :: after := by
  rcases List.append_eq_append_iff.mp h with ⟨w, hbefore, hm⟩ | ⟨w, hl, hcons⟩
  · exact .inr ⟨w, hbefore, hm⟩
  · cases w with
    | nil => exact .inr ⟨[], by simpa using hl.symm, hcons.symm⟩
    | cons c w =>
      obtain ⟨rfl, rfl⟩ := List.cons.inj hcons
      exact .inl ⟨w, hl, rfl⟩

end FormOntology.Text
