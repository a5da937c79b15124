import Std.Data.String.ToInt
import FormOntology.Json.Value
import FormOntology.Proofs.Declaration.Tokens

/-!
# Written values are read back

A JSON value on one line is read back as the tree it was written from, whatever stands behind it,
and the tree gives the value away.  So no two values have the same text.  This is told of values
whose numbers are integers, as in everything the program writes itself.

## Main definitions

* `Json.isWhole` — whether all numbers of a value are integers.
* `Json.tree` — the tree that a value is written from.
* `Json.ReadsBack` — whether the text of a value is read as its tree.

## Main results

* `Json.readsBack` — **the text of a value is read as its tree, whatever stands behind it.**
* `Json.compact_inj` — **values with the same text are the same.**
-/

namespace FormOntology

open JsonTree

/-! ### Characters -/

/-- Whether a character is written by its number. -/
def isNumbered (c : Char) : Bool :=
  c.toNat < 32 && !(['\x08', '\x0c', '\n', '\r', '\t'].contains c)

/-- How a character between quotes is read. -/
def StringUnit.ofChar (c : Char) : StringUnit :=
  if isNumbered c then .code c.toNat else .char c

theorem hexDigit?_digitChar {n : Nat} (h : n < 16) : hexDigit? n.digitChar = some n := by
  have hall : ∀ m < 16, hexDigit? m.digitChar = some m := by decide
  exact hall n h

@[simp] theorem stringTail?_quote (r : List Char) : stringTail? ('"' :: r) = some ([], r) := by
  rw [stringTail?.eq_def]
  rfl

theorem stringTail?_escape {e d : Char} (he : e ≠ 'u') (hd : escapeOf? e = some d)
    (r : List Char) : stringTail? ('\\' :: e :: r)
      = (stringTail? r).map fun (s, rest) => (.char d :: s, rest) := by
  rw [stringTail?.eq_def]
  simp [he, hd]

theorem stringTail?_code {a b c d : Char} {n : Nat} (h : hexUnit? a b c d = some n)
    (r : List Char) : stringTail? ('\\' :: 'u' :: a :: b :: c :: d :: r)
      = (stringTail? r).map fun (s, rest) => (.code n :: s, rest) := by
  rw [stringTail?.eq_def]
  simp [h]

theorem stringTail?_cons {c : Char} (hq : c ≠ '"') (hlt : ¬c.toNat < 32) (hb : c ≠ '\\')
    (r : List Char) : stringTail? (c :: r)
      = (stringTail? r).map fun (s, rest) => (.char c :: s, rest) := by
  rw [stringTail?.eq_def]
  simp only [hq, hlt, hb, if_false]

/-- A written character is read back. -/
theorem stringTail?_quoteChar (c : Char) (r : List Char) :
    stringTail? (Json.quoteChar c ++ r)
      = (stringTail? r).map fun (s, rest) => (.ofChar c :: s, rest) := by
  unfold Json.quoteChar
  split
  · next h => rw [h]; exact stringTail?_escape (by decide) rfl r
  split
  · next h => rw [h]; exact stringTail?_escape (by decide) rfl r
  split
  · next h => rw [h]; exact stringTail?_escape (by decide) rfl r
  split
  · next h => rw [h]; exact stringTail?_escape (by decide) rfl r
  split
  · next h => rw [h]; exact stringTail?_escape (by decide) rfl r
  split
  · next h => rw [h]; exact stringTail?_escape (by decide) rfl r
  split
  · next h => rw [h]; exact stringTail?_escape (by decide) rfl r
  next hquote hback h8 h12 hn hr ht =>
  have hnumbered : isNumbered c = decide (c.toNat < 32) := by
    simp [isNumbered, h8, h12, hn, hr, ht]
  split
  · next hlt =>
    -- the two last of the four digits tell the number
    have hunit : hexUnit? '0' '0' (c.toNat / 16).digitChar (c.toNat % 16).digitChar
        = some c.toNat := by
      have hhigh := hexDigit?_digitChar (n := c.toNat / 16) (by omega)
      have hlow := hexDigit?_digitChar (n := c.toNat % 16) (by omega)
      have hzero : hexDigit? '0' = some 0 := rfl
      simp only [hexUnit?, hhigh, hlow, hzero, Option.bind_eq_bind, Option.bind_some]
      congr 1
      omega
    rw [StringUnit.ofChar, hnumbered, decide_eq_true hlt, if_pos rfl]
    exact stringTail?_code hunit r
  · next hlt =>
    rw [StringUnit.ofChar, hnumbered, decide_eq_false hlt, if_neg Bool.false_ne_true]
    exact stringTail?_cons hquote hlt hback r

/-- A text in quotes is read back. -/
theorem stringTail?_quoted (s r : List Char) :
    stringTail? (s.flatMap Json.quoteChar ++ '"' :: r) = some (s.map .ofChar, r) := by
  induction s with
  | nil => exact stringTail?_quote r
  | cons c s ih =>
    rw [List.flatMap_cons, List.append_assoc, stringTail?_quoteChar, ih]
    rfl

/-- What is read of a text in quotes is the text. -/
theorem stringText?_map_ofChar (s : List Char) : stringText? none (s.map .ofChar) = some s := by
  induction s with
  | nil => rfl
  | cons c s ih =>
    rw [List.map_cons, StringUnit.ofChar]
    split
    · next hc =>
      have hlt : c.toNat < 32 := by
        simp only [isNumbered, Bool.and_eq_true, decide_eq_true_eq] at hc
        exact hc.1
      rw [stringText?, if_neg (by omega), if_neg (by omega), ih, Char.ofNat_toNat]
      rfl
    · rw [stringText?, ih]
      rfl

theorem writtenString?_map_ofChar (s : String) :
    writtenString? (s.toList.map .ofChar) = some s := by
  rw [writtenString?, stringText?_map_ofChar, Option.map_some, String.ofList_toList]

/-! ### Numbers -/

/-- The characters that can go on with a number behind its first digits. -/
def isNumberChar (c : Char) : Bool := c.isDigit || c == '.' || c == 'e' || c == 'E'

/-- An integer as a written number. -/
def NumberText.ofInt (n : Int) : NumberText := ⟨n < 0, Nat.toDigits 10 n.natAbs, none, none⟩

theorem NumberText.ofInt_inj {m n : Int} (h : ofInt m = ofInt n) : m = n := by
  simp only [ofInt, NumberText.mk.injEq, and_true, decide_eq_decide] at h
  have habs : m.natAbs = n.natAbs := by
    apply Nat.repr_injective
    rw [Nat.repr_eq_ofList_toDigits, Nat.repr_eq_ofList_toDigits, h.2]
  omega

theorem fraction?_of_stopsBefore {r : List Char} (h : StopsBefore isNumberChar r) :
    fraction? r = some (none, r) := by
  unfold fraction?
  split
  · exact absurd (stopsBefore_cons.mp h) (by decide)
  · rfl

theorem exponent?_of_stopsBefore {r : List Char} (h : StopsBefore isNumberChar r) :
    exponent? r = some (none, r) := by
  cases r with
  | nil => rfl
  | cons c r =>
    have hc := stopsBefore_cons.mp h
    simp only [isNumberChar, Bool.or_eq_false_iff, beq_eq_false_iff_ne] at hc
    simp [exponent?, hc.1.2, hc.2]

theorem digits?_append {ds r : List Char} (hne : ds ≠ []) (hds : ∀ c ∈ ds, c.isDigit = true)
    (h : StopsBefore isNumberChar r) : digits? (ds ++ r) = some (ds, r) := by
  have hr : StopsBefore Char.isDigit r := fun c hc => by
    have := h c hc
    simp only [isNumberChar, Bool.or_eq_false_iff] at this
    exact this.1.1.1
  rw [digits?, takeWhile_append_of_stopsBefore hds hr, dropWhile_append_of_stopsBefore hds hr]
  simp [hne]

theorem head?_toDigits_append (n : Nat) (r : List Char) :
    (Nat.toDigits 10 n ++ r).head? = (Nat.toDigits 10 n).head? := by
  obtain ⟨c, s, hc⟩ := List.exists_cons_of_ne_nil (Nat.toDigits_ne_nil (n := n) (b := 10))
  rw [hc]
  rfl

/-- The digits of a number begin with a zero only if that is all of them. -/
theorem toDigits_leading (n : Nat) :
    ¬((Nat.toDigits 10 n).head? = some '0' ∧ 1 < (Nat.toDigits 10 n).length) := by
  rintro ⟨hzero, hlength⟩
  induction n using Nat.strongRecOn with
  | ind n ih =>
    by_cases hn : n < 10
    · rw [Nat.toDigits_of_lt_base hn] at hlength
      exact absurd hlength (by simp)
    · rw [Nat.toDigits_of_base_le (by decide) (by omega), head?_toDigits_append] at hzero
      refine ih (n / 10) (by omega) hzero (Nat.lt_of_not_le fun hshort => ?_)
      -- a single digit in front would be a zero, so the number would be less than ten
      have hlt : n / 10 < 10 := (Nat.length_toDigits_le_iff (by decide) Nat.one_pos).mp hshort
      rw [Nat.toDigits_of_lt_base hlt, List.head?_cons, Option.some_inj,
        Nat.digitChar_eq_zero] at hzero
      omega

theorem chars_int (n : Int) : (JsonNumber.int n).chars
    = if n < 0 then '-' :: Nat.toDigits 10 n.natAbs else Nat.toDigits 10 n.natAbs := by
  rw [JsonNumber.chars, Int.toString_eq_repr, Int.repr_eq_if]
  by_cases hn : n < 0
  · have habs : (-n).toNat = n.natAbs := by omega
    simp [hn, Int.not_le.mpr hn, habs]
  · have habs : n.toNat = n.natAbs := by omega
    simp [hn, Int.not_lt.mp hn, habs]

theorem chars_int_ne_nil (n : Int) : (JsonNumber.int n).chars ≠ [] := by
  rw [chars_int]
  split
  · exact List.cons_ne_nil _ _
  · exact Nat.toDigits_ne_nil

theorem chars_int_start {n : Int} {c : Char} {r : List Char}
    (h : (JsonNumber.int n).chars = c :: r) : c = '-' ∨ c.isDigit = true := by
  rw [chars_int] at h
  split at h
  · exact .inl (List.cons.inj h).1.symm
  · exact .inr (Nat.isDigit_of_mem_toDigits (by decide) (by decide) (h ▸ List.mem_cons_self ..))

/-- A number without a fraction and an exponent is read back. -/
theorem unsigned?_toDigits (negative : Bool) (n : Nat) {r : List Char}
    (h : StopsBefore isNumberChar r) :
    unsigned? negative (Nat.toDigits 10 n ++ r)
      = some (⟨negative, Nat.toDigits 10 n, none, none⟩, r) := by
  have hdigits : digits? (Nat.toDigits 10 n ++ r) = some (Nat.toDigits 10 n, r) :=
    digits?_append Nat.toDigits_ne_nil
      (fun c hc => Nat.isDigit_of_mem_toDigits (by decide) (by decide) hc) h
  simp [unsigned?, hdigits, if_neg (toDigits_leading n), fraction?_of_stopsBefore h,
    exponent?_of_stopsBefore h]

theorem number?_of_ne_minus {c : Char} (h : c ≠ '-') (r : List Char) :
    number? (c :: r) = unsigned? false (c :: r) := by
  rw [number?]
  rintro r' hr
  exact h (List.cons.inj hr).1

/-- An integer is read back. -/
theorem number?_int (n : Int) {r : List Char} (h : StopsBefore isNumberChar r) :
    number? ((JsonNumber.int n).chars ++ r) = some (.ofInt n, r) := by
  rw [chars_int]
  by_cases hn : n < 0
  · rw [if_pos hn, List.cons_append, number?, unsigned?_toDigits true _ h]
    simp [NumberText.ofInt, hn]
  · obtain ⟨c, s, hc⟩ := List.exists_cons_of_ne_nil (Nat.toDigits_ne_nil (n := n.natAbs) (b := 10))
    have hdigit : c.isDigit = true := Nat.isDigit_of_mem_toDigits (b := 10) (n := n.natAbs)
      (by decide) (by decide) (hc ▸ List.mem_cons_self ..)
    have hne : c ≠ '-' := by
      rintro rfl
      exact absurd hdigit (by decide)
    have hread := unsigned?_toDigits false n.natAbs h
    rw [if_neg hn]
    rw [hc, List.cons_append] at hread ⊢
    rw [number?_of_ne_minus hne, hread, ← hc]
    simp [NumberText.ofInt, hn]

/-! ### Values -/

/-- A map that tells the elements of two lists apart tells the lists apart. -/
theorem eq_of_map_eq {α β : Type} {f : α → β} {as bs : List α}
    (hf : ∀ a ∈ as, ∀ b ∈ bs, f a = f b → a = b) (h : as.map f = bs.map f) : as = bs := by
  induction as generalizing bs with
  | nil => exact (List.map_eq_nil_iff.mp h.symm).symm
  | cons a as ih =>
    cases bs with
    | nil => cases h
    | cons b bs =>
      obtain ⟨hhead, htail⟩ := List.cons.inj h
      rw [hf a (List.mem_cons_self ..) b (List.mem_cons_self ..) hhead,
        ih (fun c hc d hd => hf c (List.mem_cons_of_mem _ hc) d (List.mem_cons_of_mem _ hd)) htail]

namespace Json

/-- What holds of a value if it holds of its items and members holds of all values. -/
theorem induction {P : Json → Prop} (null : P .null) (bool : ∀ b, P (.bool b))
    (number : ∀ n, P (.number n)) (string : ∀ s, P (.string s))
    (array : ∀ items, (∀ j ∈ items, P j) → P (.array items))
    (object : ∀ members : List (String × Json), (∀ m ∈ members, P m.2) → P (.object members))
    (j : Json) : P j := by
  refine @Json.rec P (fun items => ∀ k ∈ items, P k) (fun members => ∀ m ∈ members, P m.2)
    (fun m => P m.2) null bool number string array object ?_ ?_ ?_ ?_ ?_ j
  · simp
  · intro k items hk hitems
    exact List.forall_mem_cons.mpr ⟨hk, hitems⟩
  · simp
  · intro m members hm hmembers
    exact List.forall_mem_cons.mpr ⟨hm, hmembers⟩
  · intro k v hv
    exact hv

mutual

/-- Whether all numbers of a value are integers. -/
def isWhole : Json → Bool
  | .null => true
  | .bool _ => true
  | .number (.int _) => true
  | .number (.double _) => false
  | .string _ => true
  | .array items => itemsWhole items
  | .object members => membersWhole members
termination_by structural j => j

/-- Whether all numbers of some values are integers. -/
def itemsWhole : List Json → Bool
  | [] => true
  | j :: r => j.isWhole && itemsWhole r
termination_by structural l => l

/-- Whether all numbers of some members are integers. -/
def membersWhole : List (String × Json) → Bool
  | [] => true
  | (_, j) :: r => j.isWhole && membersWhole r
termination_by structural l => l

end

@[simp] theorem isWhole_bool (b : Bool) : (bool b).isWhole = true := rfl

@[simp] theorem isWhole_nat (n : Nat) : (nat n).isWhole = true := rfl

@[simp] theorem isWhole_string (s : String) : (string s).isWhole = true := rfl

@[simp] theorem isWhole_array (items : List Json) :
    (array items).isWhole = items.all isWhole := by
  rw [isWhole]
  induction items with
  | nil => rfl
  | cons j r ih => rw [itemsWhole, ih, List.all_cons]

@[simp] theorem isWhole_object (members : List (String × Json)) :
    (object members).isWhole = members.all (·.2.isWhole) := by
  rw [isWhole]
  induction members with
  | nil => rfl
  | cons m r ih => rw [membersWhole, ih, List.all_cons]

mutual

/-- The tree that a value is written from; a number that is no integer is left out of account and
stands as `null`. -/
def tree : Json → JsonTree
  | .null => .null
  | .bool b => .bool b
  | .number (.int n) => .number (.ofInt n)
  | .number (.double _) => .null
  | .string s => .string (s.toList.map .ofChar)
  | .array items => .array (itemTrees items)
  | .object members => .object (memberTrees members)
termination_by structural j => j

/-- The trees that some values are written from. -/
def itemTrees : List Json → List JsonTree
  | [] => []
  | j :: r => j.tree :: itemTrees r
termination_by structural l => l

/-- The trees that some members are written from. -/
def memberTrees : List (String × Json) → List (List StringUnit × JsonTree)
  | [] => []
  | (k, j) :: r => (k.toList.map .ofChar, j.tree) :: memberTrees r
termination_by structural l => l

end

theorem tree_array (items : List Json) : (array items).tree = .array (items.map tree) := by
  rw [tree]
  congr 1
  induction items with
  | nil => rfl
  | cons j r ih => rw [itemTrees, ih, List.map_cons]

theorem tree_object (members : List (String × Json)) : (object members).tree
    = .object (members.map fun m => (m.1.toList.map .ofChar, m.2.tree)) := by
  rw [tree]
  congr 1
  induction members with
  | nil => rfl
  | cons m r ih => rw [memberTrees, ih, List.map_cons]

/-! ### Reading values -/

/-- Whether a character can begin a value. -/
def isValueStart (c : Char) : Bool :=
  ['n', 't', 'f', '"', '[', '\x7b', '-'].contains c || c.isDigit

/-- A value begins with one of a few characters, none of which is a blank. -/
theorem compact_eq_cons {j : Json} (h : j.isWhole = true) :
    ∃ c r, j.compact = c :: r ∧ isValueStart c = true := by
  cases j with
  | null => exact ⟨'n', _, rfl, rfl⟩
  | bool b => cases b <;> exact ⟨_, _, rfl, rfl⟩
  | number n =>
    cases n with
    | double x => cases h
    | int n =>
      obtain ⟨c, r, hc⟩ := List.exists_cons_of_ne_nil (chars_int_ne_nil n)
      refine ⟨c, r, hc, ?_⟩
      rcases chars_int_start hc with rfl | hdigit
      · rfl
      · rw [isValueStart, hdigit, Bool.or_true]
  | string s => exact ⟨'"', _, rfl, rfl⟩
  | array items => exact ⟨'[', _, rfl, rfl⟩
  | object members => exact ⟨'\x7b', _, rfl, rfl⟩

end Json

/-- Whether a character stands between values. -/
def isJsonMark (c : Char) : Bool := [',', ':', ']', '\x7d'].contains c

theorem skipBlanks_cons {c : Char} (h : Json.isValueStart c = true ∨ isJsonMark c = true)
    (r : List Char) : skipBlanks (c :: r) = c :: r := by
  refine List.dropWhile_cons_of_neg fun hc => ?_
  simp only [Bool.or_eq_true, beq_iff_eq] at hc
  rcases hc with ((rfl | rfl) | rfl) | rfl <;> rcases h with h | h <;> cases h

theorem word?_append (word : String) (r : List Char) :
    word? word (word.toList ++ r) = some r := by
  have hprefix : word.toList.isPrefixOf (word.toList ++ r) = true := by
    rw [List.isPrefixOf_iff_prefix]
    exact List.prefix_append _ _
  have hlength : word.length = word.toList.length := String.length_toList.symm
  rw [word?, if_pos hprefix, hlength, List.drop_left]

section Steps

variable {fuel : Nat} {text rest rest' : List Char} {t : JsonTree}

theorem value?_null : value? (fuel + 1) ("null".toList ++ rest) = some (.null, rest) := by
  have hword : word? "null" ('n' :: ("ull".toList ++ rest)) = some rest := word?_append "null" rest
  change value? (fuel + 1) ('n' :: ("ull".toList ++ rest)) = _
  rw [value?_succ, valueWith, skipBlanks_cons (.inl rfl)]
  simp only [Char.reduceEq, if_false, if_true, hword, Option.map_some]

theorem value?_true : value? (fuel + 1) ("true".toList ++ rest) = some (.bool true, rest) := by
  have hword : word? "true" ('t' :: ("rue".toList ++ rest)) = some rest := word?_append "true" rest
  change value? (fuel + 1) ('t' :: ("rue".toList ++ rest)) = _
  rw [value?_succ, valueWith, skipBlanks_cons (.inl rfl)]
  simp only [Char.reduceEq, if_false, if_true, hword, Option.map_some]

theorem value?_false : value? (fuel + 1) ("false".toList ++ rest) = some (.bool false, rest) := by
  have hword : word? "false" ('f' :: ("alse".toList ++ rest)) = some rest :=
    word?_append "false" rest
  change value? (fuel + 1) ('f' :: ("alse".toList ++ rest)) = _
  rw [value?_succ, valueWith, skipBlanks_cons (.inl rfl)]
  simp only [Char.reduceEq, if_false, if_true, hword, Option.map_some]

theorem value?_string {s : List StringUnit} (h : stringTail? text = some (s, rest)) :
    value? (fuel + 1) ('"' :: text) = some (.string s, rest) := by
  rw [value?_succ, valueWith, skipBlanks_cons (.inl rfl)]
  simp [h]

theorem value?_number {c : Char} {n : NumberText} (hc : c = '-' ∨ c.isDigit = true)
    (h : number? (c :: text) = some (n, rest)) :
    value? (fuel + 1) (c :: text) = some (.number n, rest) := by
  have hstart : Json.isValueStart c = true := by
    rcases hc with rfl | hc
    · rfl
    · rw [Json.isValueStart, hc, Bool.or_true]
  have hne : ∀ d, d ≠ '-' → d.isDigit = false → c ≠ d := by
    rintro d hminus hdigit rfl
    rcases hc with rfl | hc
    · exact hminus rfl
    · rw [hc] at hdigit
      cases hdigit
  rw [value?_succ, valueWith, skipBlanks_cons (.inl hstart)]
  simp only [hne '"' (by decide) rfl, hne '[' (by decide) rfl, hne '\x7b' (by decide) rfl,
    hne 'n' (by decide) rfl, hne 't' (by decide) rfl, hne 'f' (by decide) rfl, if_false, h,
    Option.map_some]

theorem value?_emptyArray : value? (fuel + 1) ('[' :: ']' :: rest) = some (.array [], rest) := by
  rw [value?_succ, valueWith, skipBlanks_cons (.inl rfl)]
  simp [untilClosed, skipBlanks_cons (c := ']') (.inr rfl)]

theorem value?_emptyObject :
    value? (fuel + 1) ('\x7b' :: '\x7d' :: rest) = some (.object [], rest) := by
  rw [value?_succ, valueWith, skipBlanks_cons (.inl rfl)]
  simp [untilClosed, skipBlanks_cons (c := '\x7d') (.inr rfl)]

theorem value?_array {c : Char} {ts : List JsonTree} (hc : Json.isValueStart c = true)
    (h : items? fuel (c :: text) = some (ts, rest)) :
    value? (fuel + 1) ('[' :: c :: text) = some (.array ts, rest) := by
  have hne : c ≠ ']' := by
    rintro rfl
    cases hc
  rw [value?_succ, valueWith, skipBlanks_cons (.inl rfl)]
  simp [untilClosed, skipBlanks_cons (.inl hc), hne, h]

theorem value?_object {c : Char} {ms : List (List StringUnit × JsonTree)}
    (hc : Json.isValueStart c = true) (h : members? fuel (c :: text) = some (ms, rest)) :
    value? (fuel + 1) ('\x7b' :: c :: text) = some (.object ms, rest) := by
  have hne : c ≠ '\x7d' := by
    rintro rfl
    cases hc
  rw [value?_succ, valueWith, skipBlanks_cons (.inl rfl)]
  simp [untilClosed, skipBlanks_cons (.inl hc), hne, h]

theorem items?_last (h : value? fuel text = some (t, ']' :: rest)) :
    items? (fuel + 1) text = some ([t], rest) := by
  rw [items?_succ, itemsWith]
  simp [h, skipBlanks_cons (c := ']') (.inr rfl)]

theorem items?_more {ts : List JsonTree} (h : value? fuel text = some (t, ',' :: rest))
    (hrest : items? fuel rest = some (ts, rest')) :
    items? (fuel + 1) text = some (t :: ts, rest') := by
  rw [items?_succ, itemsWith]
  simp [h, skipBlanks_cons (c := ',') (.inr rfl), hrest]

theorem members?_last {k : List StringUnit} {behind closing : List Char}
    (hk : stringTail? text = some (k, ':' :: behind))
    (h : value? fuel behind = some (t, closing)) (hclose : skipBlanks closing = '\x7d' :: rest) :
    members? (fuel + 1) ('"' :: text) = some ([(k, t)], rest) := by
  rw [members?_succ, membersWith, skipBlanks_cons (.inl rfl)]
  simp [hk, h, skipBlanks_cons (c := ':') (.inr rfl), hclose]

theorem members?_more {k : List StringUnit} {ms : List (List StringUnit × JsonTree)}
    {behind : List Char} (hk : stringTail? text = some (k, ':' :: behind))
    (h : value? fuel behind = some (t, ',' :: rest))
    (hrest : members? fuel rest = some (ms, rest')) :
    members? (fuel + 1) ('"' :: text) = some ((k, t) :: ms, rest') := by
  rw [members?_succ, membersWith, skipBlanks_cons (.inl rfl)]
  simp [hk, h, skipBlanks_cons (c := ':') (.inr rfl), skipBlanks_cons (c := ',') (.inr rfl), hrest]

end Steps

namespace Json

/-- Whether the text of a value is read as its tree, whatever stands behind it. -/
def ReadsBack (j : Json) : Prop :=
  ∀ fuel rest, 2 * j.compact.length ≤ fuel → StopsBefore isNumberChar rest →
    value? fuel (j.compact ++ rest) = some (j.tree, rest)

theorem exists_fuel {j : Json} (h : j.isWhole = true) {fuel : Nat}
    (hfuel : 2 * j.compact.length ≤ fuel) : ∃ n, fuel = n + 1 := by
  obtain ⟨c, r, hc, -⟩ := compact_eq_cons h
  rw [hc, List.length_cons] at hfuel
  exact ⟨fuel - 1, by omega⟩

theorem compactItems_cons_cons (j k : Json) (r : List Json) :
    compactItems (j :: k :: r) = j.compact ++ ',' :: compactItems (k :: r) := by
  rw [compactItems]
  simp

theorem compactMembers_cons_cons (m n : String × Json) (r : List (String × Json)) :
    compactMembers (m :: n :: r)
      = quote m.1.toList ++ ':' :: m.2.compact ++ ',' :: compactMembers (n :: r) := by
  rw [compactMembers]
  simp

theorem compactItems_eq_cons {j : Json} (h : j.isWhole = true) (r : List Json)
    (behind : List Char) :
    ∃ c text, compactItems (j :: r) ++ behind = c :: text ∧ isValueStart c = true := by
  obtain ⟨c, text, hc, hstart⟩ := compact_eq_cons h
  refine ⟨c, ?_⟩
  cases r with
  | nil =>
    rw [compactItems, hc]
    exact ⟨_, rfl, hstart⟩
  | cons k r =>
    rw [compactItems_cons_cons, hc]
    exact ⟨_, rfl, hstart⟩

/-- The items of an array are read back with its closing bracket. -/
theorem items?_compactItems {j : Json} {items : List Json}
    (h : ∀ k ∈ j :: items, k.ReadsBack) (fuel : Nat) (rest : List Char)
    (hfuel : 2 * (compactItems (j :: items)).length < fuel) :
    items? fuel (compactItems (j :: items) ++ ']' :: rest)
      = some ((j :: items).map tree, rest) := by
  obtain ⟨fuel, rfl⟩ : ∃ n, fuel = n + 1 := ⟨fuel - 1, by omega⟩
  induction items generalizing j fuel with
  | nil =>
    rw [compactItems] at hfuel ⊢
    exact items?_last (h j (by simp) fuel _ (by omega) (stopsBefore_cons.mpr rfl))
  | cons k r ih =>
    rw [compactItems_cons_cons, List.length_append, List.length_cons] at hfuel
    obtain ⟨hj, hr⟩ := List.forall_mem_cons.mp h
    obtain ⟨fuel, rfl⟩ : ∃ n, fuel = n + 1 := ⟨fuel - 1, by omega⟩
    rw [compactItems_cons_cons, List.append_assoc]
    exact items?_more (hj _ _ (by omega) (stopsBefore_cons.mpr rfl)) (ih hr fuel (by omega))

theorem compactMembers_eq_cons (m : String × Json) (r : List (String × Json))
    (behind : List Char) : ∃ text, compactMembers (m :: r) ++ behind = '"' :: text := by
  cases r with
  | nil => exact ⟨_, rfl⟩
  | cons n r =>
    rw [compactMembers_cons_cons]
    exact ⟨_, rfl⟩

/-- The members of an object are read back with its closing brace. -/
theorem members?_compactMembers {m : String × Json} {members : List (String × Json)}
    (h : ∀ n ∈ m :: members, n.2.ReadsBack) (fuel : Nat) (rest : List Char)
    (hfuel : 2 * (compactMembers (m :: members)).length < fuel) :
    members? fuel (compactMembers (m :: members) ++ '\x7d' :: rest)
      = some ((m :: members).map fun n => (n.1.toList.map .ofChar, n.2.tree), rest) := by
  obtain ⟨fuel, rfl⟩ : ∃ n, fuel = n + 1 := ⟨fuel - 1, by omega⟩
  have hkey : ∀ (k : String) (r : List Char), quote k.toList ++ ':' :: r
      = '"' :: (k.toList.flatMap quoteChar ++ '"' :: ':' :: r) := by
    simp [quote]
  induction members generalizing m fuel with
  | nil =>
    obtain ⟨k, v⟩ := m
    rw [compactMembers, List.length_append, List.length_cons] at hfuel
    rw [compactMembers, List.append_assoc, List.cons_append, hkey]
    have hv : v.ReadsBack := h (k, v) (List.mem_cons_self ..)
    exact members?_last (stringTail?_quoted _ _)
      (hv _ _ (by omega) (stopsBefore_cons.mpr rfl)) (skipBlanks_cons (.inr rfl) _)
  | cons n r ih =>
    rw [compactMembers_cons_cons, List.length_append, List.length_append, List.length_cons,
      List.length_cons] at hfuel
    obtain ⟨hm, hr⟩ := List.forall_mem_cons.mp h
    obtain ⟨fuel, rfl⟩ : ∃ n, fuel = n + 1 := ⟨fuel - 1, by omega⟩
    rw [compactMembers_cons_cons, List.append_assoc, List.append_assoc, List.cons_append,
      List.cons_append, hkey]
    exact members?_more (stringTail?_quoted _ _)
      (hm _ _ (by omega) (stopsBefore_cons.mpr rfl)) (ih hr fuel (by omega))

/-- **The text of a value is read as its tree, whatever stands behind it.** -/
theorem readsBack {j : Json} (h : j.isWhole = true) : j.ReadsBack := by
  induction j using Json.induction with
  | null =>
    intro fuel rest hfuel _
    obtain ⟨fuel, rfl⟩ := exists_fuel h hfuel
    exact value?_null
  | bool b =>
    intro fuel rest hfuel _
    obtain ⟨fuel, rfl⟩ := exists_fuel h hfuel
    cases b with
    | true => exact value?_true
    | false => exact value?_false
  | number n =>
    intro fuel rest hfuel hrest
    obtain ⟨fuel, rfl⟩ := exists_fuel h hfuel
    cases n with
    | double x => cases h
    | int n =>
      obtain ⟨c, r, hc, -⟩ := compact_eq_cons h
      have hread := number?_int n hrest
      rw [compact] at hc ⊢
      rw [hc, List.cons_append] at hread ⊢
      exact value?_number (chars_int_start hc) hread
  | string s =>
    intro fuel rest hfuel _
    obtain ⟨fuel, rfl⟩ := exists_fuel h hfuel
    have hquoted : (string s).compact ++ rest
        = '"' :: (s.toList.flatMap quoteChar ++ '"' :: rest) := by
      simp [compact, quote]
    rw [hquoted]
    exact value?_string (stringTail?_quoted _ _)
  | array items ih =>
    intro fuel rest hfuel _
    obtain ⟨fuel, rfl⟩ := exists_fuel h hfuel
    rw [isWhole_array, List.all_eq_true] at h
    rw [compact, List.cons_append, List.cons_append, List.append_assoc, tree_array]
    cases items with
    | nil => exact value?_emptyArray
    | cons j r =>
      rw [compact, List.length_append, List.length_cons] at hfuel
      have hitems := items?_compactItems (fun k hk => ih k hk (h k hk)) fuel rest (by omega)
      obtain ⟨c, text, hc, hstart⟩ := compactItems_eq_cons (h j (List.mem_cons_self ..)) r
        (']' :: rest)
      rw [List.singleton_append, hc]
      rw [hc] at hitems
      exact value?_array hstart hitems
  | object members ih =>
    intro fuel rest hfuel _
    obtain ⟨fuel, rfl⟩ := exists_fuel h hfuel
    rw [isWhole_object, List.all_eq_true] at h
    rw [compact, List.cons_append, List.cons_append, List.append_assoc, tree_object]
    cases members with
    | nil => exact value?_emptyObject
    | cons m r =>
      rw [compact, List.length_append, List.length_cons] at hfuel
      have hmembers := members?_compactMembers (fun k hk => ih k hk (h k hk)) fuel rest (by omega)
      obtain ⟨text, hc⟩ := compactMembers_eq_cons m r ('\x7d' :: rest)
      rw [List.singleton_append, hc]
      rw [hc] at hmembers
      exact value?_object rfl hmembers

theorem quoted_inj {s t : String}
    (h : s.toList.map StringUnit.ofChar = t.toList.map StringUnit.ofChar) : s = t := by
  rw [← Option.some_inj, ← writtenString?_map_ofChar s, h, writtenString?_map_ofChar]

/-- A value is given away by its tree. -/
theorem tree_inj {j k : Json} (hj : j.isWhole = true) (hk : k.isWhole = true)
    (h : j.tree = k.tree) : j = k := by
  induction j using Json.induction generalizing k with
  | null =>
    cases k with
    | null => rfl
    | number n =>
      cases n with
      | int n => cases h
      | double x => cases hk
    | _ => cases h
  | bool b =>
    cases k with
    | bool c => cases h; rfl
    | number n => cases n <;> cases h
    | _ => cases h
  | number n =>
    cases n with
    | double x => cases hj
    | int n =>
      cases k with
      | number m =>
        cases m with
        | double x => cases hk
        | int m => rw [NumberText.ofInt_inj (JsonTree.number.inj h)]
      | _ => cases h
  | string s =>
    cases k with
    | string t => rw [quoted_inj (JsonTree.string.inj h)]
    | number n => cases n <;> cases h
    | _ => cases h
  | array items ih =>
    cases k with
    | array items' =>
      rw [isWhole_array, List.all_eq_true] at hj hk
      rw [tree_array, tree_array, JsonTree.array.injEq] at h
      rw [eq_of_map_eq (fun a ha b hb => ih a ha (hj a ha) (hk b hb)) h]
    | number n => cases n <;> cases h
    | _ => cases h
  | object members ih =>
    cases k with
    | object members' =>
      rw [isWhole_object, List.all_eq_true] at hj hk
      rw [tree_object, tree_object, JsonTree.object.injEq] at h
      refine congrArg _ (eq_of_map_eq (fun a ha b hb hab => ?_) h)
      obtain ⟨hkey, hvalue⟩ := Prod.mk.inj hab
      exact Prod.ext (quoted_inj hkey) (ih a ha (hj a ha) (hk b hb) hvalue)
    | number n => cases n <;> cases h
    | _ => cases h

/-- **Values with the same text are the same.** -/
theorem compact_inj {j k : Json} (hj : j.isWhole = true) (hk : k.isWhole = true)
    (h : j.compact = k.compact) : j = k := by
  have hread := readsBack hj _ [] (Nat.le_refl _) (stopsBefore_nil _)
  rw [h, readsBack hk _ [] (Nat.le_refl _) (stopsBefore_nil _), Option.some_inj] at hread
  exact tree_inj hj hk (Prod.mk.inj hread).1.symm

end Json

end FormOntology
