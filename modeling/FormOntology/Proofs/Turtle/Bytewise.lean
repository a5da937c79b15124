import FormOntology.Proofs.Text.Bytes
import FormOntology.Proofs.Text.Offset
import FormOntology.Proofs.Turtle.Marks

/-!
# Finding runs byte by byte

A comment, a literal or an IRI begins and ends with characters of one byte, so the runs of a text
can be found in its bytes without decoding them.  The scan goes from byte to byte.  At a backslash
it goes over two, which may lead it into the middle of a character or over the end of the text.  It
still comes out where a character ends: behind its first byte a character has none that a run could
begin or end with.

## Main definitions

* `Bytewise.runEnd?` — where the run ends that begins at a byte, if one does.
* `Bytewise.ranges` — the spans of the runs of a text, from its bytes.

## Main results

* `Bytewise.lt_runEnd?` — a run is not empty, so the scan comes to an end.
* `Bytewise.runEnd?_encode` — a run ends at the same place in a text and in its bytes.
* `Bytewise.ranges_encode` — **the scan of the bytes of a text finds the runs of the text.**
* `inertRanges_ordered` — **the runs of a text are not empty, consist of whole characters and come
  one behind the other, and binary search finds the run that an offset lies in.**
-/

namespace FormOntology.Turtle

open Text

namespace Bytewise

/-! ### The scan -/

/-- Whether three quotes stand at an index. -/
def quotesAt (bytes : List UInt8) (i : Nat) : Bool :=
  bytes[i]? == some '"'.toUInt8 && bytes[i + 1]? == some '"'.toUInt8
    && bytes[i + 2]? == some '"'.toUInt8

/-- Whether a byte is that of an ASCII blank. -/
def isBlankByte (b : UInt8) : Bool := isAsciiBlank (Char.ofUInt8 b)

/-- The index of the next line feed, or that behind all bytes. -/
def lineEnd (bytes : List UInt8) (i : Nat) : Nat :=
  if h : i < bytes.length then
    if bytes[i] = '\n'.toUInt8 then i else lineEnd bytes (i + 1)
  else bytes.length
termination_by bytes.length - i

/-- The index behind a short literal whose body begins at an index. -/
def shortEnd (bytes : List UInt8) (i : Nat) : Nat :=
  if h : i < bytes.length then
    if bytes[i] = '\\'.toUInt8 then shortEnd bytes (i + 2)
    else if bytes[i] = '"'.toUInt8 then i + 1
    else if bytes[i] = '\n'.toUInt8 then i
    else shortEnd bytes (i + 1)
  else bytes.length
termination_by bytes.length - i

/-- The index behind a long literal whose body begins at an index. -/
def longEnd (bytes : List UInt8) (i : Nat) : Nat :=
  if h : i < bytes.length then
    if bytes[i] = '\\'.toUInt8 then longEnd bytes (i + 2)
    else if quotesAt bytes i then i + 3
    else longEnd bytes (i + 1)
  else bytes.length
termination_by bytes.length - i

/-- The index behind an IRI whose `<` stands in front of an index. -/
def iriEnd? (bytes : List UInt8) (i : Nat) : Option Nat :=
  if h : i < bytes.length then
    if bytes[i] = '>'.toUInt8 then some (i + 1)
    else if isBlankByte bytes[i] then none
    else iriEnd? bytes (i + 1)
  else none
termination_by bytes.length - i

/-- The index behind the run that begins at an index, if one does. -/
def runEnd? (bytes : List UInt8) (i : Nat) : Option Nat :=
  if bytes[i]? = some '#'.toUInt8 then some (lineEnd bytes i)
  else if bytes[i]? = some '"'.toUInt8 then
    some (if quotesAt bytes i then longEnd bytes (i + 3) else shortEnd bytes (i + 1))
  else if bytes[i]? = some '<'.toUInt8 then iriEnd? bytes (i + 1)
  else none

/-! ### One step

Each measure by the byte at its index, and where it is at least. -/

variable {bytes : List UInt8} {i : Nat} {b : UInt8}

theorem lineEnd_step (h : bytes[i]? = some b) :
    lineEnd bytes i = if b = '\n'.toUInt8 then i else lineEnd bytes (i + 1) := by
  obtain ⟨hi, rfl⟩ := List.getElem?_eq_some_iff.mp h
  rw [lineEnd, dif_pos hi]

theorem shortEnd_step (h : bytes[i]? = some b) :
    shortEnd bytes i = if b = '\\'.toUInt8 then shortEnd bytes (i + 2)
      else if b = '"'.toUInt8 then i + 1 else if b = '\n'.toUInt8 then i
      else shortEnd bytes (i + 1) := by
  obtain ⟨hi, rfl⟩ := List.getElem?_eq_some_iff.mp h
  rw [shortEnd, dif_pos hi]

theorem longEnd_step (h : bytes[i]? = some b) :
    longEnd bytes i = if b = '\\'.toUInt8 then longEnd bytes (i + 2)
      else if quotesAt bytes i then i + 3 else longEnd bytes (i + 1) := by
  obtain ⟨hi, rfl⟩ := List.getElem?_eq_some_iff.mp h
  rw [longEnd, dif_pos hi]

theorem iriEnd?_step (h : bytes[i]? = some b) :
    iriEnd? bytes i = if b = '>'.toUInt8 then some (i + 1) else if isBlankByte b then none
      else iriEnd? bytes (i + 1) := by
  obtain ⟨hi, rfl⟩ := List.getElem?_eq_some_iff.mp h
  rw [iriEnd?, dif_pos hi]

theorem min_le_lineEnd (bytes : List UInt8) (i : Nat) :
    min i bytes.length ≤ lineEnd bytes i := by
  fun_induction lineEnd bytes i <;> omega

theorem min_le_shortEnd (bytes : List UInt8) (i : Nat) :
    min i bytes.length ≤ shortEnd bytes i := by
  fun_induction shortEnd bytes i <;> omega

theorem min_le_longEnd (bytes : List UInt8) (i : Nat) :
    min i bytes.length ≤ longEnd bytes i := by
  fun_induction longEnd bytes i <;> omega

theorem lt_iriEnd? {stop : Nat} (h : iriEnd? bytes i = some stop) : i < stop := by
  fun_induction iriEnd? bytes i with
  | case1 i hi hb => simp_all; omega
  | case2 i hi hb hblank => simp at h
  | case3 i hi hb hblank ih => have := ih h; omega
  | case4 i hi => simp at h

/-- A run is not empty. -/
theorem lt_runEnd? {stop : Nat} (h : runEnd? bytes i = some stop) : i < stop := by
  unfold runEnd? at h
  split at h
  · next hb =>
    obtain ⟨hi, -⟩ := List.getElem?_eq_some_iff.mp hb
    rw [lineEnd_step hb, if_neg (by decide)] at h
    have := min_le_lineEnd bytes (i + 1)
    cases h
    omega
  split at h
  · next hb =>
    obtain ⟨hi, -⟩ := List.getElem?_eq_some_iff.mp hb
    have hshort := min_le_shortEnd bytes (i + 1)
    have hlong := min_le_longEnd bytes (i + 3)
    cases h
    split <;> omega
  split at h
  · exact Nat.lt_of_succ_lt (lt_iriEnd? h)
  · cases h

/-- The spans of the runs of a text that begin at an index or behind it. -/
def rangesFrom (bytes : List UInt8) (i : Nat) : List Span :=
  if i < bytes.length then
    match h : runEnd? bytes i with
    | some stop => ⟨i, stop⟩ :: rangesFrom bytes stop
    | none => rangesFrom bytes (i + 1)
  else []
termination_by bytes.length - i
decreasing_by
  · have := lt_runEnd? h
    omega
  · omega

/-- The spans of the runs of a text, from its bytes. -/
def ranges (bytes : List UInt8) : List Span := rangesFrom bytes 0

/-! ### The bytes of a character -/

theorem ne_of_mem_utf8EncodeChar {c d : Char} (hd : d.val.toNat ≤ 127) (hne : c ≠ d)
    (h : b ∈ String.utf8EncodeChar c) : b ≠ d.toUInt8 := by
  rintro rfl
  exact hne (eq_of_mem_utf8EncodeChar hd h)

theorem ne_of_le {d : Char} (hd : d.val.toNat ≤ 127) (h : 128 ≤ b) : b ≠ d.toUInt8 := by
  rintro rfl
  rw [UInt8.le_iff_toNat_le, toNat_toUInt8 hd] at h
  exact absurd h (Nat.not_le_of_lt (Nat.lt_succ_of_le hd))

theorem le_of_isAsciiBlank {c : Char} (h : isAsciiBlank c = true) : c.val.toNat ≤ 127 := by
  simp only [isAsciiBlank, Bool.or_eq_true, beq_iff_eq] at h
  have : c.toNat = c.val.toNat := rfl
  omega

theorem isBlankByte_toUInt8 {c : Char} (h : isAsciiBlank c = true) :
    isBlankByte c.toUInt8 = true := by
  have hval : (Char.ofUInt8 c.toUInt8).val = c.toUInt8.toUInt32 := rfl
  have hchar : Char.ofUInt8 c.toUInt8 = c := by
    apply Char.toNat_inj.mp
    rw [← Char.toNat_val, hval, UInt8.toNat_toUInt32, toNat_toUInt8 (le_of_isAsciiBlank h)]
    rfl
  rw [isBlankByte, hchar, h]

/-- A byte of a character is blank only if the character is. -/
theorem isBlankByte_of_mem_utf8EncodeChar {c : Char} (hc : ¬isAsciiBlank c = true)
    (h : b ∈ String.utf8EncodeChar c) : isBlankByte b = false := by
  rw [← Bool.not_eq_true]
  intro hb
  have hbyte : (Char.ofUInt8 b).toUInt8 = b := UInt8.toUInt8_toUInt32 b
  rw [← hbyte] at h
  rw [eq_of_mem_utf8EncodeChar (le_of_isAsciiBlank hb) h] at hc
  exact hc hb

variable {x r : List Char} {c : Char}

theorem getElem?_size_add (x r : List Char) (k : Nat) :
    (encode (x ++ r))[size x + k]? = (encode r)[k]? := by
  rw [encode_append, List.getElem?_append_right (by simp), length_encode, Nat.add_sub_cancel_left]

/-- The byte at the place of a character of one byte. -/
theorem getElem?_size_iff {d : Char} (hd : d.val.toNat ≤ 127) (hbytes : bytes = encode (x ++ r)) :
    bytes[size x]? = some d.toUInt8 ↔ r.head? = some d := by
  have h := getElem?_size_add x r 0
  rw [Nat.add_zero, ← hbytes] at h
  rw [h]
  cases r with
  | nil => simp
  | cons c r =>
    obtain ⟨b, bs, hc⟩ := List.exists_cons_of_ne_nil (String.utf8EncodeChar_ne_nil (c := c))
    rw [encode_cons, hc, List.cons_append, List.getElem?_cons_zero, Option.some_inj,
      List.head?_cons, Option.some_inj]
    constructor
    · rintro rfl
      exact eq_of_mem_utf8EncodeChar hd (by simp [hc])
    · rintro rfl
      rw [utf8EncodeChar_of_le hd] at hc
      exact (List.cons.inj hc).1.symm

theorem size_concat (x : List Char) (c : Char) : size (x ++ [c]) = size x + c.utf8Size := by
  simp

theorem encode_shift (hbytes : bytes = encode (x ++ c :: r)) :
    bytes = encode ((x ++ [c]) ++ r) := by
  rw [hbytes, List.append_cons]

/-- Three quotes stand in the bytes where they stand in the text. -/
theorem quotesAt_encode (hbytes : bytes = encode (x ++ r)) :
    quotesAt bytes (size x) = startsTriple r := by
  have hshift : ∀ y : List Char, size y + 1 = size (y ++ ['"']) := fun y =>
    (size_concat y '"').symm
  rw [Bool.eq_iff_iff, startsTriple_iff]
  simp only [quotesAt, Bool.and_eq_true, beq_iff_eq]
  rw [hshift, show size x + 2 = size (x ++ ['"']) + 1 by rw [← hshift], hshift]
  constructor
  · rintro ⟨⟨h₁, h₂⟩, h₃⟩
    obtain ⟨r, rfl⟩ :=
      List.head?_eq_some_iff.mp ((getElem?_size_iff (by decide) hbytes).mp h₁)
    obtain ⟨r, rfl⟩ :=
      List.head?_eq_some_iff.mp ((getElem?_size_iff (by decide) (encode_shift hbytes)).mp h₂)
    obtain ⟨r, rfl⟩ := List.head?_eq_some_iff.mp
      ((getElem?_size_iff (by decide) (encode_shift (encode_shift hbytes))).mp h₃)
    exact ⟨r, rfl⟩
  · rintro ⟨r, rfl⟩
    exact ⟨⟨(getElem?_size_iff (by decide) hbytes).mpr rfl,
      (getElem?_size_iff (by decide) (encode_shift hbytes)).mpr rfl⟩,
      (getElem?_size_iff (by decide) (encode_shift (encode_shift hbytes))).mpr rfl⟩

section Character

variable (hbytes : bytes = encode (x ++ c :: r))
include hbytes

/-- At the place of a character its bytes stand, and behind the first of them there is none below
128. -/
theorem exists_byte (hle : size x ≤ i) (hlt : i < size x + c.utf8Size) :
    ∃ b, bytes[i]? = some b ∧ b ∈ String.utf8EncodeChar c ∧ (i = size x ∨ 128 ≤ b) := by
  obtain ⟨k, rfl⟩ := Nat.exists_eq_add_of_le hle
  have hk : k < (String.utf8EncodeChar c).length := by
    rw [String.length_utf8EncodeChar]
    omega
  have h := getElem?_size_add x (c :: r) k
  rw [← hbytes, encode_cons, List.getElem?_append_left hk, List.getElem?_eq_getElem hk] at h
  refine ⟨_, h, List.getElem_mem hk, ?_⟩
  cases k with
  | zero => exact .inl rfl
  | succ k =>
    right
    apply le_of_mem_tail_utf8EncodeChar (c := c)
    rw [← List.getElem_tail (by rw [List.length_tail]; omega)]
    exact List.getElem_mem _

/-- A scan that does nothing but go on at the bytes of a character comes out behind it. -/
theorem pass {α : Type} {f : Nat → α} {start : Nat} (hle : size x ≤ start)
    (hlt : start ≤ size x + c.utf8Size)
    (h : ∀ i b, start ≤ i → bytes[i]? = some b → b ∈ String.utf8EncodeChar c →
      (i = size x ∨ 128 ≤ b) → f i = f (i + 1)) : f start = f (size x + c.utf8Size) := by
  obtain ⟨n, hn⟩ := Nat.exists_eq_add_of_le hlt
  induction n generalizing start with
  | zero => rw [hn, Nat.add_zero]
  | succ n ih =>
    obtain ⟨b, hb, hmem, hge⟩ := exists_byte hbytes hle (by omega)
    rw [h start b (Nat.le_refl _) hb hmem hge]
    exact ih (by omega) (by omega) (fun i b hi => h i b (by omega)) (by omega)

/-- A scan that does nothing but go on at the bytes of a character comes out behind it. -/
theorem pass_all {α : Type} {f : Nat → α}
    (h : ∀ i b, bytes[i]? = some b → b ∈ String.utf8EncodeChar c → (i = size x ∨ 128 ≤ b) →
      f i = f (i + 1)) : f (size x) = f (size (x ++ [c])) := by
  rw [size_concat]
  exact pass hbytes (Nat.le_refl _) (Nat.le_add_right ..) fun i b _ => h i b

end Character

/-- A scan that goes over a backslash and the byte behind it comes out behind the character that
the byte belongs to. -/
theorem pass_escape {α : Type} {f : Nat → α} (hbytes : bytes = encode (x ++ '\\' :: c :: r))
    (h : ∀ i b, bytes[i]? = some b → 128 ≤ b → f i = f (i + 1)) :
    f (size x + 2) = f (size (x ++ ['\\'] ++ [c])) := by
  have hone : Char.utf8Size '\\' = 1 := rfl
  have hpos := c.utf8Size_pos
  have hsize : size (x ++ ['\\']) = size x + 1 := size_concat x '\\'
  rw [size_concat]
  exact pass (encode_shift hbytes) (by omega) (by omega) fun i b hi hb _ hge =>
    h i b hb (hge.resolve_left (by omega))

/-! ### Runs end where they end in the text -/

theorem getElem?_head {d : Char} (hd : d.val.toNat ≤ 127) (hbytes : bytes = encode (x ++ d :: r)) :
    bytes[size x]? = some d.toUInt8 :=
  (getElem?_size_iff hd hbytes).mpr rfl

theorem length_eq (hbytes : bytes = encode (x ++ [])) : bytes.length = size x := by
  rw [hbytes, List.append_nil, length_encode]

theorem lineEnd_encode (hbytes : bytes = encode (x ++ r)) :
    lineEnd bytes (size x) = size x + size (r.take (commentTail r)) := by
  induction r generalizing x with
  | nil =>
    have hlen := length_eq hbytes
    rw [lineEnd, dif_neg (by omega), hlen]
    rfl
  | cons c r ih =>
    by_cases hc : c = '\n'
    · subst hc
      rw [lineEnd_step (getElem?_head (by decide) hbytes), if_pos rfl]
      rfl
    · have hpass : lineEnd bytes (size x) = lineEnd bytes (size (x ++ [c])) :=
        pass_all hbytes fun i b hb hmem _ => by
          rw [lineEnd_step hb, if_neg (ne_of_mem_utf8EncodeChar (by decide) hc hmem)]
      rw [hpass, ih (encode_shift hbytes), commentTail_cons hc, List.take_succ_cons,
        size_concat, size_cons, Nat.add_assoc]

theorem shortEnd_encode (hbytes : bytes = encode (x ++ r)) :
    shortEnd bytes (size x) = size x + size (r.take (shortTail r)) := by
  fun_induction shortTail r generalizing x with
  | case1 =>
    have hlen := length_eq hbytes
    rw [shortEnd, dif_neg (by omega), hlen]
    rfl
  | case2 r =>
    rw [shortEnd_step (getElem?_head (by decide) hbytes), if_neg (by decide), if_pos rfl]
    rfl
  | case3 r =>
    rw [shortEnd_step (getElem?_head (by decide) hbytes), if_neg (by decide), if_neg (by decide),
      if_pos rfl]
    rfl
  | case4 =>
    -- the scan runs over the end of the text
    have hlen : bytes.length = size (x ++ ['\\']) := length_eq (encode_shift hbytes)
    have hsize : size (x ++ ['\\']) = size x + 1 := size_concat x '\\'
    rw [shortEnd_step (getElem?_head (by decide) hbytes), if_pos rfl, shortEnd,
      dif_neg (by omega), hlen, hsize]
    rfl
  | case5 d r _ _ ih =>
    have hpass : shortEnd bytes (size x + 2) = shortEnd bytes (size (x ++ ['\\'] ++ [d])) :=
      pass_escape hbytes fun i b hb hge => by
        rw [shortEnd_step hb, if_neg (ne_of_le (by decide) hge), if_neg (ne_of_le (by decide) hge),
          if_neg (ne_of_le (by decide) hge)]
    rw [shortEnd_step (getElem?_head (by decide) hbytes), if_pos rfl, hpass,
      ih (encode_shift (encode_shift hbytes))]
    simp [Nat.add_assoc]
  | case6 c r hq hn hb ih =>
    have hpass : shortEnd bytes (size x) = shortEnd bytes (size (x ++ [c])) :=
      pass_all hbytes fun i b hi hmem _ => by
        rw [shortEnd_step hi, if_neg (ne_of_mem_utf8EncodeChar (by decide) hb hmem),
          if_neg (ne_of_mem_utf8EncodeChar (by decide) hq hmem),
          if_neg (ne_of_mem_utf8EncodeChar (by decide) hn hmem)]
    rw [hpass, ih (encode_shift hbytes), List.take_succ_cons, size_concat, size_cons,
      Nat.add_assoc]

/-- Inside a character there are no three quotes. -/
theorem quotesAt_of_le (hb : bytes[i]? = some b) (hge : 128 ≤ b) : quotesAt bytes i = false := by
  have hne : bytes[i]? ≠ some '"'.toUInt8 := by
    rw [hb]
    exact fun h => ne_of_le (by decide) hge (Option.some.inj h)
  rw [quotesAt, beq_false_of_ne hne]
  rfl

theorem longEnd_encode (hbytes : bytes = encode (x ++ r)) :
    longEnd bytes (size x) = size x + size (r.take (longTail r)) := by
  fun_induction longTail r generalizing x with
  | case1 =>
    have hlen := length_eq hbytes
    rw [longEnd, dif_neg (by omega), hlen]
    rfl
  | case2 =>
    have hlen : bytes.length = size (x ++ ['\\']) := length_eq (encode_shift hbytes)
    have hsize : size (x ++ ['\\']) = size x + 1 := size_concat x '\\'
    rw [longEnd_step (getElem?_head (by decide) hbytes), if_pos rfl, longEnd,
      dif_neg (by omega), hlen, hsize]
    rfl
  | case3 d r ih =>
    have hpass : longEnd bytes (size x + 2) = longEnd bytes (size (x ++ ['\\'] ++ [d])) :=
      pass_escape hbytes fun i b hb hge => by
        rw [longEnd_step hb, if_neg (ne_of_le (by decide) hge), quotesAt_of_le hb hge,
          if_neg Bool.false_ne_true]
    rw [longEnd_step (getElem?_head (by decide) hbytes), if_pos rfl, hpass,
      ih (encode_shift (encode_shift hbytes))]
    simp [Nat.add_assoc]
  | case4 c r _ ht =>
    have hquotes := quotesAt_encode hbytes
    obtain ⟨r, hr⟩ := startsTriple_iff.mp ht
    obtain ⟨rfl, rfl⟩ := List.cons.inj hr
    rw [longEnd_step (getElem?_head (by decide) hbytes), if_neg (by decide), hquotes, if_pos ht]
    rfl
  | case5 c r hb ht ih =>
    have hquotes := quotesAt_encode hbytes
    have hpass : longEnd bytes (size x) = longEnd bytes (size (x ++ [c])) :=
      pass_all hbytes fun i b hi hmem hge => by
        have hnone : quotesAt bytes i = false := by
          rcases hge with rfl | hge
          · rw [hquotes, Bool.eq_false_iff]
            exact ht
          · exact quotesAt_of_le hi hge
        rw [longEnd_step hi, if_neg (ne_of_mem_utf8EncodeChar (by decide) hb hmem), hnone,
          if_neg Bool.false_ne_true]
    rw [hpass, ih (encode_shift hbytes), List.take_succ_cons, size_concat, size_cons,
      Nat.add_assoc]

theorem iriEnd?_encode (hbytes : bytes = encode (x ++ r)) :
    iriEnd? bytes (size x) = (iriTail? r).map fun n => size x + size (r.take n) := by
  fun_induction iriTail? r generalizing x with
  | case1 =>
    have hlen := length_eq hbytes
    rw [iriEnd?, dif_neg (by omega)]
    rfl
  | case2 r =>
    rw [iriEnd?_step (getElem?_head (by decide) hbytes), if_pos rfl]
    rfl
  | case3 c r hc hblank =>
    have hhead := getElem?_head (le_of_isAsciiBlank hblank) hbytes
    have hmem : c.toUInt8 ∈ String.utf8EncodeChar c := by
      rw [utf8EncodeChar_of_le (le_of_isAsciiBlank hblank)]
      exact List.mem_singleton_self _
    rw [iriEnd?_step hhead, if_neg (ne_of_mem_utf8EncodeChar (by decide) hc hmem),
      isBlankByte_toUInt8 hblank]
    rfl
  | case4 c r hc hblank ih =>
    have hpass : iriEnd? bytes (size x) = iriEnd? bytes (size (x ++ [c])) :=
      pass_all hbytes fun i b hi hmem _ => by
        rw [iriEnd?_step hi, if_neg (ne_of_mem_utf8EncodeChar (by decide) hc hmem),
          isBlankByte_of_mem_utf8EncodeChar hblank hmem,
          if_neg Bool.false_ne_true]
    rw [hpass, ih (encode_shift hbytes), Option.map_map]
    congr 1
    funext n
    simp [Nat.add_assoc]

/-- **A run ends at the same place in a text and in its bytes.** -/
theorem runEnd?_encode (hbytes : bytes = encode (x ++ c :: r)) :
    runEnd? bytes (size x)
      = (opening c r).map fun run => size x + size (c :: r.take run.2) := by
  have hhead : ∀ d : Char, d.val.toNat ≤ 127 → (bytes[size x]? = some d.toUInt8 ↔ c = d) :=
    fun d hd => by rw [getElem?_size_iff hd hbytes, List.head?_cons, Option.some_inj]
  have hshift := encode_shift hbytes
  simp only [runEnd?, hhead '#' (by decide), hhead '"' (by decide), hhead '<' (by decide),
    opening]
  split
  · next hc =>
    subst hc
    rw [lineEnd_encode hbytes, commentTail_cons (by decide)]
    rfl
  split
  · next hc =>
    subst hc
    rw [quotesAt_encode hbytes]
    split
    · next ht =>
      obtain ⟨r, hr⟩ := startsTriple_iff.mp ht
      obtain ⟨-, rfl⟩ := List.cons.inj hr
      have hsize : size (x ++ ['"'] ++ ['"'] ++ ['"']) = size x + 3 := by
        simp only [size_concat]
        rfl
      rw [← hsize, longEnd_encode (encode_shift (encode_shift hshift)), Option.map_some,
        List.drop_succ_cons, List.drop_succ_cons, List.drop_zero, List.take_succ_cons,
        List.take_succ_cons]
      simp [Nat.add_assoc]
    · have hsize : size (x ++ ['"']) = size x + 1 := size_concat x '"'
      rw [← hsize, shortEnd_encode hshift]
      simp [Nat.add_assoc]
  split
  · next hc =>
    subst hc
    have hsize : size (x ++ ['<']) = size x + 1 := size_concat x '<'
    rw [← hsize, iriEnd?_encode hshift, Option.map_map]
    simp [Function.comp_def, Nat.add_assoc]
  · rfl

/-! ### All runs -/

theorem rangesFrom_run {stop : Nat} (h : runEnd? bytes i = some stop) (hi : i < bytes.length) :
    rangesFrom bytes i = ⟨i, stop⟩ :: rangesFrom bytes stop := by
  rw [rangesFrom, if_pos hi]
  split
  · next stop' h' =>
    obtain rfl := Option.some.inj (h.symm.trans h')
    rfl
  · next h' => cases h.symm.trans h'

theorem rangesFrom_plain (h : runEnd? bytes i = none) (hi : i < bytes.length) :
    rangesFrom bytes i = rangesFrom bytes (i + 1) := by
  rw [rangesFrom, if_pos hi]
  split
  · next h' => cases h.symm.trans h'
  · rfl

/-- Inside a character no run begins. -/
theorem runEnd?_of_le (hb : bytes[i]? = some b) (hge : 128 ≤ b) : runEnd? bytes i = none := by
  have hne : ∀ d : Char, d.val.toNat ≤ 127 → bytes[i]? ≠ some d.toUInt8 := by
    intro d hd h
    rw [hb] at h
    exact ne_of_le hd hge (Option.some.inj h)
  rw [runEnd?, if_neg (hne _ (by decide)), if_neg (hne _ (by decide)), if_neg (hne _ (by decide))]

theorem rangesFrom_encode (hbytes : bytes = encode (x ++ r)) :
    rangesFrom bytes (size x) = Turtle.rangesFrom (size x) (segments r) := by
  fun_induction segments r generalizing x with
  | case1 =>
    have hlen := length_eq hbytes
    rw [rangesFrom, if_neg (by omega)]
    rfl
  | case2 c r ho ih =>
    have hrun := runEnd?_encode hbytes
    rw [ho, Option.map_none] at hrun
    have hpass : rangesFrom bytes (size x) = rangesFrom bytes (size (x ++ [c])) :=
      pass_all hbytes fun i b hi _ hge => by
        obtain ⟨hlt, -⟩ := List.getElem?_eq_some_iff.mp hi
        rcases hge with rfl | hge
        · exact rangesFrom_plain hrun hlt
        · exact rangesFrom_plain (runEnd?_of_le hi hge) hlt
    rw [hpass, ih (encode_shift hbytes), size_concat]
    rfl
  | case3 c r k n ho ih =>
    have hrun := runEnd?_encode hbytes
    rw [ho, Option.map_some] at hrun
    have hlt : size x < bytes.length := by
      have := c.utf8Size_pos
      rw [hbytes, length_encode, size_append, size_cons]
      omega
    have hrest : bytes = encode ((x ++ c :: r.take n) ++ r.drop n) := by
      rw [hbytes, List.append_assoc, List.cons_append, List.take_append_drop]
    rw [rangesFrom_run hrun hlt, ← size_append, ih hrest, size_append]
    rfl

/-- **The scan of the bytes of a text finds the runs of the text.** -/
theorem ranges_encode (text : List Char) : ranges (encode text) = inertRanges text :=
  rangesFrom_encode (x := []) rfl

end Bytewise

/-! ### The spans of a text -/

/-- A span of a run is not empty and consists of whole characters. -/
theorem exists_cut_of_mem_inertRanges {text : List Char} {s : Span} (h : s ∈ inertRanges text) :
    ∃ x y z, text = x ++ (y ++ z) ∧ y ≠ [] ∧ s = ⟨size x, size x + size y⟩ := by
  obtain ⟨s₁, k, t, s₂, hs, rfl⟩ := exists_of_mem_rangesFrom h
  have htext : text = textOf s₁ ++ (t ++ textOf s₂) := by
    rw [← textOf_segments text, hs, textOf_append]
    rfl
  have hne : (Segment.inert k t).text ≠ [] := text_ne_nil_of_mem_segments (by rw [hs]; simp)
  exact ⟨textOf s₁, t, textOf s₂, htext, hne, by rw [Nat.zero_add]⟩

/-- **The runs of a text are in order.**  They are those that are found byte by byte.  None of them
is empty, each begins and ends between two characters of the text, and each begins and ends in
front of the next one and has no offset in common with it.  Binary search finds out whether an
offset lies in a run. -/
theorem inertRanges_ordered (text : List Char) :
    Bytewise.ranges (encode text) = inertRanges text
      ∧ (∀ s ∈ inertRanges text, s.start < s.stop ∧ s.stop ≤ size text
        ∧ ∃ x y z, text = x ++ (y ++ z) ∧ s = ⟨size x, size x + size y⟩)
      ∧ (inertRanges text).Pairwise (fun s t => s.start < t.start ∧ s.stop < t.stop
        ∧ ∀ n, s.Contains n → ¬t.Contains n)
      ∧ ∀ n, Spans.contains (inertRanges text).toArray n = true
        ↔ ∃ s ∈ inertRanges text, s.start ≤ n ∧ n < s.stop := by
  have hcut : ∀ s ∈ inertRanges text, s.start < s.stop ∧ s.stop ≤ size text
      ∧ ∃ x y z, text = x ++ (y ++ z) ∧ s = ⟨size x, size x + size y⟩ := by
    intro s hs
    obtain ⟨x, y, z, htext, hy, rfl⟩ := exists_cut_of_mem_inertRanges hs
    have hpos := size_pos hy
    have hsize := congrArg size htext
    rw [size_append, size_append] at hsize
    exact ⟨by simp only; omega, by simp only; omega, x, y, z, htext, rfl⟩
  refine ⟨Bytewise.ranges_encode text, hcut, ?_, fun n => contains_inertRanges_iff⟩
  refine (inertRuns text).pairwise.imp_of_mem fun {s t} hs ht hle => ?_
  have hs' := (hcut s hs).1
  have ht' := (hcut t ht).1
  refine ⟨by omega, by omega, fun n hn hn' => ?_⟩
  have := hn.2
  have := hn'.1
  omega

/-- A literal with a hidden character of two bytes, a `<` that opens no IRI, a comment, and a
literal that a backslash at the end of the text leaves open. -/
def openEscape : List Char := "é \"\\é\" <a b> # ü\n\"\\".toList

/-- The scan goes over the end of this text and still ends its last run with it. -/
theorem openEscape_runs :
    inertRanges openEscape = [⟨3, 8⟩, ⟨15, 19⟩, ⟨20, 22⟩] ∧ size openEscape = 22
      ∧ Bytewise.ranges (encode openEscape) = [⟨3, 8⟩, ⟨15, 19⟩, ⟨20, 22⟩]
      ∧ (∃ x y z, openEscape = x ++ (y ++ z) ∧ (⟨3, 8⟩ : Span) = ⟨size x, size x + size y⟩)
      ∧ ∀ n, Spans.contains (inertRanges openEscape).toArray n = true
        ↔ (3 ≤ n ∧ n < 8) ∨ (15 ≤ n ∧ n < 19) ∨ 20 ≤ n ∧ n < 22 := by
  have hruns : inertRanges openEscape = [⟨3, 8⟩, ⟨15, 19⟩, ⟨20, 22⟩] := by decide +kernel
  obtain ⟨hscan, hcut, -, hcontains⟩ := inertRanges_ordered openEscape
  refine ⟨hruns, rfl, hscan.trans hruns, (hcut ⟨3, 8⟩ (by rw [hruns]; simp)).2.2, ?_⟩
  intro n
  rw [hcontains, hruns]
  simp

end FormOntology.Turtle
