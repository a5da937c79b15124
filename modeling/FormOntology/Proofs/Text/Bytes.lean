import Mathlib.Data.List.Basic
import FormOntology.Text.Offset

/-!
# Strings, texts and their bytes

Strings are compared by their characters.  The UTF-8 encoding keeps this order: the first byte of
a character is the greater the more bytes there are, and the encodings of two characters of one
length are compared as the characters are.  The bytes of a text are its encoding, in which a line
feed is told by its byte.

## Main definitions

* `bytes` — the bytes of a string.
* `encode` — the bytes of a text.

## Main results

* `encode_append_lt` — the encoding of a lesser character is in front, whatever stands behind.
* `bytes_lt_bytes` — **the bytes of a lesser string are in front.**
* `eq_of_mem_utf8EncodeChar`, `le_of_mem_tail_utf8EncodeChar` — a byte below 128 is a character.
* `mem_of_mem_encode` — the byte of a line feed belongs to a line feed.
* `fromUTF8?_eq_some_iff`, `fromUTF8?_encode` — the bytes of a text are read as the text.
-/

namespace FormOntology.Text

/-- The bytes of a string. -/
def bytes (s : String) : List UInt8 := s.toUTF8.data.toList

theorem bytes_eq (s : String) : bytes s = s.toList.flatMap String.utf8EncodeChar := by
  conv_lhs => rw [← String.ofList_toList (s := s)]
  rw [bytes, String.toUTF8, String.toByteArray_ofList]
  simp [List.utf8Encode]

theorem toNat_val_lt (c : Char) : c.val.toNat < 0x110000 := by
  rcases c.valid with h | h <;> omega

theorem ofNat_lt_ofNat_iff {m n : Nat} (hm : m < 256) (hn : n < 256) :
    UInt8.ofNat m < UInt8.ofNat n ↔ m < n := by
  rw [UInt8.lt_iff_toNat_lt, UInt8.toNat_ofNat_of_lt' hm, UInt8.toNat_ofNat_of_lt' hn]

theorem ofNat_inj_iff {m n : Nat} (hm : m < 256) (hn : n < 256) :
    UInt8.ofNat m = UInt8.ofNat n ↔ m = n := by
  rw [← UInt8.toNat_inj, UInt8.toNat_ofNat_of_lt' hm, UInt8.toNat_ofNat_of_lt' hn]

/-- Numbers are compared by their leading digits, then by the last one. -/
theorem div_lt_or_of_lt {m n : Nat} (h : m < n) (k : Nat) :
    m / k < n / k ∨ m / k = n / k ∧ m % k < n % k := by
  rcases Nat.lt_or_eq_of_le (Nat.div_le_div_right (c := k) (Nat.le_of_lt h)) with hlt | heq
  · exact .inl hlt
  · refine .inr ⟨heq, ?_⟩
    have hm := Nat.div_add_mod m k
    have hn := Nat.div_add_mod n k
    rw [heq] at hm
    omega

theorem encode_append_lt {c d : Char} (h : c < d) (x y : List UInt8) :
    String.utf8EncodeChar c ++ x < String.utf8EncodeChar d ++ y := by
  have hlt : c.val.toNat < d.val.toNat := h
  have hd := toNat_val_lt d
  unfold String.utf8EncodeChar
  generalize c.val.toNat = m at hlt
  generalize d.val.toNat = n at hlt hd
  have hlast := div_lt_or_of_lt hlt 64
  have hthird : m / 64 < n / 64 → m / 4096 < n / 4096
      ∨ m / 4096 = n / 4096 ∧ m / 64 % 64 < n / 64 % 64 := by
    intro h
    simpa only [Nat.div_div_eq_div_mul] using div_lt_or_of_lt h 64
  have hsecond : m / 4096 < n / 4096 → m / 262144 < n / 262144
      ∨ m / 262144 = n / 262144 ∧ m / 4096 % 64 < n / 4096 % 64 := by
    intro h
    simpa only [Nat.div_div_eq_div_mul] using div_lt_or_of_lt h 64
  have hm : m / 262144 % 8 = m / 262144 := Nat.mod_eq_of_lt (by omega)
  have hn : n / 262144 % 8 = n / 262144 := Nat.mod_eq_of_lt (by omega)
  simp only [hm, hn]
  -- a character with fewer bytes has a lesser first byte
  split_ifs <;>
    simp (disch := omega) only [List.cons_append, List.nil_append, List.cons_lt_cons_iff,
      ofNat_lt_ofNat_iff, ofNat_inj_iff] <;>
    omega

theorem flatMap_encode_lt {x y : List Char} (h : x < y) :
    x.flatMap String.utf8EncodeChar < y.flatMap String.utf8EncodeChar := by
  induction h with
  | @nil c y =>
    obtain ⟨b, r, hb⟩ := List.exists_cons_of_ne_nil (String.utf8EncodeChar_ne_nil (c := c))
    rw [List.flatMap_nil, List.flatMap_cons, hb]
    exact List.nil_lt_cons b _
  | rel h => simpa only [List.flatMap_cons] using encode_append_lt h _ _
  | cons h ih => simpa only [List.flatMap_cons] using List.append_left_lt ih

/-- **The bytes of a lesser string are in front.** -/
theorem bytes_lt_bytes {s t : String} (h : s < t) : bytes s < bytes t := by
  rw [bytes_eq, bytes_eq]
  exact flatMap_encode_lt h

/-! ### The bytes of a text -/

/-- The bytes of the UTF-8 encoding of a text. -/
def encode (text : List Char) : List UInt8 := text.flatMap String.utf8EncodeChar

@[simp] theorem encode_nil : encode [] = [] := rfl

theorem encode_cons (c : Char) (r : List Char) :
    encode (c :: r) = String.utf8EncodeChar c ++ encode r := rfl

@[simp] theorem encode_append (x y : List Char) : encode (x ++ y) = encode x ++ encode y :=
  List.flatMap_append

@[simp] theorem length_encode (text : List Char) : (encode text).length = size text := by
  induction text with
  | nil => rfl
  | cons c r ih => rw [encode_cons, List.length_append, String.length_utf8EncodeChar, ih, size_cons]

theorem encode_replicate_space (n : Nat) :
    encode (List.replicate n ' ') = List.replicate n 32 := by
  induction n with
  | zero => rfl
  | succ n ih => rw [List.replicate_succ, List.replicate_succ, encode_cons, ih]; rfl

/-- A character of more than one byte has none below 128. -/
theorem le_of_mem_utf8EncodeChar {c : Char} (hc : 127 < c.val.toNat) {b : UInt8}
    (h : b ∈ String.utf8EncodeChar c) : 128 ≤ b := by
  have hlt := toNat_val_lt c
  have hge : ∀ n, 128 ≤ n → n < 256 → 128 ≤ UInt8.ofNat n := by
    intro n hn hn'
    rw [UInt8.le_iff_toNat_le, UInt8.toNat_ofNat_of_lt' hn']
    exact hn
  unfold String.utf8EncodeChar at h
  generalize c.val.toNat = m at h hc hlt
  simp only [if_neg (Nat.not_le_of_lt hc)] at h
  split_ifs at h <;> simp only [List.mem_cons, List.not_mem_nil, or_false] at h
  · rcases h with rfl | rfl <;> exact hge _ (by omega) (by omega)
  · rcases h with rfl | rfl | rfl <;> exact hge _ (by omega) (by omega)
  · rcases h with rfl | rfl | rfl | rfl <;> exact hge _ (by omega) (by omega)

theorem utf8EncodeChar_of_le {c : Char} (hc : c.val.toNat ≤ 127) :
    String.utf8EncodeChar c = [c.toUInt8] :=
  String.utf8EncodeChar_eq_singleton (Char.utf8Size_eq_one_iff.mpr hc)

theorem toNat_toUInt8 {c : Char} (hc : c.val.toNat ≤ 127) : c.toUInt8.toNat = c.val.toNat := by
  rw [Char.toUInt8, UInt32.toNat_toUInt8]
  omega

/-- The byte of a character that has only one belongs to no other character. -/
theorem eq_of_mem_utf8EncodeChar {c d : Char} (hd : d.val.toNat ≤ 127)
    (h : d.toUInt8 ∈ String.utf8EncodeChar c) : c = d := by
  have hbyte := toNat_toUInt8 hd
  rcases Nat.lt_or_ge 127 c.val.toNat with hc | hc
  · have hle : 128 ≤ d.toUInt8.toNat := le_of_mem_utf8EncodeChar hc h
    omega
  · rw [utf8EncodeChar_of_le hc, List.mem_singleton, ← UInt8.toNat_inj, hbyte,
      toNat_toUInt8 hc] at h
    exact Char.toNat_inj.mp h.symm

/-- Behind its first byte a character has none below 128. -/
theorem le_of_mem_tail_utf8EncodeChar {c : Char} {b : UInt8}
    (h : b ∈ (String.utf8EncodeChar c).tail) : 128 ≤ b := by
  rcases Nat.lt_or_ge 127 c.val.toNat with hc | hc
  · exact le_of_mem_utf8EncodeChar hc (List.mem_of_mem_tail h)
  · rw [utf8EncodeChar_of_le hc] at h
    simp at h

/-- The byte of a line feed belongs to a line feed. -/
theorem mem_of_mem_encode {text : List Char} (h : 10 ∈ encode text) : '\n' ∈ text := by
  obtain ⟨c, hc, hten⟩ := List.mem_flatMap.mp h
  rw [eq_of_mem_utf8EncodeChar (d := '\n') (by decide) hten] at hc
  exact hc

/-- Bytes are read as a string exactly if they are the encoding of it. -/
theorem fromUTF8?_eq_some_iff {bytes : ByteArray} {s : String} :
    String.fromUTF8? bytes = some s ↔ bytes = s.toUTF8 := by
  rw [String.fromUTF8?]
  constructor
  · intro h
    split at h
    · cases h
      rfl
    · cases h
  · rintro rfl
    exact dif_pos s.isValidUTF8

/-- The bytes of a text are read as the text. -/
theorem fromUTF8?_encode (text : List Char) :
    String.fromUTF8? (encode text).toByteArray = some (String.ofList text) := by
  rw [fromUTF8?_eq_some_iff, String.toUTF8_eq_toByteArray, String.toByteArray_ofList]
  rfl

end FormOntology.Text
