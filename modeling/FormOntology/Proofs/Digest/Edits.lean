import Mathlib.Algebra.Group.Nat.Defs
import Mathlib.Logic.Function.Defs
import FormOntology.Digest

/-!
# Digests and edits of one byte

The factor of a step of the hash is odd, so it has an inverse among the 64-bit numbers and a step
loses nothing: it tells the digests in front of it apart, and the bytes.  Two byte strings that
differ in one byte differ behind that byte, whatever follows, and a digest is told by how it is
written.

## Main results

* `Digest.push_left_inj`, `Digest.push_right_inj` — a step loses nothing.
* `Digest.foldl_push_inj` — nor do the bytes that follow.
* `Digest.text_injective` — a digest is told by how it is written.
* `Digest.ofBytes_edit_inj` — **two byte strings that differ in one byte at most have one digest
  only if they do not differ.**
-/

namespace FormOntology.Digest

/-! ### Steps -/

/-- Multiplying by the factor of a step can be undone, since the factor has an inverse. -/
theorem mul_factor_inj {x y : UInt64} : x * 0x100000001b3 = y * 0x100000001b3 ↔ x = y := by
  have hinv : (0x100000001b3 : UInt64) * 0xce965057aff6957b = 1 := by decide
  refine ⟨fun h => ?_, fun h => h ▸ rfl⟩
  have h' := congrArg (· * (0xce965057aff6957b : UInt64)) h
  simpa only [UInt64.mul_assoc, hinv, UInt64.mul_one] using h'

/-- Different digests stay different behind one byte. -/
theorem push_left_inj {d e : Digest} (b : UInt8) : d.push b = e.push b ↔ d = e := by
  rw [push, push, mk.injEq, mul_factor_inj, UInt64.xor_left_inj]
  exact ⟨fun h => congrArg mk h, fun h => h ▸ rfl⟩

/-- Different bytes behind one digest make different digests. -/
theorem push_right_inj (d : Digest) {a b : UInt8} : d.push a = d.push b ↔ a = b := by
  rw [push, push, mk.injEq, mul_factor_inj, UInt64.xor_right_inj, UInt8.toUInt64_inj]

/-- Different digests stay different behind the same bytes. -/
theorem foldl_push_inj {d e : Digest} (bytes : List UInt8) :
    bytes.foldl push d = bytes.foldl push e ↔ d = e := by
  induction bytes generalizing d e with
  | nil => rfl
  | cons b bytes ih => rw [List.foldl_cons, List.foldl_cons, ih, push_left_inj]

/-- **Two byte strings that differ in one byte at most have one digest only if they do not
differ.** -/
theorem ofBytes_edit_inj {u v : List UInt8} {a b : UInt8} :
    ofBytes (u ++ a :: v) = ofBytes (u ++ b :: v) ↔ a = b := by
  rw [ofBytes, ofBytes, List.foldl_append, List.foldl_append, List.foldl_cons, List.foldl_cons,
    foldl_push_inj, push_right_inj]

/-! ### The written form -/

theorem digitChar_inj {m n : Nat} (hm : m < 16) (hn : n < 16) :
    m.digitChar = n.digitChar ↔ m = n := by
  have hall : ∀ m < 16, ∀ n < 16, m.digitChar = n.digitChar → m = n := by decide
  exact ⟨hall m hm n hn, fun h => h ▸ rfl⟩

/-- A number that has no more digits than are written is told by them. -/
theorem hex_inj {width m n : Nat} (hm : m < 16 ^ width) (hn : n < 16 ^ width) :
    hex width m = hex width n ↔ m = n := by
  induction width generalizing m n with
  | zero =>
    rw [Nat.pow_zero] at hm hn
    exact ⟨fun _ => by omega, fun _ => rfl⟩
  | succ w ih =>
    rw [Nat.pow_succ] at hm hn
    refine ⟨fun h => ?_, fun h => h ▸ rfl⟩
    rw [hex, hex] at h
    obtain ⟨hfront, hlast⟩ := List.append_inj h (by rw [length_hex, length_hex])
    have hdiv : m / 16 = n / 16 := (ih (by omega) (by omega)).mp hfront
    have hmod : m % 16 = n % 16 := (digitChar_inj (by omega) (by omega)).mp (List.cons.inj hlast).1
    omega

theorem hash_lt (d : Digest) : d.hash.toNat < 16 ^ 16 :=
  Nat.lt_of_lt_of_eq d.hash.toNat_lt (by decide)

/-- A digest is told by how it is written. -/
theorem text_injective : Function.Injective text := by
  intro d e h
  have hlist := congrArg String.toList h
  simp only [text, String.toList_append, String.toList_ofList, List.append_right_inj] at hlist
  have hhash : d.hash.toNat = e.hash.toNat := (hex_inj d.hash_lt e.hash_lt).mp hlist
  exact congrArg mk (UInt64.toNat_inj.mp hhash)

end FormOntology.Digest
