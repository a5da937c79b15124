/-!
# Digests

The digest of a byte string is its 64-bit FNV-1a hash.  It tells one content of a document from
another and one compiled schema from another; it is no protection against forgery.

## Main definitions

* `Digest` — a hash value.
* `Digest.ofBytes`, `Digest.ofString` — the digest of bytes and of the UTF-8 encoding of a string.
* `Digest.text` — how a digest is written: `fnv1a64:` and sixteen lower-case hexadecimal digits.
-/

namespace FormOntology

/-- A 64-bit FNV-1a hash. -/
structure Digest where
  /-- The hash value. -/
  hash : UInt64
  deriving DecidableEq, Repr, Inhabited

namespace Digest

/-- The digest of the empty byte string. -/
def empty : Digest := ⟨0xcbf29ce484222325⟩

/-- The digest after one more byte. -/
def push (d : Digest) (b : UInt8) : Digest := ⟨(d.hash ^^^ b.toUInt64) * 0x100000001b3⟩

/-- The digest of a byte string: the program's `fnv1a64_digest_bytes`. -/
def ofBytes (bytes : List UInt8) : Digest := bytes.foldl push empty

/-- The digest of the UTF-8 encoding of a string. -/
def ofString (s : String) : Digest := ofBytes s.toUTF8.data.toList

@[simp] theorem ofBytes_nil : ofBytes [] = empty := rfl

/-- The last `width` hexadecimal digits of `n`, in lower case. -/
def hex : Nat → Nat → List Char
  | 0, _ => []
  | width + 1, n => hex width (n / 16) ++ [(n % 16).digitChar]

@[simp] theorem length_hex (width n : Nat) : (hex width n).length = width := by
  induction width generalizing n with
  | zero => rfl
  | succ w ih => simp [hex, ih]

/-- How a digest is written. -/
def text (d : Digest) : String := "fnv1a64:" ++ String.ofList (hex 16 d.hash.toNat)

end Digest

end FormOntology
