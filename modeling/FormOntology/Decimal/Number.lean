import FormOntology.Decimal.Dyadic

/-!
# Decimal numbers in form values

A form value is a number when it is an optional sign, digits with an optional decimal point among
or around them, and an optional exponent, and when it does not round to infinity.

## Main definitions

* `NumberParts`, `numberParts?` — the parts of a written number.
* `isFiniteNumber` — whether a text is a number that double precision can hold.
-/

namespace FormOntology

/-- The parts of a written number. -/
structure NumberParts where
  /-- The digits on both sides of the point. -/
  digits : List Char
  /-- The power of ten that the digits as one number are multiplied with. -/
  exponent : Int
  deriving DecidableEq, Repr, Inhabited

/-- The value of decimal digits. -/
def decimalValue (digits : List Char) : Nat :=
  digits.foldl (fun n c => 10 * n + (c.toNat - 48)) 0

/-- A text without the sign at its start, and whether that was a minus. -/
def splitSign (text : List Char) : Bool × List Char :=
  match text with
  | '-' :: r => (true, r)
  | '+' :: r => (false, r)
  | _ => (false, text)

/-- The exponent that a text is, when it is empty or begins with `e`. -/
def exponentPart? (text : List Char) : Option Int :=
  match text with
  | [] => some 0
  | c :: r =>
    let (negative, digits) := splitSign r
    if (c = 'e' ∨ c = 'E') ∧ digits ≠ [] ∧ digits.all Char.isDigit then
      let n : Int := decimalValue digits
      some (if negative then -n else n)
    else none

/-- The parts of a written number. -/
def numberParts? (text : List Char) : Option NumberParts :=
  let text := (splitSign text).2
  let whole := text.takeWhile Char.isDigit
  let rest := text.dropWhile Char.isDigit
  let (fraction, rest) :=
    match rest with
    | '.' :: r => (r.takeWhile Char.isDigit, r.dropWhile Char.isDigit)
    | _ => ([], rest)
  if whole.isEmpty && fraction.isEmpty then none
  else (exponentPart? rest).map fun e => ⟨whole ++ fraction, e - fraction.length⟩

/-- Whether a number does not round to infinity.  A number below `10 ^ 300` is never too large and
one from `10 ^ 310` on always is. -/
def NumberParts.isFinite (p : NumberParts) : Bool :=
  let digits := p.digits.dropWhile (· == '0')
  let point := (digits.length : Int) + p.exponent
  if digits.isEmpty || point ≤ 300 then true
  else if 310 < point then false
  else
    let n := decimalValue digits
    let ratio := if 0 ≤ p.exponent then (n * Nat.pow 10 p.exponent.toNat, 1)
      else (n, Nat.pow 10 (-p.exponent).toNat)
    (Dyadic.ofRatio? ratio.1 ratio.2).isSome

/-- Whether a text is a number that double precision can hold. -/
def isFiniteNumber (text : List Char) : Bool := (numberParts? text).any NumberParts.isFinite

end FormOntology
