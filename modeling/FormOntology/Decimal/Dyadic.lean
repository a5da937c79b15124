/-!
# Numbers of double precision

The finite numbers of double precision are the products of a mantissa below 2⁵³ and a power of two
from 2⁻¹⁰⁷⁴ to 2⁹⁷¹.  A ratio of natural numbers is rounded to the nearest of them, and a ratio
halfway between two to the one with an even mantissa.  A number is written with the fewest decimal
digits that read back as the same number, and of those with the digits nearest to it.

## Main definitions

* `Dyadic` — a mantissa and an exponent of two.
* `Dyadic.ofRatio?` — the nearest number of double precision to a ratio, if that is finite.
* `Dyadic.mul?`, `Dyadic.div?` — rounded product and quotient.
* `Decimal` — digits and the place of the decimal point.
* `Dyadic.shortest` — the shortest decimal that reads back.
* `Double`, `Double.chars` — a number with its sign, and how it is written: with a decimal point for
  exponents of ten from -5 to 15, and otherwise with one digit in front of the point and a signed
  exponent.
-/

namespace FormOntology

/-! ### Rounding -/

/-- The number `mantissa * 2 ^ exponent`. -/
structure Dyadic where
  /-- The mantissa. -/
  mantissa : Nat
  /-- The exponent of two. -/
  exponent : Int
  deriving DecidableEq, Repr, Inhabited

namespace Dyadic

/-- The least exponent. -/
def minExponent : Int := -1074

/-- The greatest exponent. -/
def maxExponent : Int := 971

/-- Zero. -/
def zero : Dyadic := ⟨0, minExponent⟩

/-- A quotient rounded to the nearest natural number, halves to the even one. -/
def roundQuotient (num den : Nat) : Nat :=
  let q := num / den
  let r := num % den
  if 2 * r > den || (2 * r == den && q % 2 == 1) then q + 1 else q

/-- `num / den * 2 ^ shift` as a ratio. -/
def scale (num den : Nat) (shift : Int) : Nat × Nat :=
  if 0 ≤ shift then (num * Nat.pow 2 shift.toNat, den)
  else (num, den * Nat.pow 2 (-shift).toNat)

/-- The nearest number of double precision to `num / den`, if it is finite; `den` is not zero. -/
def ofRatio? (num den : Nat) : Option Dyadic :=
  if num = 0 then some zero
  else
    let guess := max ((Nat.log2 num : Int) - Nat.log2 den - 53) minExponent
    let (n, d) := scale num den (-guess)
    let exponent := if Nat.pow 2 53 ≤ n / d then guess + 1 else guess
    let (n, d) := scale num den (-exponent)
    let mantissa := roundQuotient n d
    let rounded : Dyadic :=
      if mantissa = Nat.pow 2 53 then ⟨Nat.pow 2 52, exponent + 1⟩ else ⟨mantissa, exponent⟩
    if rounded.exponent ≤ maxExponent then some rounded else none

/-- A number as a ratio. -/
def toRatio (x : Dyadic) : Nat × Nat := scale x.mantissa 1 x.exponent

/-- The rounded product, if it is finite. -/
def mul? (x y : Dyadic) : Option Dyadic :=
  let (a, b) := x.toRatio
  let (c, d) := y.toRatio
  ofRatio? (a * c) (b * d)

/-- The rounded quotient, if it is finite; `y` is not zero. -/
def div? (x y : Dyadic) : Option Dyadic :=
  let (a, b) := x.toRatio
  let (c, d) := y.toRatio
  ofRatio? (a * d) (b * c)

end Dyadic

/-- A finite number of double precision. -/
structure Double where
  /-- Whether it is below zero, or the zero below. -/
  negative : Bool
  /-- Its distance from zero. -/
  magnitude : Dyadic
  deriving DecidableEq, Repr, Inhabited

/-! ### Shortest decimals -/

/-- The number `0.d₁d₂… * 10 ^ point`, where the digits are those of `digits`. -/
structure Decimal where
  /-- The digits as one number. -/
  digits : Nat
  /-- How many digits there are. -/
  count : Nat
  /-- Where the decimal point stands, counted from in front of the first digit. -/
  point : Int
  deriving DecidableEq, Repr, Inhabited

namespace Dyadic

/-- Whether `a / b` and `x` are the same number after rounding: whether the ratio lies between the
midpoints to the neighbours of `x`, or on one of them when the mantissa is even. -/
def roundsFrom (x : Dyadic) (a b : Nat) : Bool :=
  let narrow := x.mantissa == Nat.pow 2 52 && x.exponent != minExponent
  let (low, lowDen) := scale (4 * x.mantissa - (if narrow then 1 else 2)) 4 x.exponent
  let (high, highDen) := scale (4 * x.mantissa + 2) 4 x.exponent
  if x.mantissa % 2 = 0 then low * b ≤ a * lowDen && a * highDen ≤ high * b
  else low * b < a * lowDen && a * highDen < high * b

/-- The ratio `n * 10 ^ e`. -/
def tenRatio (n : Nat) (e : Int) : Nat × Nat :=
  if 0 ≤ e then (n * Nat.pow 10 e.toNat, 1) else (n, Nat.pow 10 (-e).toNat)

/-- The least `point` from `guess` on with `x < 10 ^ point`, when at most `fuel` are tried. -/
def pointFrom (a b : Nat) : (fuel : Nat) → (guess : Int) → Int
  | 0, guess => guess
  | fuel + 1, guess =>
    let (c, d) := tenRatio 1 guess
    if a * d < c * b then guess else pointFrom a b fuel (guess + 1)

/-- The place of the decimal point of a number other than zero. -/
def pointOf (x : Dyadic) : Int :=
  let (a, b) := x.toRatio
  let bits : Int := (Nat.log2 x.mantissa : Int) + x.exponent
  pointFrom a b 4 (bits * 30103 / 100000)

/-- The decimals with `count` digits next to a number, the one below first. -/
def neighbours (x : Dyadic) (point : Int) (count : Nat) : Nat × Nat :=
  let (a, b) := x.toRatio
  let (c, d) := tenRatio 1 (point - count)
  let n := a * d / (b * c)
  (n, n + 1)

/-- Of the two decimals next to a number, the one that reads back as it; if both do, the nearer
one, or the even one if they are equally near. -/
def nearest? (x : Dyadic) (point : Int) (count : Nat) : Option Nat :=
  let (n, m) := x.neighbours point count
  let reads (k : Nat) : Bool :=
    let (a, b) := tenRatio k (point - count)
    x.roundsFrom a b
  match reads n, reads m with
  | false, false => none
  | true, false => some n
  | false, true => some m
  | true, true =>
    let (a, b) := x.toRatio
    let (c, d) := tenRatio (n + m) (point - count)
    let twice := 2 * a * d
    let middle := c * b
    if twice < middle then some n
    else if middle < twice then some m
    else if n % 2 = 0 then some n
    else some m

/-- The shortest decimal with at least `count` digits, when `fuel` lengths are tried. -/
def shortestFrom (x : Dyadic) (point : Int) : (fuel count : Nat) → Decimal
  | 0, count => ⟨(x.neighbours point count).1, count, point⟩
  | fuel + 1, count =>
    match x.nearest? point count with
    | some n =>
      if n = Nat.pow 10 count then ⟨Nat.pow 10 (count - 1), count, point + 1⟩ else ⟨n, count, point⟩
    | none => shortestFrom x point fuel (count + 1)

/-- The shortest decimal that reads back as a number; 17 digits always do. -/
def shortest (x : Dyadic) : Decimal :=
  if x.mantissa = 0 then ⟨0, 1, 1⟩ else shortestFrom x x.pointOf 17 1

end Dyadic

/-! ### Text -/

namespace Decimal

/-- The digits, one by one, the first one possibly zero. -/
def digitChars (d : Decimal) : List Char :=
  let text := (toString d.digits).toList
  List.replicate (d.count - text.length) '0' ++ text

/-- The text with a decimal point for exponents of ten from -5 to 15, and otherwise with an
exponent. -/
def chars (d : Decimal) : List Char :=
  let ds := d.digitChars
  let zeros (n : Int) : List Char := List.replicate n.toNat '0'
  let exponent := d.point - 1
  if 0 ≤ exponent && exponent ≤ 15 then
    if (d.count : Int) ≤ d.point then ds ++ zeros (d.point - d.count) ++ ['.', '0']
    else ds.take d.point.toNat ++ '.' :: ds.drop d.point.toNat
  else if -5 ≤ exponent && exponent < 0 then '0' :: '.' :: zeros (-d.point) ++ ds
  else
    let mantissa :=
      match ds with
      | [] => []
      | [c] => [c]
      | c :: rest => c :: '.' :: rest
    let sign := if exponent < 0 then '-' else '+'
    mantissa ++ 'e' :: sign :: (toString exponent.natAbs).toList

end Decimal

/-- How a number is written. -/
def Double.chars (x : Double) : List Char :=
  (if x.negative then ['-'] else []) ++ x.magnitude.shortest.chars

end FormOntology
