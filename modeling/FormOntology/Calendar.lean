import FormOntology.Text.Blank

/-!
# Calendar dates

Dates of the Gregorian calendar, carried on into all years.  A written date is a year, a month
and a day with hyphens between them.  The year has at most four digits unless it has a sign; month
and day have one or two.  Blanks may stand in front of a number.

## Main definitions

* `Date`, `Date.IsValid` — dates, and which of them the calendar has.
* `Date.parse?` — the date of a text.
-/

namespace FormOntology

/-- A year, a month and a day. -/
structure Date where
  /-- The year; the year before year one is zero. -/
  year : Int
  /-- The month, counted from one. -/
  month : Nat
  /-- The day, counted from one. -/
  day : Nat
  deriving DecidableEq, Repr, Inhabited

namespace Date

/-- Whether a year has a day more than others. -/
def isLeap (year : Int) : Bool := year % 4 == 0 && (year % 100 != 0 || year % 400 == 0)

/-- The number of days of a month, zero if there is no such month. -/
def daysOf (year : Int) (month : Nat) : Nat :=
  if month = 2 then if isLeap year then 29 else 28
  else if month = 4 ∨ month = 6 ∨ month = 9 ∨ month = 11 then 30
  else if 1 ≤ month ∧ month ≤ 12 then 31
  else 0

/-- The first year of the calendar. -/
def firstYear : Int := -262143

/-- The last year of the calendar. -/
def lastYear : Int := 262142

/-- The dates that the calendar has. -/
def IsValid (d : Date) : Prop :=
  firstYear ≤ d.year ∧ d.year ≤ lastYear ∧ 1 ≤ d.day ∧ d.day ≤ daysOf d.year d.month

instance (d : Date) : Decidable d.IsValid := inferInstanceAs (Decidable (_ ∧ _ ∧ _ ∧ _))

/-! ### Written dates -/

/-- The digits at the start of a text, at most `most` of them. -/
def leadingDigits : (most : Nat) → List Char → List Char × List Char
  | 0, text => ([], text)
  | _ + 1, [] => ([], [])
  | most + 1, c :: r =>
    if c.isDigit then (c :: (leadingDigits most r).1, (leadingDigits most r).2) else ([], c :: r)

/-- Reads a number of at most so many digits. -/
def number? (most : Nat) (text : List Char) : Option (Nat × List Char) :=
  match leadingDigits most text with
  | ([], _) => none
  | (digits, rest) => some (digits.foldl (fun n c => 10 * n + (c.toNat - 48)) 0, rest)

/-- Reads a year. -/
def year? (text : List Char) : Option (Int × List Char) :=
  match Text.trimStart text with
  | [] => none
  | c :: r =>
    if c = '-' then (number? r.length r).map fun (n, rest) => (-n, rest)
    else if c = '+' then (number? r.length r).map fun (n, rest) => (n, rest)
    else (number? 4 (c :: r)).map fun (n, rest) => (n, rest)

/-- Reads a hyphen and a number of at most two digits. -/
def nextNumber? : List Char → Option (Nat × List Char)
  | [] => none
  | c :: r => if c = '-' then number? 2 (Text.trimStart r) else none

/-- The date that a text is, if the calendar has it. -/
def parse? (text : List Char) : Option Date := do
  let (year, rest) ← year? text
  let (month, rest) ← nextNumber? rest
  let (day, rest) ← nextNumber? rest
  let d : Date := ⟨year, month, day⟩
  if rest.isEmpty ∧ d.IsValid then some d else none

end Date

end FormOntology
