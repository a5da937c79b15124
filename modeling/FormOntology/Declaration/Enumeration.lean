import FormOntology.Turtle.Escape
import FormOntology.Text.Blank

/-!
# Enumerated values

The body of an enumeration is a list of tokens.  A token in quotes keeps what is inside them; any
other token ends at a blank, a comma or a quote.  Tokens are trimmed and empty ones are skipped.

## Main definitions

* `enumerationTokens` — the tokens of a body as they are read.
* `splitEnumeration` — the values of a body.

## Main results

* `ne_empty_of_mem_splitEnumeration` — no value is empty.
-/

namespace FormOntology

open Text Turtle

/-- Whether a character separates tokens. -/
def isTokenSeparator (c : Char) : Bool := isBlank c || c == ','

/-- Whether a character belongs to a token without quotes. -/
def isBareChar (c : Char) : Bool := !(isTokenSeparator c || c == '"')

/-- The text in front of the quote that closes a token, and what follows that quote.  A token that
is not closed reaches to the end. -/
def quotedToken : List Char → List Char × List Char
  | [] => ([], [])
  | c :: r =>
    if c = '"' then ([], r)
    else if c = '\\' then
      match r with
      | [] => ([c], [])
      | d :: r' => (c :: d :: (quotedToken r').1, (quotedToken r').2)
    else (c :: (quotedToken r).1, (quotedToken r).2)

theorem length_quotedToken_le (text : List Char) :
    (quotedToken text).2.length ≤ text.length := by
  fun_induction quotedToken text with
  | case1 => exact Nat.le_refl _
  | case2 r => exact Nat.le_succ _
  | case3 => exact Nat.zero_le _
  | case4 _ r' _ ih => exact Nat.le_trans ih (Nat.le_add_right _ 2)
  | case5 _ r _ _ ih => exact Nat.le_trans ih (Nat.le_succ _)

/-- The tokens of a body as they are read. -/
def enumerationTokens : List Char → List (List Char)
  | [] => []
  | c :: r =>
    if isTokenSeparator c then enumerationTokens r
    else if c = '"' then unescape (quotedToken r).1 :: enumerationTokens (quotedToken r).2
    else (c :: r.takeWhile isBareChar) :: enumerationTokens (r.dropWhile isBareChar)
termination_by text => text.length
decreasing_by
  · exact Nat.lt_succ_self _
  · exact Nat.lt_succ_of_le (length_quotedToken_le r)
  · exact Nat.lt_succ_of_le (List.dropWhile_sublist _).length_le

@[simp] theorem enumerationTokens_nil : enumerationTokens [] = [] := by
  rw [enumerationTokens.eq_def]

theorem enumerationTokens_cons (c : Char) (r : List Char) :
    enumerationTokens (c :: r)
      = if isTokenSeparator c then enumerationTokens r
        else if c = '"' then unescape (quotedToken r).1 :: enumerationTokens (quotedToken r).2
        else (c :: r.takeWhile isBareChar) :: enumerationTokens (r.dropWhile isBareChar) := by
  rw [enumerationTokens.eq_def]

/-- The values of a body: the program's `split_enumeration`. -/
def splitEnumeration (body : List Char) : List String :=
  ((enumerationTokens body).map trim |>.filter (!·.isEmpty)).map String.ofList

theorem ne_empty_of_mem_splitEnumeration {body : List Char} {value : String}
    (h : value ∈ splitEnumeration body) : value ≠ "" := by
  simp only [splitEnumeration, List.mem_map, List.mem_filter] at h
  obtain ⟨t, ⟨_, ht⟩, rfl⟩ := h
  intro he
  have : t = [] := by simpa using congrArg String.toList he
  simp [this] at ht

end FormOntology
