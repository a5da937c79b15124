import Mathlib.Data.List.Chain
import FormOntology.Proofs.Declaration.Tokens
import FormOntology.Proofs.Turtle.Written

/-!
# Written enumerations

The body of an enumeration has tokens in quotes and bare ones, with blanks and commas around them.
Tokens need not be kept apart, unless both are bare: a quote ends a bare token, and the text of a
quoted token ends at its quote however it was escaped.

## Main definitions

* `EnumToken`, `EnumToken.Valid` — tokens, and those that are read back as they are.
* `Entry`, `writtenEntries` — a token with what stands in front of it, and a list of them as
  written.
* `KeptApart` — whether no bare token runs into another one.

## Main results

* `enumerationTokens_writtenEntries`, `splitEnumeration_writtenEntries` — **the tokens of a written
  enumeration are read back, in order.**
* `strip_of_mem_splitEnumeration` — what is read of any body is trimmed.
* `listTail?_writtenEntries` — a list of quoted tokens ends at its own parenthesis.
-/

namespace FormOntology

open Text Turtle

/-! ### Tokens -/

/-- A token of an enumeration. -/
inductive EnumToken where
  /-- A text in quotes. -/
  | quoted (chars : List Char)
  /-- A text as it stands. -/
  | bare (chars : List Char)
  deriving DecidableEq, Repr

namespace EnumToken

/-- The text of a token. -/
def chars : EnumToken → List Char
  | quoted t => t
  | bare t => t

/-- A token as written. -/
def written : EnumToken → List Char
  | quoted t => writtenText t
  | bare t => t

/-- Whether a token has no quotes. -/
def isBare : EnumToken → Bool
  | quoted _ => false
  | bare _ => true

/-- The tokens that are read back as they are. -/
inductive Valid : EnumToken → Prop where
  /-- A text in quotes is trimmed and not empty. -/
  | quoted {t : List Char} (hne : t ≠ []) (htrim : trim t = t) : Valid (.quoted t)
  /-- A bare text has no blanks, commas and quotes. -/
  | bare {t : List Char} (hne : t ≠ []) (hchars : ∀ c ∈ t, isBareChar c = true) : Valid (.bare t)

end EnumToken

/-- A token with what stands in front of it. -/
structure Entry where
  /-- What separates the token from the one in front of it. -/
  gap : List Char
  /-- The token. -/
  token : EnumToken
  /-- There are only blanks and commas in front of the token. -/
  gap_separator : ∀ c ∈ gap, isTokenSeparator c = true
  /-- The token is read back as it is. -/
  valid : token.Valid

/-- The value of an entry. -/
def Entry.value (e : Entry) : String := String.ofList e.token.chars

/-- Whether a token does not run into the one in front of it. -/
def KeptApart (e e' : Entry) : Prop :=
  e.token.isBare = true → e'.token.isBare = true → e'.gap ≠ []

instance (e e' : Entry) : Decidable (KeptApart e e') := inferInstanceAs (Decidable (_ → _ → _))

/-- Entries as written. -/
def writtenEntries (entries : List Entry) : List Char :=
  entries.flatMap fun e => e.gap ++ e.token.written

@[simp] theorem writtenEntries_nil : writtenEntries [] = [] := rfl

theorem writtenEntries_cons (e : Entry) (entries : List Entry) :
    writtenEntries (e :: entries) = e.gap ++ (e.token.written ++ writtenEntries entries) := by
  rw [writtenEntries, List.flatMap_cons, List.append_assoc]
  rfl

/-- Quoted tokens need not be kept apart. -/
theorem isChain_keptApart {entries : List Entry} (h : ∀ e ∈ entries, e.token.isBare = false) :
    entries.IsChain KeptApart := by
  induction entries with
  | nil => exact .nil
  | cons e entries ih =>
    have htail := ih fun e' he' => h e' (List.mem_cons_of_mem _ he')
    cases entries with
    | nil => exact .singleton e
    | cons e' entries =>
      refine .cons_cons (fun hbare => ?_) htail
      rw [h e (List.mem_cons_self ..)] at hbare
      cases hbare

/-! ### Reading tokens -/

/-- A bare character is neither a separator nor a quote. -/
theorem isBareChar_iff {c : Char} :
    isBareChar c = true ↔ isTokenSeparator c = false ∧ c ≠ '"' := by
  simp [isBareChar]

/-- The text of a token that is read back is trimmed and not empty. -/
theorem EnumToken.Valid.trim_chars {t : EnumToken} (h : t.Valid) :
    trim t.chars = t.chars ∧ t.chars ≠ [] := by
  cases h with
  | quoted hne htrim => exact ⟨htrim, hne⟩
  | bare hne hchars =>
    refine ⟨trim_eq_self fun c hc => ?_, hne⟩
    have hsep := (isBareChar_iff.mp (hchars c hc)).1
    exact (Bool.or_eq_false_iff.mp hsep).1

section Last

variable {last : List Char} (hlast : ∀ c ∈ last, isTokenSeparator c = true)
include hlast

/-- A bare token does not go on in what follows it. -/
theorem stopsBefore_isBareChar {e : Entry} (he : e.token.isBare = true) {entries : List Entry}
    (h : (e :: entries).IsChain KeptApart) :
    StopsBefore isBareChar (writtenEntries entries ++ last) := by
  have hsep : ∀ {gap z : List Char}, (∀ c ∈ gap, isTokenSeparator c = true) → gap ≠ [] →
      StopsBefore isBareChar (gap ++ z) := by
    intro gap z hgap hne
    obtain ⟨c, gap, rfl⟩ := List.exists_cons_of_ne_nil hne
    refine stopsBefore_cons.mpr ?_
    rw [isBareChar, hgap c (List.mem_cons_self ..)]
    rfl
  cases entries with
  | nil =>
    by_cases hnil : last = []
    · rw [hnil]
      exact stopsBefore_nil _
    · have := hsep (z := []) hlast hnil
      rwa [List.append_nil] at this
  | cons e' entries =>
    rw [writtenEntries_cons, List.append_assoc]
    by_cases hgap : e'.gap = []
    · -- the next token has quotes, since it is not kept apart
      have hkept : KeptApart e e' := h.rel
      cases htoken : e'.token with
      | quoted t =>
        rw [hgap, List.nil_append, EnumToken.written, List.append_assoc, writtenText_append]
        exact stopsBefore_cons.mpr (by decide)
      | bare t => exact absurd hgap (hkept he (by rw [htoken]; rfl))
    · exact hsep e'.gap_separator hgap

/-- **The tokens of a written enumeration are read back**, if bare ones are kept apart. -/
theorem enumerationTokens_writtenEntries {entries : List Entry}
    (h : entries.IsChain KeptApart) :
    enumerationTokens (writtenEntries entries ++ last) = entries.map (·.token.chars) := by
  induction entries with
  | nil =>
    have hread := enumerationTokens_gap_append hlast []
    rw [List.append_nil, enumerationTokens_nil] at hread
    exact hread
  | cons e entries ih =>
    have hrest := ih h.tail
    have hvalid := e.valid
    rw [writtenEntries_cons, List.append_assoc, List.append_assoc,
      enumerationTokens_gap_append e.gap_separator, List.map_cons]
    cases htoken : e.token with
    | quoted t =>
      rw [EnumToken.written, writtenText_append, enumerationTokens_cons, if_neg (by decide),
        if_pos rfl, quotedToken_escape_append, unescape_escape, hrest]
      rfl
    | bare t =>
      have hbare : e.token.isBare = true := by rw [htoken]; rfl
      have hstop := stopsBefore_isBareChar hlast hbare h
      rw [htoken] at hvalid
      cases hvalid with
      | bare hne hchars =>
        obtain ⟨c, r, rfl⟩ := List.exists_cons_of_ne_nil hne
        obtain ⟨hc, hr⟩ := List.forall_mem_cons.mp hchars
        obtain ⟨hsep, hquote⟩ := isBareChar_iff.mp hc
        rw [EnumToken.written, List.cons_append, enumerationTokens_cons, hsep,
          if_neg Bool.false_ne_true, if_neg hquote, takeWhile_append_of_stopsBefore hr hstop,
          dropWhile_append_of_stopsBefore hr hstop, hrest]
        rfl

/-- **The values of a written enumeration are read back**, in order. -/
theorem splitEnumeration_writtenEntries {entries : List Entry} (h : entries.IsChain KeptApart) :
    splitEnumeration (writtenEntries entries ++ last) = entries.map Entry.value := by
  have hkeep : ∀ entries : List Entry,
      ((entries.map (·.token.chars)).map trim).filter (!·.isEmpty)
        = entries.map (·.token.chars) := by
    intro entries
    induction entries with
    | nil => rfl
    | cons e entries ih =>
      obtain ⟨htrim, hne⟩ := e.valid.trim_chars
      rw [List.map_cons, List.map_cons, htrim, List.filter_cons_of_pos (by simpa using hne), ih]
  rw [splitEnumeration, enumerationTokens_writtenEntries hlast h, hkeep, List.map_map]
  rfl

/-- A list of quoted tokens ends at its own parenthesis, whatever the tokens are. -/
theorem listTail?_writtenEntries {entries : List Entry}
    (h : ∀ e ∈ entries, e.token.isBare = false) (y : List Char) :
    listTail? false (writtenEntries entries ++ (last ++ ')' :: y))
      = some (writtenEntries entries ++ last) := by
  induction entries with
  | nil =>
    rw [writtenEntries_nil, List.nil_append, List.nil_append, listTail?_gap_append hlast,
      listTail?_false, if_pos rfl, Option.map_some, List.append_nil]
  | cons e entries ih =>
    have hrest := ih fun e' he' => h e' (List.mem_cons_of_mem _ he')
    have hquoted := h e (List.mem_cons_self ..)
    rw [writtenEntries_cons, List.append_assoc, List.append_assoc,
      listTail?_gap_append e.gap_separator]
    cases htoken : e.token with
    | bare t =>
      rw [htoken] at hquoted
      cases hquoted
    | quoted t =>
      rw [EnumToken.written, writtenText_append, listTail?_false, if_neg (by decide),
        beq_self_eq_true, listTail?_escape_append, hrest]
      simp [writtenText, literal]

end Last

/-! ### Values of any text -/

/-- The values of an enumeration are trimmed. -/
theorem trim_of_mem_splitEnumeration {body : List Char} {value : String}
    (h : value ∈ splitEnumeration body) : trim value.toList = value.toList := by
  rw [splitEnumeration, List.mem_map] at h
  obtain ⟨token, htoken, rfl⟩ := h
  obtain ⟨raw, _, rfl⟩ := List.mem_map.mp (List.mem_filter.mp htoken).1
  rw [String.toList_ofList, trim_trim]

/-- **What is read of any body is trimmed and not empty.** -/
theorem strip_of_mem_splitEnumeration {body : List Char} {value : String}
    (h : value ∈ splitEnumeration body) : value ≠ "" ∧ strip value = value := by
  refine ⟨ne_empty_of_mem_splitEnumeration h, ?_⟩
  rw [strip, trim_of_mem_splitEnumeration h, String.ofList_toList]

end FormOntology
