import FormOntology.Text.Blank

/-!
# Vocabularies

Class names, property names and the form predicates stand under a namespace name, as in
`ex:Driver`.  A vocabulary is the list of the namespace names that are accepted, which are well
formed and of which none stands twice.

## Main definitions

* `Vocabulary`, `Vocabulary.ofNames` — the accepted names, in the order they were first given.
* `Vocabulary.localName?` — a name without its accepted namespace.
* `Vocabulary.alternation` — the names as one pattern.
* `Term` — the predicates and marks that are read.
-/

namespace FormOntology

/-- Whether a character can begin a namespace name or an identifier. -/
def isNameStart (c : Char) : Bool := c.isAlpha || c == '_'

/-- Whether a character can stand behind the first of a namespace name or an identifier. -/
def isNameChar (c : Char) : Bool := c.isAlphanum || c == '_' || c == '-'

theorem isNameChar_of_isNameStart {c : Char} (h : isNameStart c = true) :
    isNameChar c = true := by
  simp only [isNameStart, isNameChar, Char.isAlphanum, Bool.or_eq_true] at h ⊢
  rcases h with h | h
  · exact .inl (.inl (.inl h))
  · exact .inl (.inr h)

/-- Whether a text is a name: a name start and then name characters. -/
def isName : List Char → Bool
  | [] => false
  | c :: r => isNameStart c && r.all isNameChar

/-- Why a list of namespace names makes no vocabulary. -/
inductive VocabularyError where
  /-- The list is empty. -/
  | noNames
  /-- A name, already without blanks and colons at its end, is not well formed. -/
  | invalidName (name : String)
  deriving DecidableEq, Repr, Inhabited

/-- The text of an error. -/
def VocabularyError.message : VocabularyError → String
  | noNames => "at least one namespace prefix must be accepted"
  | invalidName name =>
    "invalid namespace prefix `" ++ name ++ "` (expected [A-Za-z_][A-Za-z0-9_-]*)"

/-- The namespace names that are accepted, in the order they were first given. -/
@[ext]
structure Vocabulary where
  /-- The names. -/
  accepted : List String
  /-- There is one. -/
  ne_nil : accepted ≠ []
  /-- None stands twice. -/
  nodup : accepted.Nodup
  /-- They are well formed. -/
  isName_of_mem : ∀ name ∈ accepted, isName name.toList = true
  deriving DecidableEq, Repr

namespace Vocabulary

/-- The namespace names of the default vocabulary. -/
def defaultNames : List String := ["autoins", "ex"]

/-- The vocabulary in use when none is configured. -/
def standard : Vocabulary := ⟨defaultNames, by decide, by decide, by decide⟩

instance : Inhabited Vocabulary := ⟨standard⟩

/-- A given name without the blanks around it and without the colons at its end. -/
def normalize (name : String) : String :=
  String.ofList ((Text.trim name.toList).reverse.dropWhile (· == ':')).reverse

/-- Names with one more; a name that is there already changes nothing. -/
def addName (names : List String) (name : String) : Except VocabularyError (List String) :=
  let name := normalize name
  if !isName name.toList then .error (.invalidName name)
  else if names.contains name then .ok names
  else .ok (names ++ [name])

/-- What holds of names that were added one after another. -/
def WellFormed (names : List String) : Prop :=
  names.Nodup ∧ ∀ name ∈ names, isName name.toList = true

theorem WellFormed.addName {names names' : List String} {name : String} (h : WellFormed names)
    (hadd : addName names name = .ok names') : WellFormed names' := by
  simp only [Vocabulary.addName] at hadd
  split at hadd
  · cases hadd
  next hname =>
  split at hadd
  · cases hadd
    exact h
  next hnew =>
  cases hadd
  rw [List.contains_iff_mem] at hnew
  refine ⟨List.nodup_append.mpr ⟨h.1, by simp, fun given hgiven new hmem => ?_⟩,
    List.forall_mem_append.mpr ⟨h.2, by simpa using hname⟩⟩
  obtain rfl := List.mem_singleton.mp hmem
  exact ne_of_mem_of_not_mem hgiven hnew

theorem WellFormed.foldlM {names names' given : List String} (h : WellFormed names)
    (hadd : given.foldlM Vocabulary.addName names = .ok names') : WellFormed names' := by
  induction given generalizing names with
  | nil =>
    cases hadd
    exact h
  | cons name given ih =>
    rw [List.foldlM_cons] at hadd
    cases hstep : Vocabulary.addName names name with
    | error e =>
      rw [hstep] at hadd
      cases hadd
    | ok more =>
      rw [hstep] at hadd
      exact ih (h.addName hstep) hadd

/-- The vocabulary of a list of names, at least one: the program's `Vocabulary::new`. -/
def ofNames (names : List String) : Except VocabularyError Vocabulary :=
  match h : names.foldlM addName [] with
  | .error e => .error e
  | .ok accepted =>
    if hne : accepted = [] then .error .noNames
    else
      have hformed : WellFormed accepted := .foldlM ⟨List.nodup_nil, by simp⟩ h
      .ok ⟨accepted, hne, hformed.1, hformed.2⟩

/-- Whether a namespace name is accepted. -/
def accepts (v : Vocabulary) (name : String) : Bool := v.accepted.contains name

/-- A name without its namespace, if that is accepted and something is left; a name without a
namespace as it is.  This is the program's `Vocabulary::local_name`. -/
def localName? (v : Vocabulary) (name : String) : Option String :=
  let chars := name.toList
  let lead := chars.takeWhile (· ≠ ':')
  match chars.dropWhile (· ≠ ':') with
  | [] => if chars.isEmpty then none else some name
  | _ :: rest =>
    if v.accepts (String.ofList lead) && !rest.isEmpty then some (String.ofList rest) else none

/-- A pattern for the accepted names. -/
def alternation (v : Vocabulary) : String :=
  let quote (name : String) : String :=
    String.ofList (name.toList.flatMap fun c => if c = '-' then ['\\', '-'] else [c])
  "(?:" ++ String.intercalate "|" (v.accepted.map quote) ++ ")"

/-- Reads an accepted namespace name and its colon; gives the name and what follows. -/
def read? (v : Vocabulary) (text : List Char) : Option (List Char × List Char) :=
  let name := text.takeWhile isNameChar
  match text.dropWhile isNameChar with
  | ':' :: rest => if v.accepts (String.ofList name) then some (name, rest) else none
  | _ => none

end Vocabulary

/-! ### Terms -/

/-- The terms that a declaration is made of, apart from its own names. -/
inductive Term where
  /-- `rdfs:label` -/
  | label
  /-- `rdfs:domain` -/
  | domain
  /-- `rdfs:range` -/
  | range
  /-- `isRequired` under an accepted namespace -/
  | required
  /-- `formHelpText` under an accepted namespace -/
  | helpText
  /-- `enumerationValues` under an accepted namespace -/
  | enumeration
  /-- `conditionalDisplay` under an accepted namespace -/
  | conditionalDisplay
  /-- `validationPattern` under an accepted namespace -/
  | validationPattern
  /-- `defaultValue` under an accepted namespace -/
  | defaultValue
  /-- `formType` under an accepted namespace -/
  | formType
  deriving DecidableEq, Repr

namespace Term

/-- The term as written, without an accepted namespace name where it needs one. -/
def word : Term → String
  | label => "rdfs:label"
  | domain => "rdfs:domain"
  | range => "rdfs:range"
  | required => "isRequired"
  | helpText => "formHelpText"
  | enumeration => "enumerationValues"
  | conditionalDisplay => "conditionalDisplay"
  | validationPattern => "validationPattern"
  | defaultValue => "defaultValue"
  | formType => "formType"

/-- Whether the term stands under an accepted namespace name. -/
def isExtension : Term → Bool
  | label => false
  | domain => false
  | range => false
  | _ => true

end Term

/-- Reads a fixed word; gives what follows it. -/
def readWord? : List Char → List Char → Option (List Char)
  | [], text => some text
  | _ :: _, [] => none
  | w :: ws, c :: r => if c = w then readWord? ws r else none

@[simp] theorem readWord?_append (word rest : List Char) :
    readWord? word (word ++ rest) = some rest := by
  induction word with
  | nil => cases rest <;> rfl
  | cons w ws ih => simp [readWord?, ih]

/-- Reads a term, with the namespace it needs; gives what follows it. -/
def Term.read? (t : Term) (v : Vocabulary) (text : List Char) : Option (List Char) :=
  if t.isExtension then
    (v.read? text).bind fun (_, rest) => readWord? t.word.toList rest
  else readWord? t.word.toList text

end FormOntology
