import Mathlib.Data.Bool.AllAny
import FormOntology.Declaration.Enumeration
import FormOntology.Proofs.Text.Blank
import FormOntology.Proofs.Turtle.Literals

/-!
# Written literals and lists

A text is written as a short literal with its escapes, and values are written as a list of such
literals.  Whatever characters the text has, its literal is one run, its body is read back, and so
are the tokens of the list.

## Main definitions

* `writtenText`, `writtenItems`, `writtenList` — a text and a list of values as written.
* `Quiet` — whether a text is cut off from what follows, with no comment and no plain full stop.

## Main results

* `literalBody?_writtenText`, `listBody?_writtenList` — the bodies that are read back.
* `splitEnumeration_writtenItems` — **the values of a written list are read back.**
* `Quiet.writtenText`, `Quiet.writtenList` — what is written has no comment and no full stop.
-/

namespace FormOntology.Turtle

open Text

/-- A character of a kind is none of some characters of another kind. -/
theorem notMem_of_all {p : Char → Bool} {l : List Char} (hl : l.all (!p ·) = true) {c : Char}
    (hc : p c = true) : c ∉ l := by
  intro hmem
  have := List.all_eq_true.mp hl c hmem
  simp [hc] at this

/-! ### Escaped texts -/

/-- A character is written as itself or with a backslash, and never as a line feed. -/
theorem escapeChar_cases (c : Char) :
    (escapeChar c = [c] ∧ c ≠ '"' ∧ c ≠ '\n' ∧ c ≠ '\\')
      ∨ ∃ d, escapeChar c = ['\\', d] ∧ d ≠ '\n' ∧ d ≠ ':' := by
  unfold escapeChar
  split
  · exact .inr ⟨_, rfl, by decide, by decide⟩
  split
  · exact .inr ⟨_, rfl, by decide, by decide⟩
  split
  · exact .inr ⟨_, rfl, by decide, by decide⟩
  split
  · exact .inr ⟨_, rfl, by decide, by decide⟩
  split
  · exact .inr ⟨_, rfl, by decide, by decide⟩
  · next hb hq hn _ _ => exact .inl ⟨rfl, hq, hn, hb⟩

/-- Escapes bring in no colon. -/
theorem notMem_escape {text : List Char} (h : ':' ∉ text) : ':' ∉ escape text := by
  intro hmem
  obtain ⟨c, hc, hin⟩ := List.mem_flatMap.mp hmem
  rcases escapeChar_cases c with ⟨heq, -⟩ | ⟨d, heq, -, hd⟩
  · rw [heq, List.mem_singleton] at hin
    exact h (hin ▸ hc)
  · rw [heq] at hin
    simp [Ne.symm hd] at hin

/-- A text that needs no escape is written as it is. -/
theorem escape_eq_self {text : List Char} (h : ∀ c ∈ text, escapeChar c = [c]) :
    escape text = text := by
  induction text with
  | nil => rfl
  | cons c r ih =>
    rw [escape_cons, h c (List.mem_cons_self ..), ih fun d hd => h d (List.mem_cons_of_mem _ hd)]
    rfl

/-- An escaped text does not begin with a quote. -/
theorem head?_escape (text : List Char) : (escape text).head? ≠ some '"' := by
  cases text with
  | nil => simp
  | cons c r =>
    rw [escape_cons]
    rcases escapeChar_cases c with ⟨heq, hq, -⟩ | ⟨d, heq, -⟩
    · rw [heq]
      simpa using hq
    · rw [heq]
      simp

theorem escape_ne_nil {text : List Char} (h : text ≠ []) : escape text ≠ [] := by
  intro hnil
  have := unescape_escape text
  rw [hnil] at this
  exact h this.symm

theorem quotedToken_quote (r : List Char) : quotedToken ('"' :: r) = ([], r) := by
  rw [quotedToken.eq_def]
  rfl

theorem quotedToken_escape (d : Char) (r : List Char) : quotedToken ('\\' :: d :: r)
    = ('\\' :: d :: (quotedToken r).1, (quotedToken r).2) := by
  rw [quotedToken.eq_def]
  rfl

theorem quotedToken_cons {c : Char} (hq : c ≠ '"') (hb : c ≠ '\\') (r : List Char) :
    quotedToken (c :: r) = (c :: (quotedToken r).1, (quotedToken r).2) := by
  rw [quotedToken.eq_def]
  simp only [hq, hb, if_false]

section Readers

variable (text y : List Char)

/-- An escaped text ends in front of the next quote. -/
theorem shortBody?_escape_append :
    shortBody? (escape text ++ '"' :: y) = some (escape text) := by
  induction text with
  | nil => simp
  | cons c r ih =>
    rw [escape_cons, List.append_assoc]
    rcases escapeChar_cases c with ⟨heq, hq, hn, hb⟩ | ⟨d, heq, hd, -⟩
    · rw [heq, List.singleton_append, shortBody?_cons hq hn hb, ih]
      rfl
    · rw [heq, List.cons_append, List.singleton_append, shortBody?_escape, if_neg hd, ih]
      rfl

theorem shortTail_escape_append :
    shortTail (escape text ++ '"' :: y) = (escape text).length + 1 := by
  induction text with
  | nil => simp
  | cons c r ih =>
    rw [escape_cons, List.append_assoc]
    rcases escapeChar_cases c with ⟨heq, hq, hn, hb⟩ | ⟨d, heq, -⟩
    · rw [heq, List.singleton_append, shortTail_cons hq hn hb, ih]
      simp
    · rw [heq, List.cons_append, List.singleton_append, shortTail_escape, ih]
      simp

/-- A list goes on behind a literal that is written in it. -/
theorem listTail?_escape_append :
    listTail? true (escape text ++ '"' :: y)
      = (listTail? false y).map (escape text ++ '"' :: ·) := by
  induction text with
  | nil => simp
  | cons c r ih =>
    rw [escape_cons, List.append_assoc]
    rcases escapeChar_cases c with ⟨heq, hq, -, hb⟩ | ⟨d, heq, hd, -⟩
    · rw [heq, List.singleton_append, listTail?_cons hq hb, ih, Option.map_map]
      rfl
    · rw [heq, List.cons_append, List.singleton_append, listTail?_escape, if_neg hd, ih,
        Option.map_map]
      rfl

theorem quotedToken_escape_append :
    quotedToken (escape text ++ '"' :: y) = (escape text, y) := by
  induction text with
  | nil => exact quotedToken_quote y
  | cons c r ih =>
    rw [escape_cons, List.append_assoc]
    rcases escapeChar_cases c with ⟨heq, hq, -, hb⟩ | ⟨d, heq, -⟩
    · rw [heq, List.singleton_append, quotedToken_cons hq hb, ih]
      rfl
    · rw [heq, List.cons_append, List.singleton_append, quotedToken_escape, ih]
      rfl

end Readers

/-! ### Literals -/

/-- A text as written. -/
def writtenText (text : List Char) : List Char := literal (escape text)

theorem writtenText_append (text y : List Char) :
    writtenText text ++ y = '"' :: (escape text ++ '"' :: y) :=
  literal_append ..

/-- A written text does not begin with three quotes. -/
theorem startsTriple_writtenText {text y : List Char} (hy : text = [] → y.head? ≠ some '"') :
    ¬startsTriple (writtenText text ++ y) = true := by
  rw [writtenText_append]
  intro ht
  obtain ⟨w, hw⟩ := startsTriple_iff.mp ht
  have hw := (List.cons.inj hw).2
  cases text with
  | nil =>
    have hw : y = '"' :: w := by simpa using hw
    exact hy rfl (by rw [hw]; rfl)
  | cons c r =>
    have hhead := congrArg List.head? hw
    obtain ⟨d, t, hd⟩ := List.exists_cons_of_ne_nil (escape_ne_nil (List.cons_ne_nil c r))
    rw [hd] at hhead
    exact head?_escape (c :: r) (by rw [hd]; simpa using hhead)

/-- **A written text is read back as its body.** -/
theorem literalBody?_writtenText {text y : List Char} (hy : text = [] → y.head? ≠ some '"') :
    literalBody? (writtenText text ++ y) = some (escape text) := by
  have htriple := startsTriple_writtenText hy
  rw [writtenText_append] at htriple ⊢
  rw [literalBody?, if_pos rfl, if_neg htriple, shortBody?_escape_append]

/-- A written text is a run of its own. -/
theorem segments_writtenText {text y : List Char} (hy : text = [] → y.head? ≠ some '"') :
    segments (writtenText text ++ y)
      = .inert .shortLiteral (writtenText text) :: segments y := by
  have htriple := startsTriple_writtenText hy
  rw [writtenText_append] at htriple ⊢
  rw [segments_inert (opening_quote htriple), shortTail_escape_append, List.take_length_add_append,
    List.drop_length_add_append]
  rfl

theorem notMem_writtenText {text : List Char} (h : ':' ∉ text) : ':' ∉ writtenText text := by
  have := notMem_escape h
  simp [writtenText, literal, this]

/-! ### Lists -/

/-- Values as written, with a gap between two of them. -/
def writtenItems (gap : List Char) : List String → List Char
  | [] => []
  | [value] => writtenText value.toList
  | value :: next :: r =>
    writtenText value.toList ++ (gap ++ writtenItems gap (next :: r))

/-- A list of values as written. -/
def writtenList (gap : List Char) (values : List String) : List Char :=
  '(' :: (writtenItems gap values ++ [')'])

/-- Values are written one by one. -/
theorem writtenItems_cons (gap : List Char) (value : String) (values : List String) :
    ∃ gap', writtenItems gap (value :: values)
      = writtenText value.toList ++ (gap' ++ writtenItems gap values)
        ∧ ∀ c ∈ gap', c ∈ gap := by
  cases values with
  | nil => exact ⟨[], by simp [writtenItems], by simp⟩
  | cons next r => exact ⟨gap, rfl, fun _ => id⟩

section Gap

variable {gap : List Char} (hgap : ∀ c ∈ gap, isTokenSeparator c = true)
include hgap

theorem notMem_of_mem_gap {c : Char} (hc : c ∈ gap) : c ∉ ['"', ')', ':'] :=
  notMem_of_all (by decide) (hgap c hc)

theorem listTail?_gap_append (y : List Char) :
    listTail? false (gap ++ y) = (listTail? false y).map (gap ++ ·) := by
  induction gap with
  | nil => simp
  | cons c gap ih =>
    have hc := notMem_of_mem_gap hgap (List.mem_cons_self ..)
    simp only [List.mem_cons, not_or] at hc
    rw [List.cons_append, listTail?_false, if_neg hc.2.1, beq_eq_false_iff_ne.mpr hc.1,
      ih fun d hd => hgap d (List.mem_cons_of_mem _ hd), Option.map_map]
    rfl

theorem enumerationTokens_gap_append (y : List Char) :
    enumerationTokens (gap ++ y) = enumerationTokens y := by
  induction gap with
  | nil => rfl
  | cons c gap ih =>
    rw [List.cons_append, enumerationTokens_cons, if_pos (hgap c (List.mem_cons_self ..)),
      ih fun d hd => hgap d (List.mem_cons_of_mem _ hd)]

/-- The body of a written list ends at its parenthesis. -/
theorem listTail?_writtenItems (values : List String) (y : List Char) :
    listTail? false (writtenItems gap values ++ ')' :: y) = some (writtenItems gap values) := by
  induction values with
  | nil => rfl
  | cons value values ih =>
    obtain ⟨gap', heq, hgap'⟩ := writtenItems_cons gap value values
    have hsep : ∀ c ∈ gap', isTokenSeparator c = true := fun c hc => hgap c (hgap' c hc)
    rw [heq, List.append_assoc, writtenText_append, listTail?_false, if_neg (by decide),
      beq_self_eq_true, listTail?_escape_append, List.append_assoc, listTail?_gap_append hsep, ih]
    simp [writtenText, literal]

/-- **A written list is read back as its body.** -/
theorem listBody?_writtenList (values : List String) (y : List Char) :
    listBody? (writtenList gap values ++ y) = some (writtenItems gap values) := by
  rw [writtenList, List.cons_append, List.append_assoc, listBody?, if_pos rfl]
  exact listTail?_writtenItems hgap values y

theorem enumerationTokens_writtenItems (values : List String) :
    enumerationTokens (writtenItems gap values) = values.map String.toList := by
  induction values with
  | nil => exact enumerationTokens_nil
  | cons value values ih =>
    obtain ⟨gap', heq, hgap'⟩ := writtenItems_cons gap value values
    have hsep : ∀ c ∈ gap', isTokenSeparator c = true := fun c hc => hgap c (hgap' c hc)
    rw [heq, writtenText_append, enumerationTokens_cons, if_neg (by decide), if_pos rfl,
      quotedToken_escape_append, enumerationTokens_gap_append hsep, ih, unescape_escape]
    rfl

/-- **The values of a written list are read back**, if they are trimmed and not empty. -/
theorem splitEnumeration_writtenItems {values : List String}
    (h : ∀ value ∈ values, value ≠ "" ∧ strip value = value) :
    splitEnumeration (writtenItems gap values) = values := by
  rw [splitEnumeration, enumerationTokens_writtenItems hgap, List.map_map]
  induction values with
  | nil => rfl
  | cons value values ih =>
    obtain ⟨hne, hstrip⟩ := h value (List.mem_cons_self ..)
    have htrim : trim value.toList = value.toList := by
      rw [← toList_strip, hstrip]
    have hnil : value.toList ≠ [] := fun h => hne (String.toList_eq_nil_iff.mp h)
    rw [List.map_cons, Function.comp_apply, htrim, List.filter_cons_of_pos (by simpa using hnil),
      List.map_cons, String.ofList_toList, ih fun w hw => h w (List.mem_cons_of_mem _ hw)]

theorem notMem_writtenList {values : List String} (h : ∀ value ∈ values, ':' ∉ value.toList) :
    ':' ∉ writtenList gap values := by
  have hitems : ':' ∉ writtenItems gap values := by
    induction values with
    | nil => simp [writtenItems]
    | cons value values ih =>
      obtain ⟨gap', heq, hgap'⟩ := writtenItems_cons gap value values
      have hcolon : ':' ∉ gap' := fun hmem =>
        notMem_of_mem_gap hgap (hgap' _ hmem) (by decide)
      rw [heq, List.mem_append, List.mem_append, not_or, not_or]
      exact ⟨notMem_writtenText (h value (List.mem_cons_self ..)), hcolon,
        ih fun w hw => h w (List.mem_cons_of_mem _ hw)⟩
  simp [writtenList, hitems]

end Gap

/-! ### Texts without comments and full stops -/

/-- Whether a text in front of `y` is cut off from it, and has no comment and no full stop outside
runs. -/
def Quiet (x y : List Char) : Prop :=
  ∃ l, segments (x ++ y) = l ++ segments y ∧ ∀ s ∈ l, s.isComment = false ∧ s ≠ .plain '.'

namespace Quiet

variable {x x' y : List Char}

theorem append (h : Quiet x (x' ++ y)) (h' : Quiet x' y) : Quiet (x ++ x') y := by
  obtain ⟨l, hl, hquiet⟩ := h
  obtain ⟨l', hl', hquiet'⟩ := h'
  refine ⟨l ++ l', by rw [List.append_assoc, hl, hl', List.append_assoc], ?_⟩
  intro s hs
  rcases List.mem_append.mp hs with hs | hs
  · exact hquiet s hs
  · exact hquiet' s hs

/-- Characters that open no run, and no full stops. -/
theorem of_plain (h : ∀ c ∈ x, c ∉ ['.', '#', '"', '<']) (y : List Char) : Quiet x y := by
  refine ⟨x.map .plain, ?_, ?_⟩
  · induction x with
    | nil => rfl
    | cons c x ih =>
      have hc := h c (List.mem_cons_self ..)
      simp only [List.mem_cons, not_or] at hc
      have hopen : opening c (x ++ y) = none :=
        opening_eq_none_iff.mpr ⟨hc.2.1, hc.2.2.1, fun hlt => absurd hlt hc.2.2.2.1⟩
      rw [List.cons_append, segments_plain hopen, ih fun d hd => h d (List.mem_cons_of_mem _ hd)]
      rfl
  · intro s hs
    obtain ⟨c, hc, rfl⟩ := List.mem_map.mp hs
    refine ⟨rfl, fun heq => h c hc ?_⟩
    rw [Segment.plain.inj heq]
    decide

theorem of_blank (h : ∀ c ∈ x, isBlank c = true) (y : List Char) : Quiet x y :=
  of_plain (fun c hc => notMem_of_all (by decide) (h c hc)) y

/-- A run that is no comment. -/
theorem of_run {k : Inert} (hk : k ≠ .comment)
    (h : segments (x ++ y) = .inert k x :: segments y) : Quiet x y := by
  refine ⟨[.inert k x], h, ?_⟩
  intro s hs
  obtain rfl := List.mem_singleton.mp hs
  refine ⟨?_, Segment.noConfusion⟩
  cases k <;> first | rfl | exact absurd rfl hk

/-- A written text has no comment and no full stop, whatever its characters. -/
theorem writtenText {text : List Char} (hy : text = [] → y.head? ≠ some '"') :
    Quiet (writtenText text) y :=
  of_run (by decide) (segments_writtenText hy)

/-- A written list has no comment and no full stop, whatever its values. -/
theorem writtenList {gap : List Char} (hgap : ∀ c ∈ gap, isTokenSeparator c = true)
    {values : List String} (h : ∀ value ∈ values, value ≠ "") (y : List Char) :
    Quiet (writtenList gap values) y := by
  have hparen : ∀ z, Quiet ['('] z ∧ Quiet [')'] z := fun z =>
    ⟨of_plain (List.all_iff_forall_prop.mp (by decide)) z,
      of_plain (List.all_iff_forall_prop.mp (by decide)) z⟩
  have hitems : ∀ z, Quiet (writtenItems gap values) z := by
    intro z
    induction values with
    | nil => exact ⟨[], rfl, by simp⟩
    | cons value values ih =>
      obtain ⟨gap', heq, hgap'⟩ := writtenItems_cons gap value values
      have hsep : ∀ c ∈ gap', isTokenSeparator c = true := fun c hc => hgap c (hgap' c hc)
      have hnil : value.toList ≠ [] := fun hnil =>
        h value (List.mem_cons_self ..) (String.toList_eq_nil_iff.mp hnil)
      rw [heq]
      exact (writtenText fun h => absurd h hnil).append
        ((of_plain (fun c hc => notMem_of_all (by decide) (hsep c hc)) _).append
          (ih fun w hw => h w (List.mem_cons_of_mem _ hw)))
  exact append (x := ['(']) (hparen _).1 ((hitems _).append (hparen y).2)

end Quiet

end FormOntology.Turtle
