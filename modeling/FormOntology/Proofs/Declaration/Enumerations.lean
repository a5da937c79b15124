import FormOntology.Proofs.Declaration.Clauses
import FormOntology.Proofs.Declaration.Entries
import FormOntology.Proofs.Declaration.Headerless
import FormOntology.Proofs.Declaration.RoundTrip

/-!
# Enumerations from a text to the attributes

A declaration whose only clause lists quoted values is one block, and its values are those of the
list.  The strings may have parentheses, number signs, full stops, quotes and backslashes, and even
a whole declaration: the scanner of blocks, the mask of comments and the pattern of lists end the
list at the same parenthesis.

## Main definitions

* `writtenEnumeration` — a list as written.
* `ListDeclaration` — a declaration whose only clause is a list of quoted values.

## Main results

* `Clause.mute_text`, `Mute.writtenEnumeration` — nothing in a clause ends or begins a block.
* `HeaderForm.passes_text_of_isExtension` — a header is passed over, whatever names are accepted.
* `ListDeclaration.enumeration_extract` — the values of a declaration are read back.
* `enumerations_read_back` — **lists are read back, what is read is trimmed, and a list of quoted
  values gets from any text to the attributes unchanged.**
-/

namespace FormOntology

open Text Turtle

/-! ### Headers that are passed over -/

section Passes

variable {v : Vocabulary} {t : Term} {α : Type} {object? : List Char → Option α}
  (hread : t.ReadBy object?)
include hread

/-- A word is passed over in front of the mark behind a clause. -/
theorem passes_of_markAhead {x y : List Char} (hx : ∀ c ∈ x, isBlank c = false)
    (hy : MarkAhead y) : Passes (t.read? v) object? x y := by
  rintro u w rfl -
  have hr := t.nameReader v
  rw [hr.append hy.stopsName.stopsBefore_isTermChar]
  cases hw : t.read? v w with
  | none => rfl
  | some r =>
    cases r with
    | nil => exact hy.bind_eq_none hread
    | cons d r =>
      -- the term ends inside the word
      obtain ⟨p, rfl, -⟩ := hr.colon hw
      have hd := hx d (by simp)
      rw [Option.map_some, Option.bind_some, List.cons_append, readBlanks?, hd,
        if_neg Bool.false_ne_true, Option.bind_none]

/-- A header is passed over in the search for a term under a namespace name. -/
theorem HeaderForm.passes_text_of_isExtension (ht : t.isExtension = true) {f : HeaderForm}
    (hf : f.Valid v) {y : List Char} (hy : MarkAhead y) :
    Passes (t.read? v) object? f.text y := by
  -- neither the assertion nor the mark begins like an object
  have hmark : object? (Header.mark ++ y) = none := by
    cases hread
    case label | domain | range => cases ht
    all_goals rfl
  apply HeaderForm.passes_text_of_parts (t.nameReader v) hf
  case hnames => exact fun _ _ _ _ => hread.eq_none_of_assertion ht hf.assertion _
  case hassertion => exact fun _ _ _ _ => hmark
  case hmark => exact passes_of_markAhead hread (fun c => Header.isBlank_eq_false_of_mem_mark) hy

end Passes

/-! ### Mute clauses -/

/-- A clause is mute if its object is, and if its object does not begin like the assertion of a
header. -/
theorem Clause.mute_text (c : Clause) {v : Vocabulary} {y : List Char} (hobject : Mute v c.object y)
    (hnone : readTypeAssertion? (c.object ++ y) = none) : Mute v c.text y := by
  have hstop : StopsBefore isBlank (c.object ++ y) := by
    intro d hd
    rw [List.head?_append, List.head?_eq_some_head c.object_ne, Option.some_or] at hd
    exact c.object_stops d (by rw [List.head?_eq_some_head c.object_ne, hd])
  have hterm : Mute v c.termText (c.gap ++ (c.object ++ y)) := by
    refine .of_plain (fun d hd => notMem_of_all (by decide) (c.isTermChar_of_mem_termText d hd)) ?_
    refine .of_word (Header.nameReader v) (fun d hd => ?_) c.gap_ne c.gap_blank hstop
      fun _ _ _ _ => hnone
    rw [← Bool.not_eq_true]
    intro hblank
    have := c.isTermChar_of_mem_termText d hd
    simp [isTermChar_eq_false_of_isBlank hblank] at this
  have htext : c.text = c.lead ++ ([';'] ++ (c.indent ++ (c.termText ++ (c.gap ++ c.object)))) := by
    simp [text, front]
  rw [htext]
  refine .append (.of_blank c.lead_blank _) (.append (.of_not_isTermChar ?_ _)
    (.append (.of_blank c.indent_blank _) (.append ?_ (.append (.of_blank c.gap_blank _) hobject))))
  · exact List.forall_mem_singleton.mpr (by decide)
  · rwa [List.append_assoc]

/-- A list as written, with `last` in front of its parenthesis. -/
def writtenEnumeration (entries : List Entry) (last : List Char) : List Char :=
  '(' :: (writtenEntries entries ++ (last ++ [')']))

section Lists

variable {entries : List Entry} {last : List Char}
  (hquoted : ∀ e ∈ entries, e.token.isBare = false)
  (hlast : ∀ c ∈ last, isTokenSeparator c = true)
include hquoted

/-- Quoted tokens are mute, whatever their texts are. -/
theorem Mute.writtenEntries (v : Vocabulary) (y : List Char) :
    Mute v (writtenEntries entries) y := by
  induction entries with
  | nil => exact .of_blank (by simp) y
  | cons e entries ih =>
    have hrest := ih fun e' he' => hquoted e' (List.mem_cons_of_mem _ he')
    rw [writtenEntries_cons]
    refine .append (.of_separator e.gap_separator _) (.append ?_ hrest)
    have hvalid := e.valid
    have hbare := hquoted e (List.mem_cons_self ..)
    cases htoken : e.token with
    | bare t =>
      rw [htoken] at hbare
      cases hbare
    | quoted t =>
      rw [htoken] at hvalid
      cases hvalid with
      | quoted hne _ => exact .writtenText fun hnil => absurd hnil hne

include hlast

/-- A list of quoted values is mute. -/
theorem Mute.writtenEnumeration (v : Vocabulary) (y : List Char) :
    Mute v (writtenEnumeration entries last) y := by
  refine .append (x := ['(']) (.of_not_isTermChar ?_ _) (.append (.writtenEntries hquoted v _)
    (.append (.of_separator hlast _) (.of_not_isTermChar ?_ _)))
  all_goals exact List.forall_mem_singleton.mpr (by decide)

/-- The body of a list of quoted values is what stands between its parentheses. -/
theorem listBody?_writtenEnumeration (y : List Char) :
    listBody? (FormOntology.writtenEnumeration entries last ++ y)
      = some (FormOntology.writtenEntries entries ++ last) := by
  have htext : FormOntology.writtenEnumeration entries last ++ y
      = '(' :: (FormOntology.writtenEntries entries ++ (last ++ ')' :: y)) := by
    simp [FormOntology.writtenEnumeration]
  rw [htext, listBody?, if_pos rfl, listTail?_writtenEntries hlast hquoted]

end Lists

/-! ### Declarations -/

/-- A declaration whose only clause is a list of quoted values under an accepted name. -/
structure ListDeclaration (v : Vocabulary) where
  /-- The header. -/
  form : HeaderForm
  /-- The clause. -/
  clause : Clause
  /-- The values with what stands in front of them. -/
  entries : List Entry
  /-- What stands in front of the parenthesis that ends the list. -/
  last : List Char
  /-- What stands in front of the full stop. -/
  back : List Char
  /-- The header is one. -/
  valid : form.Valid v
  /-- The clause lists the values to choose from. -/
  term_eq : clause.term = .enumeration
  /-- Its name is accepted. -/
  accepts : v.accepts clause.qualifier = true
  /-- Its object is the list. -/
  object_eq : clause.object = writtenEnumeration entries last
  /-- All values have quotes. -/
  quoted : ∀ e ∈ entries, e.token.isBare = false
  /-- There are only blanks and commas behind the values. -/
  last_separator : ∀ c ∈ last, isTokenSeparator c = true
  /-- There are only blanks in front of the full stop. -/
  back_blank : ∀ c ∈ back, isBlank c = true

namespace ListDeclaration

variable {v : Vocabulary} (d : ListDeclaration v)

/-- What stands between the header and the full stop. -/
def body : List Char := d.clause.text ++ d.back

/-- The declaration as written. -/
def text : List Char := d.form.text ++ (d.body ++ ['.'])

/-- The values in the order in which they are written. -/
def values : List String := d.entries.map Entry.value

/-- Where the header of the declaration is behind `x`. -/
def anchor (x : List Char) : Anchor :=
  ⟨d.form.header, size x, size x + size d.form.text⟩

theorem mute_body (y : List Char) : Mute v d.body ('.' :: y) := by
  refine .append (d.clause.mute_text ?_ ?_) (.of_blank d.back_blank _)
  · rw [d.object_eq]
    exact .writtenEnumeration d.quoted d.last_separator v _
  · rw [d.object_eq]
    exact readTypeAssertion?_cons (by decide) (by decide) _

/-- **The values of a declaration are read back.** -/
theorem enumeration_extract : (AttributeSet.extract v d.text).enumeration = d.values := by
  have hgives : d.clause.Gives v .enumeration :=
    ⟨d.term_eq, fun _ => qualifies_iff.mpr (.inl d.accepts)⟩
  have hsplit : d.body ++ ['.'] = d.clause.text ++ (d.back ++ ['.']) := List.append_assoc ..
  have hheader : Passes (Term.enumeration.read? v) listBody? d.form.text (d.body ++ ['.']) := by
    rw [hsplit]
    exact HeaderForm.passes_text_of_isExtension .enumeration rfl d.valid
      (d.clause.markAhead_text_append _)
  have hfind : firstObject? v .enumeration listBody? false d.text
      = some (writtenEntries d.entries ++ d.last) := by
    rw [text, firstObject?_of_passes hheader, hsplit, d.clause.firstObject?_of_gives hgives,
      d.object_eq, listBody?_writtenEnumeration d.quoted d.last_separator, Option.some_or]
  have hmask : maskComments d.text = d.text :=
    HeaderForm.maskComments_of_quiet d.valid (d.mute_body []).quiet
  rw [AttributeSet.extract, hmask]
  show ((firstObject? v .enumeration listBody? false d.text).map splitEnumeration).getD [] = _
  rw [hfind, Option.map_some, Option.getD_some,
    splitEnumeration_writtenEntries d.last_separator (isChain_keptApart d.quoted)]
  rfl

/-- A declaration is a block, if its header is found in its text. -/
theorem mem_blocks {x y : List Char} (hy : y.head?.all isAsciiBlank = true)
    (hx : x = [] ∨ d.anchor x ∈ liveAnchors v (x ++ (d.text ++ y))) :
    d.form.block x (d.body ++ ['.']) ∈ blocks v (x ++ (d.text ++ y)) := by
  have htext : d.text ++ y = d.form.text ++ (d.body ++ '.' :: y) := by simp [text]
  have hahead : MarkAhead (d.body ++ '.' :: y) := by
    rw [body, List.append_assoc]
    exact d.clause.markAhead_text_append _
  have hword : startsOutsideWord (d.body ++ '.' :: y) = true :=
    startsOutsideWord_iff.mpr fun c hc => (Bool.or_eq_false_iff.mp (hahead.stopsName.1 c hc)).1
  rw [htext] at hx ⊢
  refine HeaderForm.block_mem_blocks d.valid (d.mute_body y) hy ?_
  rcases hx with rfl | hx
  · rw [size_nil, Nat.zero_add]
    exact mem_liveAnchors_start d.valid hword
  · exact hx

end ListDeclaration

/-- **The tokens of a list are read back in order**, quoted or bare; **what is read of any text is
trimmed and not empty**; and **a list of quoted values gets to the attributes unchanged** from the
block of its declaration, whatever is in front of the declaration and behind it, if its header is
found there. -/
theorem enumerations_read_back (v : Vocabulary) :
    (∀ (entries : List Entry) (last : List Char), (∀ c ∈ last, isTokenSeparator c = true) →
        entries.IsChain KeptApart →
        splitEnumeration (writtenEntries entries ++ last) = entries.map Entry.value)
      ∧ (∀ body : List Char, ∀ value ∈ splitEnumeration body, value ≠ "" ∧ strip value = value)
      ∧ ∀ (d : ListDeclaration v) (x y : List Char), y.head?.all isAsciiBlank = true →
        (x = [] ∨ d.anchor x ∈ liveAnchors v (x ++ (d.text ++ y))) →
        ∃ b ∈ blocks v (x ++ (d.text ++ y)), b.text = d.text
          ∧ b.span = ⟨size x, size x + size d.text⟩ ∧ b.termination = .terminated
          ∧ (AttributeSet.extract v b.text).enumeration = d.values := by
  refine ⟨fun _ _ hlast h => splitEnumeration_writtenEntries hlast h,
    fun _ _ h => strip_of_mem_splitEnumeration h, fun d x y hy hx => ?_⟩
  exact ⟨_, d.mem_blocks hy hx, rfl, rfl, rfl, d.enumeration_extract⟩

/-- Quoted and bare tokens that touch. -/
def touchingEntries : List Entry :=
  [⟨[], .quoted "a, b".toList, by simp, .quoted (by decide) (by decide)⟩,
    ⟨[], .bare "c)".toList, by simp, .bare (by decide) (List.all_eq_true.mp (by decide))⟩,
    ⟨[' ', ','], .bare "d\\".toList, List.all_eq_true.mp (by decide),
      .bare (by decide) (List.all_eq_true.mp (by decide))⟩,
    ⟨[], .quoted "\\".toList, by simp, .quoted (by decide) (by decide)⟩]

/-- Values that look like the end of a list, a comment, the end of a declaration and another
declaration. -/
def choiceEntries : List Entry :=
  [⟨[' '], .quoted "10.00 ) .".toList, List.all_eq_true.mp (by decide),
      .quoted (by decide) (by decide)⟩,
    ⟨[], .quoted "\"20\" # (".toList, by simp, .quoted (by decide) (by decide)⟩,
    ⟨[' ', ','], .quoted "C:\\\n. ex:p a owl:DatatypeProperty ; # \\\"".toList,
      List.all_eq_true.mp (by decide), .quoted (by decide) (by decide)⟩]

/-- A declaration with these values. -/
def choices : ListDeclaration .standard where
  form := ⟨⟨"ex".toList, "choice".toList⟩, [' '], ['a'], [' ']⟩
  clause := .spaced "autoins" (List.all_eq_true.mp (by decide)) .enumeration
    (writtenEnumeration choiceEntries [' ', ',']) (List.cons_ne_nil _ _) (stopsBefore_cons.mpr rfl)
  entries := choiceEntries
  last := [' ', ',']
  back := ['\n']
  valid :=
    { qualifier := List.all_eq_true.mp (by decide)
      accepted := by decide
      identifier := by decide
      gap_ne := by decide
      gap_blank := List.all_eq_true.mp (by decide)
      assertion := by decide
      gap'_ne := by decide
      gap'_blank := List.all_eq_true.mp (by decide) }
  term_eq := rfl
  accepts := by decide
  object_eq := rfl
  quoted := by decide
  last_separator := List.all_eq_true.mp (by decide)
  back_blank := List.all_eq_true.mp (by decide)

/-- Tokens that touch are read back, and the values that look like other parts of a text are those
of their declaration, behind a comment and in front of another declaration. -/
theorem choices_read_back :
    touchingEntries.IsChain KeptApart
      ∧ splitEnumeration "\"a, b\"c) ,d\\\"\\\\\"".toList = ["a, b", "c)", "d\\", "\\"]
      ∧ choices.text = ("ex:choice a owl:DatatypeProperty ; autoins:enumerationValues ( "
          ++ "\"10.00 ) .\"\"\\\"20\\\" # (\" ,"
          ++ "\"C:\\\\\\n. ex:p a owl:DatatypeProperty ; # \\\\\\\"\" ,)\n.").toList
      ∧ ∃ b ∈ blocks .standard ("# \"choices\n".toList
            ++ (choices.text ++ "\nex:q a owl:DatatypeProperty .".toList)),
          b.text = choices.text ∧ b.span = ⟨11, 150⟩ ∧ b.termination = .terminated
            ∧ (AttributeSet.extract .standard b.text).enumeration
              = ["10.00 ) .", "\"20\" # (", "C:\\\n. ex:p a owl:DatatypeProperty ; # \\\""] := by
  obtain ⟨hsplit, -, hblock⟩ := enumerations_read_back .standard
  have hchain : touchingEntries.IsChain KeptApart := by decide
  refine ⟨hchain, hsplit touchingEntries [] (by simp) hchain, by decide +kernel, ?_⟩
  have hanchor : choices.anchor "# \"choices\n".toList
      ∈ liveAnchors .standard ("# \"choices\n".toList
        ++ (choices.text ++ "\nex:q a owl:DatatypeProperty .".toList)) := by
    decide +kernel
  obtain ⟨b, hb, htext, hspan, hend, hvalues⟩ := hblock choices _ _ (by decide) (.inr hanchor)
  have hsize : size "# \"choices\n".toList = 11 ∧ size choices.text = 139 := by decide +kernel
  rw [hsize.1, hsize.2] at hspan
  exact ⟨b, hb, htext, hspan, hend, hvalues⟩

end FormOntology
