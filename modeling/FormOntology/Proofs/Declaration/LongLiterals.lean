import FormOntology.Proofs.Declaration.Clauses
import FormOntology.Proofs.Turtle.LongLiterals

/-!
# Long literals as objects

A text that is written as a long literal is the object of a clause.  The run of the literal is what
was written, and so is the attribute, unless the text ends in a quote: then the attribute has a
backslash in place of that quote.

## Main results

* `Clause.segments_of_writtenLong` — the literal is a run of its own.
* `literalOf?_of_writtenLong` — the body that is read.
* `extract_of_writtenLong` — **what is read of a text in a long literal.**
-/

namespace FormOntology

open Text Turtle

/-- The attributes that are literals with their escapes read. -/
def Term.unescaped : List Term := [.label, .helpText, .validationPattern, .defaultValue]

/-- Such an attribute is the text that the body of its literal stands for; a label is none if it is
blank. -/
theorem AttributeSet.text?_extract {v : Vocabulary} {t : Term} (ht : t ∈ Term.unescaped)
    {text b : List Char} (h : literalOf? v t (maskComments text) = some b)
    (hlabel : t = .label → isBlankString (String.ofList (unescape b)) = false) :
    (extract v text).text? t = some (String.ofList (unescape b)) := by
  simp only [Term.unescaped, List.mem_cons, List.not_mem_nil, or_false] at ht
  rcases ht with rfl | rfl | rfl | rfl
  · simp only [text?, extract, ofMasked, h, Option.map_some]
    rw [Option.filter_some, hlabel rfl]
    rfl
  all_goals simp only [text?, extract, ofMasked, h, Option.map_some]

section WrittenLong

variable {c : Clause} {s : String} (hobject : c.object = writtenLong s.toList)
include hobject

/-- The literal is a run of its own. -/
theorem Clause.segments_of_writtenLong (y : List Char) : segments (c.text ++ y)
    = c.front.map .plain ++ .inert .longLiteral (writtenLong s.toList) :: segments y := by
  rw [c.segments_text_append, hobject, segments_writtenLong]

/-- Comments are blanked out behind it. -/
theorem Clause.maskComments_of_writtenLong (y : List Char) :
    maskComments (c.text ++ y) = c.text ++ maskComments y := by
  rw [maskComments_eq_maskedText, c.segments_of_writtenLong hobject, maskedText_append,
    maskedText_map_plain, maskedText_cons, Segment.masked_of_ne_comment (by decide), text, hobject,
    List.append_assoc]
  rfl

variable {x y : List Char}
  (hcut : segments (x ++ (c.text ++ y)) = segments x ++ segments (c.text ++ y))
include hcut

/-- Its span is that of all that was written. -/
theorem Clause.mem_inertRanges_of_writtenLong :
    ⟨size (x ++ c.front), size (x ++ c.text)⟩ ∈ inertRanges (x ++ (c.text ++ y)) := by
  rw [inertRanges, hcut, c.segments_of_writtenLong hobject, ← List.append_assoc, rangesFrom_append,
    List.mem_append]
  refine .inr (List.mem_cons.mpr (.inl ?_))
  simp [text, hobject, Nat.add_assoc]

variable {v : Vocabulary} (hread : c.term.ReadBy literalBody?)
  (haccepts : c.term.isExtension = true → v.accepts c.qualifier = true)
  (hsettled : Settled v c.term (maskComments x))
  (hfirst : literalOf? v c.term (maskComments x) = none)
include hread haccepts hsettled hfirst

/-- **The body that is read of a text in a long literal.** -/
theorem literalOf?_of_writtenLong :
    literalOf? v c.term (maskComments (x ++ (c.text ++ y))) = some (readBody s.toList) := by
  have hmask := maskComments_append_of_cut hcut
  have hcut' := segments_maskComments_append hcut
  rw [c.maskComments_of_writtenLong hobject] at hmask hcut'
  have hahead := c.markAhead_text_append (maskComments y)
  have hgives : c.Gives v c.term := ⟨rfl, fun hext => qualifies_iff.mpr (.inl (haccepts hext))⟩
  rw [literalOf?] at hfirst
  rw [literalOf?, hmask, firstObject?_append_of_settled hread hsettled hcut' hahead.stopsName
    (hahead.bind_eq_none hread), hfirst, Option.none_or, c.firstObject?_of_gives hgives, hobject,
    literalBody?_writtenLong, Option.some_or]

/-- **What is read of a text in a long literal.**  The span of the literal is that of all that was
written, and the attribute is the text, unless that ends in a quote: then the body that is read ends
behind the backslash in front of the quote, and the attribute has this backslash instead. -/
theorem extract_of_writtenLong :
    ⟨size (x ++ c.front), size (x ++ c.text)⟩ ∈ inertRanges (x ++ (c.text ++ y))
      ∧ literalOf? v c.term (maskComments (x ++ (c.text ++ y))) = some (readBody s.toList)
      ∧ (s.toList.getLast? ≠ some '"' → readBody s.toList = longEscape s.toList
        ∧ (c.term ∈ Term.unescaped → (c.term = .label → isBlankString s = false) →
          (AttributeSet.extract v (x ++ (c.text ++ y))).text? c.term = some s))
      ∧ ∀ s', s.toList = s' ++ ['"'] → readBody s.toList = longEscape s' ++ ['\\']
        ∧ (c.term ∈ Term.unescaped →
          (AttributeSet.extract v (x ++ (c.text ++ y))).text? c.term
            = some (String.ofList (s' ++ ['\\']))) := by
  have hbody := literalOf?_of_writtenLong hobject hcut hread haccepts hsettled hfirst
  refine ⟨c.mem_inertRanges_of_writtenLong hobject hcut, hbody, ?_, ?_⟩
  · intro hlast
    refine ⟨if_neg hlast, fun ht hlabel => ?_⟩
    have hs : String.ofList (unescape (readBody s.toList)) = s := by
      rw [unescape_readBody hlast, String.ofList_toList]
    rw [AttributeSet.text?_extract ht hbody (by rwa [hs]), hs]
  · intro s' hs
    have hquote : unescape (readBody s.toList) = s' ++ ['\\'] := by
      rw [hs, unescape_readBody_concat]
    refine ⟨by rw [hs, readBody_concat], fun ht => ?_⟩
    rw [AttributeSet.text?_extract ht hbody ?_, hquote]
    intro _
    rw [hquote, isBlankString, String.toList_ofList, List.all_append]
    simp only [List.all_cons, show isBlank '\\' = false from rfl, Bool.false_and, Bool.and_false]

end WrittenLong

/-- A clause with a help text in a long literal. -/
def helpClause (s : String) : Clause :=
  .spaced "ex" (List.all_eq_true.mp rfl) .helpText (writtenLong s.toList) (List.cons_ne_nil _ _)
    (stopsBefore_cons.mpr rfl)

/-- A help text that ends in a quote is not read as it was written; with a full stop behind the
quote it is. -/
theorem helpClause_ends_in_quote :
    Settled .standard (helpClause "").term (maskComments bareProperty)
      ∧ literalOf? .standard (helpClause "").term (maskComments bareProperty) = none
      ∧ (AttributeSet.extract .standard
          (bareProperty ++ ((helpClause "Say \"yes\".").text ++ " .".toList))).helpText
        = some "Say \"yes\"."
      ∧ (AttributeSet.extract .standard
          (bareProperty ++ ((helpClause "Say \"yes\"").text ++ " .".toList))).helpText
        = some "Say \"yes\\" := by
  have hfirst : literalOf? .standard (helpClause "").term (maskComments bareProperty) = none := by
    decide +kernel
  refine ⟨settled_bareProperty _, hfirst, ?_, ?_⟩
  · have h := extract_of_writtenLong (c := helpClause "Say \"yes\".") rfl (x := bareProperty)
      (y := " .".toList) (by decide +kernel) .helpText (fun _ => by decide)
      (settled_bareProperty _) hfirst
    exact (h.2.2.1 (by decide)).2 (by decide) nofun
  · have h := extract_of_writtenLong (c := helpClause "Say \"yes\"") rfl (x := bareProperty)
      (y := " .".toList) (by decide +kernel) .helpText (fun _ => by decide)
      (settled_bareProperty _) hfirst
    exact (h.2.2.2 "Say \"yes".toList (by decide)).2 (by decide)

end FormOntology
