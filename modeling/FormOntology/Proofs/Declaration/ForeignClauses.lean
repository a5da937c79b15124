import FormOntology.Proofs.Declaration.Clauses

/-!
# Clauses under foreign namespace names

The terms of forms stand under an accepted namespace name.  A clause under another name counts for
nothing, unless that name goes on with an accepted one behind a hyphen: then the clause is read as
if it stood under the accepted name.

## Main definitions

* `Clause.StandsBetween` — where a clause stands in a declaration.
* `Clause.under` — a clause with another namespace name.

## Main results

* `Clause.StandsBetween.firstObject?_eq` — a declaration is searched in front of a clause, in it and
  behind it.
* `extract_of_foreignClause` — **a clause under a foreign name can be left away, unless the name
  goes on with an accepted one behind a hyphen.**
-/

namespace FormOntology

open Text Turtle

/-- Whether a clause, written as `d`, stands between `x` and `y`, where no literal, comment or IRI
is open. -/
structure Clause.StandsBetween (c : Clause) (x d y : List Char) : Prop where
  /-- The clause is written as `d`, which may have comments. -/
  masked : maskComments d = c.text
  /-- Nothing of what is in front of the clause is open in it. -/
  front : segments (x ++ (d ++ y)) = segments x ++ segments (d ++ y)
  /-- Nothing of the clause is open behind it. -/
  back : segments (d ++ y) = segments d ++ segments y
  /-- Nothing of what is in front of the clause would be open behind it. -/
  removed : segments (x ++ y) = segments x ++ segments y
  /-- Another clause or the end of the declaration is behind it. -/
  ahead : MarkAhead (maskComments y)

namespace Clause.StandsBetween

variable {c : Clause} {x d y : List Char} (h : c.StandsBetween x d y)
include h

theorem maskComments_back : maskComments (d ++ y) = c.text ++ maskComments y := by
  rw [maskComments_append_of_cut h.back, h.masked]

theorem maskComments_eq :
    maskComments (x ++ (d ++ y)) = maskComments x ++ (c.text ++ maskComments y) := by
  rw [maskComments_append_of_cut h.front, h.maskComments_back]

section Search

variable {v : Vocabulary} {t : Term} {α : Type} {object? : List Char → Option α}
  (hread : t.ReadBy object?) (hs : Settled v t (maskComments x))
include hread hs

/-- **A declaration is searched in front of a clause, in it and behind it.** -/
theorem firstObject?_eq : firstObject? v t object? false (maskComments (x ++ (d ++ y)))
    = (firstObject? v t object? false (maskComments x)).or
      (firstObject? v t object? false (c.text ++ maskComments y)) := by
  have hcut := segments_maskComments_append h.front
  have hahead := c.markAhead_text_append (maskComments y)
  rw [h.maskComments_back] at hcut
  rw [h.maskComments_eq]
  exact firstObject?_append_of_settled hread hs hcut hahead.stopsName (hahead.bind_eq_none hread)

/-- Without the clause it is searched in front of it and behind it. -/
theorem firstObject?_removed : firstObject? v t object? false (maskComments (x ++ y))
    = (firstObject? v t object? false (maskComments x)).or
      (firstObject? v t object? false (maskComments y)) := by
  rw [maskComments_append_of_cut h.removed]
  exact firstObject?_append_of_settled hread hs (segments_maskComments_append h.removed)
    h.ahead.stopsName (h.ahead.bind_eq_none hread)

end Search

end Clause.StandsBetween

/-- A clause with another namespace name. -/
def Clause.under (c : Clause) (q : String) (hq : ∀ d ∈ q.toList, isNameChar d = true) : Clause :=
  { c with qualifier := q, qualifier_name := hq }

section Foreign

variable {v : Vocabulary} {c : Clause} {x d y : List Char} (h : c.StandsBetween x d y)
  (hsettled : ∀ t, Settled v t (maskComments x)) (hext : c.term.isExtension = true)
  (hforeign : v.accepts c.qualifier = false)
include h hsettled hext hforeign

/-- **A clause under a foreign name can be left away**, if the name does not go on with an accepted
one behind a hyphen and no term with an object begins in the object of the clause.  **If the name
goes on so, the clause is read as if it stood under the accepted name.** -/
theorem extract_of_foreignClause :
    ((∀ q, GoesOnWith c.qualifier q → v.accepts q = false) →
      (∀ (t : Term) {α : Type} (object? : List Char → Option α), t.ReadBy object? →
        firstObject? v t object? false (maskComments x) ≠ none
          ∨ objectIn? v t object? false c.object (maskComments y) = none) →
      AttributeSet.extract v (x ++ (d ++ y)) = AttributeSet.extract v (x ++ y))
    ∧ ∀ q hq d', GoesOnWith c.qualifier q → v.accepts q = true →
      (c.under q hq).StandsBetween x d' y →
      AttributeSet.extract v (x ++ (d ++ y)) = AttributeSet.extract v (x ++ (d' ++ y)) := by
  constructor
  · intro hname hquiet
    have hstop := h.ahead.stopsName.stopsBefore_isTermChar
    have hnot : ∀ t, ¬c.Gives v t := by
      rintro t ⟨rfl, hq⟩
      rcases qualifies_iff.mp (hq hext) with haccepts | ⟨q, hgoes, haccepts⟩
      · simp [hforeign] at haccepts
      · simp [hname q hgoes] at haccepts
    refine AttributeSet.ofMasked_congr fun t α object? hread => ?_
    rw [h.firstObject?_eq hread (hsettled t), h.firstObject?_removed hread (hsettled t),
      c.firstObject?_of_not_gives (hnot t), firstObject?_of_stopsBefore hstop]
    rcases hquiet t object? hread with hfront | hnone
    · obtain ⟨a, ha⟩ := Option.ne_none_iff_exists'.mp hfront
      rw [ha, Option.some_or, Option.some_or]
    · rw [hnone, Option.none_or]
  · intro q hq d' hgoes haccepts h'
    have hgives : ∀ t, c.Gives v t ↔ (c.under q hq).Gives v t := fun t =>
      and_congr_right fun _ => imp_congr_right fun _ =>
        iff_of_true (qualifies_iff.mpr (.inr ⟨q, hgoes, haccepts⟩))
          (qualifies_iff.mpr (.inl haccepts))
    refine AttributeSet.ofMasked_congr fun t α object? hread => ?_
    rw [h.firstObject?_eq hread (hsettled t), h'.firstObject?_eq hread (hsettled t)]
    by_cases hg : c.Gives v t
    · rw [c.firstObject?_of_gives hg, Clause.firstObject?_of_gives _ ((hgives t).mp hg)]
      rfl
    · rw [c.firstObject?_of_not_gives hg,
        Clause.firstObject?_of_not_gives _ fun hg' => hg ((hgives t).mpr hg')]
      rfl

end Foreign

/-- A clause that says that a value must be given. -/
def requiredClause (q : String) (hq : ∀ d ∈ q.toList, isNameChar d = true) : Clause :=
  .spaced q hq .required "true".toList (List.cons_ne_nil _ _) (stopsBefore_cons.mpr rfl)

/-- It counts for nothing under `foo`, but under `foo-ex` it counts as under `ex`. -/
theorem requiredClause_under_fooEx :
    Vocabulary.standard.accepts "foo" = false ∧ Vocabulary.standard.accepts "foo-ex" = false
      ∧ (∀ t, Settled .standard t (maskComments bareProperty))
      ∧ AttributeSet.extract .standard
          (bareProperty ++ (" ; foo:isRequired true".toList ++ " .".toList))
        = AttributeSet.extract .standard (bareProperty ++ " .".toList)
      ∧ AttributeSet.extract .standard
          (bareProperty ++ (" ; foo-ex:isRequired true".toList ++ " .".toList))
        = AttributeSet.extract .standard
          (bareProperty ++ (" ; ex:isRequired true".toList ++ " .".toList))
      ∧ (AttributeSet.extract .standard
          (bareProperty ++ (" ; foo-ex:isRequired true".toList ++ " .".toList))).required = true
      ∧ (AttributeSet.extract .standard (bareProperty ++ " .".toList)).required = false := by
  have hahead : MarkAhead (maskComments " .".toList) :=
    ⟨[' '], ['.'], by decide +kernel, List.all_eq_true.mp (by decide), by simp⟩
  have hfoo : (requiredClause "foo" (List.all_eq_true.mp rfl)).StandsBetween bareProperty
      " ; foo:isRequired true".toList " .".toList :=
    ⟨by decide +kernel, by decide +kernel, by decide +kernel, by decide +kernel, hahead⟩
  have hfooEx : (requiredClause "foo-ex" (List.all_eq_true.mp rfl)).StandsBetween bareProperty
      " ; foo-ex:isRequired true".toList " .".toList :=
    ⟨by decide +kernel, by decide +kernel, by decide +kernel, by decide +kernel, hahead⟩
  have hex : ((requiredClause "foo-ex" (List.all_eq_true.mp rfl)).under "ex"
      (List.all_eq_true.mp rfl)).StandsBetween bareProperty
      " ; ex:isRequired true".toList " .".toList :=
    ⟨by decide +kernel, by decide +kernel, by decide +kernel, by decide +kernel, hahead⟩
  refine ⟨by decide, by decide, settled_bareProperty, ?_, ?_, by decide +kernel,
    by decide +kernel⟩
  · refine (extract_of_foreignClause hfoo settled_bareProperty rfl (by decide)).1 ?_ ?_
    · intro q hq
      have hhyphen : '-' ∈ "foo".toList := hq.subset (List.mem_cons_self ..)
      exact absurd hhyphen (by decide)
    · intro t _ object? hread
      right
      cases hread <;> decide +kernel
  · exact (extract_of_foreignClause hfooEx settled_bareProperty rfl (by decide)).2 "ex"
      _ _ (by decide) (by decide) hex

end FormOntology
