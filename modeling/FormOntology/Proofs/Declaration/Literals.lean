import Mathlib.Data.List.Infix
import FormOntology.Proofs.Declaration.Live
import FormOntology.Proofs.Declaration.Objects
import FormOntology.Proofs.Turtle.Literals

/-!
# Attributes and literals

The search for an object goes through literals like through any other text.  A term in front of a
literal is read without it where it is settled there, so what the body of a literal gives to the
attributes can be told from the body and what is behind it.

## Main definitions

* `TermAt` — where a term stands in front of an object.
* `Settled` — the places of a term are settled in front of a literal.
* `StopsName` — whether no name goes on at the start of a text.

## Main results

* `firstObject?_append_of_settled` — a settled front is searched as if the text ended there.
* `firstObject?_of_literalAt` — a text is searched in front of a literal, in it and behind it.
* `extract_of_literalAt` — **a literal gives a term its object exactly if a term with an object
  begins in its body and none does in front of it.**
-/

namespace FormOntology

open Text Turtle

/-! ### Terms in front of a literal -/

/-- Whether a term begins behind `u` in a text, where a word may begin, with blanks and then `o`
behind it. -/
def TermAt (v : Vocabulary) (t : Term) (x u o : List Char) : Prop :=
  ∃ w, x = u ++ w ∧ inWordBehind false u = false ∧ (t.read? v w).bind readBlanks? = some o

/-- Whether every place of a term in a text is settled there. -/
structure Settled (v : Vocabulary) (t : Term) (x : List Char) : Prop where
  /-- The term does not wait for an object at the end of the text. -/
  object_ne_nil : ∀ u o, TermAt v t x u o → o ≠ []
  /-- The term stands in no literal and in no IRI. -/
  outside : ∀ u o, TermAt v t x u o → Spans.contains (inertRanges x).toArray (size u) = false
  /-- No list of values is open at the end of the text. -/
  list_closed : t = .enumeration →
    ∀ u o, TermAt v t x u o → o.head? = some '(' → listBody? o ≠ none

/-- A text without terms is settled. -/
theorem settled_of_forall_tails {v : Vocabulary} {t : Term} {x : List Char}
    (h : ∀ w ∈ x.tails, (t.read? v w).bind readBlanks? = none) : Settled v t x := by
  have hat : ∀ u o, ¬TermAt v t x u o := by
    rintro u o ⟨w, rfl, -, hread⟩
    simp [h w ((List.mem_tails _ _).mpr ⟨u, rfl⟩)] at hread
  exact ⟨fun u o h => absurd h (hat u o), fun u o h => absurd h (hat u o),
    fun _ u o h => absurd h (hat u o)⟩

/-- A term that is read is a word of term characters, with a colon. -/
theorem Term.exists_of_read? {t : Term} {v : Vocabulary} {w r : List Char}
    (h : t.read? v w = some r) :
    ∃ p, w = p ++ r ∧ (∀ c ∈ p, isTermChar c = true) ∧ ':' ∈ p := by
  have hword := t.isTermChar_of_mem_word
  unfold read? at h
  split at h
  · obtain ⟨⟨name, rest⟩, hname, hrest⟩ := Option.bind_eq_some_iff.mp h
    obtain ⟨rfl, hchars, -⟩ := Vocabulary.read?_eq_some_iff.mp hname
    obtain rfl := readWord?_eq_some_iff.mp hrest
    refine ⟨name ++ ':' :: t.word.toList, by simp, ?_, by simp⟩
    intro c hc
    rcases List.mem_append.mp hc with hc | hc
    · rw [isTermChar, hchars c hc, Bool.true_or]
    · rcases List.mem_cons.mp hc with rfl | hc
      · rfl
      · exact hword c hc
  · next hext =>
    have hcolon : ':' ∈ t.word.toList := by
      cases t <;> first | decide | exact absurd rfl hext
    exact ⟨_, readWord?_eq_some_iff.mp h, hword, hcolon⟩

/-- Behind characters that open no run, the first of which is in none, a text is cut. -/
theorem segments_append_of_outside {u q o : List Char} (hq : q ≠ [])
    (hopen : ∀ c ∈ q, ∀ r, opening c r = none)
    (hout : Spans.contains (inertRanges (u ++ (q ++ o))).toArray (size u) = false) :
    segments (u ++ q ++ o) = segments (u ++ q) ++ segments o := by
  obtain ⟨c, r, hc⟩ := List.exists_cons_of_ne_nil hq
  have htext : u ++ (q ++ o) = u ++ c :: (r ++ o) := by rw [hc, List.cons_append]
  rw [htext] at hout
  obtain ⟨s, s', hs, rfl⟩ := contains_inertRanges_eq_false_iff.mp hout
  have hrest := (segments_of_append hs rfl).2
  rw [← List.cons_append, ← hc, segments_append_of_opening hopen] at hrest
  rw [← htext, ← hrest, ← List.append_assoc, ← List.append_assoc] at hs
  rw [hs, (segments_of_append hs (by simp)).1]

/-- Behind a term outside every run a text is cut. -/
theorem TermAt.exists_cut {v : Vocabulary} {t : Term} {x u o : List Char} (h : TermAt v t x u o)
    (hout : Spans.contains (inertRanges x).toArray (size u) = false) :
    ∃ q, x = u ++ q ++ o ∧ segments (u ++ q ++ o) = segments (u ++ q) ++ segments o := by
  obtain ⟨w, rfl, -, hread⟩ := h
  obtain ⟨r, hr, hblanks⟩ := Option.bind_eq_some_iff.mp hread
  obtain ⟨p, rfl, hp, -⟩ := Term.exists_of_read? hr
  obtain ⟨gap, rfl, hne, hgap, -⟩ := readBlanks?_eq_some_iff.mp hblanks
  have hopen : ∀ c ∈ p ++ gap, ∀ r, opening c r = none := by
    intro c hc r
    refine opening_of_isHeaderChar ?_ r
    unfold isHeaderChar
    rcases List.mem_append.mp hc with hc | hc
    · rw [← isTermChar, hp c hc, Bool.true_or]
    · rw [hgap c hc, Bool.or_true]
  rw [← List.append_assoc p] at hout ⊢
  exact ⟨p ++ gap, by simp, segments_append_of_outside (by simp [hne]) hopen hout⟩

/-! ### Objects in front of a cut -/

/-- Whether no name goes on at the start of a text. -/
def StopsName (z : List Char) : Prop := StopsBefore isLocalChar z ∧ z.head? ≠ some ':'

namespace StopsName

theorem cons {c : Char} (hc : isLocalChar c = false) (hcolon : c ≠ ':') (z : List Char) :
    StopsName (c :: z) :=
  ⟨stopsBefore_cons.mpr hc, by simpa using hcolon⟩

theorem literal (body y : List Char) : StopsName (literal body ++ y) :=
  cons (by decide) (by decide) _

variable {z : List Char} (h : StopsName z)
include h

theorem startsOutsideWord : startsOutsideWord z = true :=
  startsOutsideWord_iff.mpr fun c hc => (Bool.or_eq_false_iff.mp (h.1 c hc)).1

theorem stopsBefore_isTermChar : StopsBefore isTermChar z := by
  intro c hc
  rw [isTermChar, Bool.or_eq_false_iff, beq_eq_false_iff_ne, ← Bool.not_eq_true]
  refine ⟨fun hname => ?_, fun hcolon => h.2 (hcolon ▸ hc)⟩
  have := h.1 c hc
  rw [isLocalChar_of_isNameChar hname] at this
  cases this

end StopsName

section Cut

variable {t : Term} {α : Type} {object? : List Char → Option α} (h : t.ReadBy object?)
  {z : List Char} {l : List Segment} (hz : StopsName z)
include h hz

/-- Where a text is cut and no name goes on, no reader reads on but that of lists. -/
theorem Term.ReadBy.append_of_cut {o : List Char} (hcut : segments (o ++ z) = segments o ++ l)
    (ho : o ≠ []) (hlist : t = .enumeration → o.head? = some '(' → listBody? o ≠ none) :
    object? (o ++ z) = object? o := by
  have hname : name? (o ++ z) = name? o := by
    refine name?_append ho hz.1 hz.2 fun r hr => name?_bracket_append ?_
    subst hr
    have hopen := opening_of_cut hcut
    rw [opening_angle, opening_angle] at hopen
    exact Option.map_injective (fun _ _ h => (Prod.mk.inj h).2) hopen
  -- only a list can go on behind the cut, and one that is closed in front of it does not
  cases h
  case domain | range => exact hname
  case required =>
    exact flag?_append hz.stopsBefore_isTermChar hz.startsOutsideWord fun hnil => absurd hnil ho
  case enumeration =>
    obtain ⟨c, r, rfl⟩ := List.exists_cons_of_ne_nil ho
    by_cases hc : c = '('
    · subst hc
      obtain ⟨b, hb⟩ := Option.ne_none_iff_exists'.mp (hlist rfl rfl)
      rw [hb]
      rw [listBody?, if_pos rfl] at hb
      rw [List.cons_append, listBody?, if_pos rfl, listTail?_append hb]
    · rw [List.cons_append, listBody?, if_neg hc, listBody?, if_neg hc]
  all_goals exact literalBody?_of_cut hcut ho

variable {v : Vocabulary} {x : List Char} (hs : Settled v t x)
  (hcut : segments (x ++ z) = segments x ++ l) (hnone : (readBlanks? z).bind object? = none)
include hs hcut hnone

/-- The objects of a settled term are read without what is behind the cut. -/
theorem objectAt?_append_of_settled {u w : List Char} (hx : x = u ++ w)
    (hu : inWordBehind false u = false) :
    objectAt? v t object? (w ++ z) = objectAt? v t object? w := by
  rw [objectAt?, Term.read?_append hz.stopsBefore_isTermChar, objectAt?]
  cases hr : t.read? v w with
  | none => rfl
  | some r =>
    rw [Option.map_some, Option.bind_some, Option.bind_some]
    cases r with
    | nil => exact hnone
    | cons c r =>
      rw [List.cons_append, readBlanks?, readBlanks?]
      split
      · next hc =>
        have hat : TermAt v t x u (trimStart r) := by
          refine ⟨w, hx, hu, ?_⟩
          rw [hr, Option.bind_some, readBlanks?, if_pos hc]
        -- the term is settled, so its object ends in front of the cut
        have hne := hs.object_ne_nil _ _ hat
        have htrim : trimStart (r ++ z) = trimStart r ++ z :=
          List.dropWhile_append.trans (if_neg fun h => hne (List.isEmpty_iff.mp h))
        rw [Option.bind_some, Option.bind_some, htrim]
        obtain ⟨p, rfl, hborder⟩ := hat.exists_cut (hs.outside _ _ hat)
        rw [hborder, List.append_assoc (u ++ p), List.append_assoc (segments (u ++ p))] at hcut
        exact h.append_of_cut hz (segments_of_append hcut (textOf_segments _)).2 hne
          fun ht => hs.list_closed ht _ _ hat
      · rfl

end Cut

/-! ### Searching behind a settled front -/

section Search

variable {v : Vocabulary} {t : Term} {α : Type} {object? : List Char → Option α}

/-- No term begins with another character than those of terms. -/
theorem objectAt?_eq_none {z : List Char} (hz : StopsBefore isTermChar z) :
    objectAt? v t object? z = none := by
  have hnil : t.read? v [] = none := by
    cases t <;> rfl
  rw [objectAt?, ← List.nil_append z, Term.read?_append hz, hnil]
  rfl

/-- No term begins with a quote. -/
theorem firstObject?_quote (inWord : Bool) (r : List Char) :
    firstObject? v t object? inWord ('"' :: r) = firstObject? v t object? false r := by
  rw [firstObject?_cons, objectAt?_eq_none (stopsBefore_cons.mpr (by decide))]
  cases inWord <;> rfl

/-- What is in front of the start of a text does not count, if no term begins there. -/
theorem firstObject?_of_stopsBefore {z : List Char} (hz : StopsBefore isTermChar z)
    (inWord : Bool) : firstObject? v t object? inWord z = firstObject? v t object? false z := by
  cases z with
  | nil => rfl
  | cons c z =>
    rw [firstObject?_cons, firstObject?_cons, objectAt?_eq_none hz]
    cases inWord <;> rfl

/-- **A text with a settled front is searched in the front as if it ended there, and then behind
it.** -/
theorem firstObject?_append_of_settled {x z : List Char} {l : List Segment} (h : t.ReadBy object?)
    (hs : Settled v t x) (hcut : segments (x ++ z) = segments x ++ l) (hz : StopsName z)
    (hnone : (readBlanks? z).bind object? = none) :
    firstObject? v t object? false (x ++ z)
      = (firstObject? v t object? false x).or (firstObject? v t object? false z) := by
  rw [firstObject?_append, objectIn?_eq_firstObject? v t object? fun u w hx _ hu =>
    objectAt?_append_of_settled h hz hs hcut hnone hx hu,
    firstObject?_of_stopsBefore hz.stopsBefore_isTermChar]

/-- The search of a text with a literal: in front of it as if it ended there, then in the body of
the literal, then behind it. -/
theorem firstObject?_of_literalAt {x body y : List Char} (h : t.ReadBy object?)
    (hs : Settled v t x) (hl : LiteralAt x body y) :
    firstObject? v t object? false (x ++ (literal body ++ y))
      = (firstObject? v t object? false x).or ((objectIn? v t object? false body ('"' :: y)).or
        (firstObject? v t object? false y)) := by
  rw [firstObject?_append_of_settled h hs hl (.literal body y) rfl, literal_append,
    firstObject?_quote, firstObject?_append, firstObject?_quote]

end Search

/-- **Text in a literal gives a term its object exactly if the text in front of the literal does
not, and a term with an object begins in the body.**  So another body leaves the attributes as they
are if neither body has such a term. -/
theorem extract_of_literalAt (v : Vocabulary) (x y : List Char) :
    (∀ body, LiteralAt x body y → ∀ (t : Term) {α : Type} (object? : List Char → Option α),
      t.ReadBy object? → Settled v t (maskComments x) →
        firstObject? v t object? false (maskComments (x ++ (literal body ++ y)))
          = (firstObject? v t object? false (maskComments x)).or
            ((objectIn? v t object? false body ('"' :: maskComments y)).or
              (firstObject? v t object? false (maskComments y))))
      ∧ (∀ body body', LiteralAt x body y → LiteralAt x body' y →
        (∀ (t : Term) {α : Type} (object? : List Char → Option α), t.ReadBy object? →
          Settled v t (maskComments x) ∧ (firstObject? v t object? false (maskComments x) ≠ none
            ∨ objectIn? v t object? false body ('"' :: maskComments y) = none
              ∧ objectIn? v t object? false body' ('"' :: maskComments y) = none)) →
        AttributeSet.extract v (x ++ (literal body ++ y))
          = AttributeSet.extract v (x ++ (literal body' ++ y)))
      ∧ ∀ body body', LiteralAt x body y → x.getLast?.any isAsciiBlank = true →
        '"' ∉ body' → '\\' ∉ body' → '\n' ∉ body' → (body' = [] → y.head? ≠ some '"') →
        LiteralAt x body' y := by
  have hfind : ∀ body, LiteralAt x body y → ∀ (t : Term) {α : Type}
      (object? : List Char → Option α), t.ReadBy object? → Settled v t (maskComments x) →
        firstObject? v t object? false (maskComments (x ++ (literal body ++ y)))
          = (firstObject? v t object? false (maskComments x)).or
            ((objectIn? v t object? false body ('"' :: maskComments y)).or
              (firstObject? v t object? false (maskComments y))) := by
    intro body hl t α object? h hs
    rw [maskComments_of_literalAt hl, firstObject?_of_literalAt h hs hl.mask]
  -- the attributes are what the searches find, one by one
  refine ⟨hfind, ?_, ?_⟩
  · intro body body' hl hl' h
    refine AttributeSet.ofMasked_congr fun t α object? hread => ?_
    obtain ⟨hs, hquiet⟩ := h t object? hread
    rw [hfind body hl t object? hread hs, hfind body' hl' t object? hread hs]
    rcases hquiet with hfront | ⟨hnone, hnone'⟩
    · obtain ⟨a, ha⟩ := Option.ne_none_iff_exists'.mp hfront
      rw [ha, Option.some_or, Option.some_or]
    · rw [hnone, hnone']
  · intro body body' hl hx hquote hback hline hy
    obtain ⟨c, hc, hblank⟩ := (Option.any_eq_true ..).mp hx
    exact hl.replace hc hblank (fun d hd => ⟨fun h => hquote (h ▸ hd), fun h => hback (h ▸ hd),
      fun h => hline (h ▸ hd)⟩) hy

/-- A comment of a declaration. -/
def commentedProperty : List Char := "ex:p a owl:DatatypeProperty ; rdfs:comment ".toList

/-- The body of the comment gives a class, which a body without terms does not. -/
theorem commentedProperty_domain :
    (AttributeSet.extract .standard (commentedProperty ++ (literal "plain".toList ++ " .".toList)))
        = AttributeSet.extract .standard
          (commentedProperty ++ (literal "# free".toList ++ " .".toList))
      ∧ (AttributeSet.extract .standard
        (commentedProperty ++ (literal "plain".toList ++ " .".toList))).domain = none
      ∧ LiteralAt commentedProperty "see rdfs:domain ex:Driver".toList " .".toList
      ∧ firstObject? .standard .domain name? false (maskComments
          (commentedProperty ++ (literal "see rdfs:domain ex:Driver".toList ++ " .".toList)))
        = some "ex:Driver".toList := by
  obtain ⟨hfind, hsame, hreplace⟩ :=
    extract_of_literalAt .standard commentedProperty " .".toList
  have hsettled : ∀ t, Settled .standard t (maskComments commentedProperty) := by
    have hnone : ∀ t : Term, ∀ w ∈ (maskComments commentedProperty).tails,
        (t.read? .standard w).bind readBlanks? = none := by
      intro t
      cases t <;> decide +kernel
    have hat : ∀ t u o, ¬TermAt .standard t (maskComments commentedProperty) u o := by
      rintro t u o ⟨w, hw, -, hread⟩
      simp [hnone t w ((List.mem_tails _ _).mpr ⟨u, hw.symm⟩)] at hread
    exact fun t => ⟨fun u o h => absurd h (hat t u o), fun u o h => absurd h (hat t u o),
      fun _ u o h => absurd h (hat t u o)⟩
  have hplain : LiteralAt commentedProperty "plain".toList " .".toList := by decide +kernel
  have hdomain := hreplace _ "see rdfs:domain ex:Driver".toList hplain (by decide +kernel)
    (by decide +kernel) (by decide +kernel) (by decide +kernel) (by decide +kernel)
  refine ⟨hsame _ _ hplain (by decide +kernel) fun t _ object? h => ⟨hsettled t, .inr ?_⟩,
    by decide +kernel, hdomain, ?_⟩
  · cases h <;> exact ⟨by decide +kernel, by decide +kernel⟩
  · rw [hfind _ hdomain .domain name? .domain (hsettled .domain)]
    decide +kernel

end FormOntology
