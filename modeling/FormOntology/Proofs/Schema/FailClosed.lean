import FormOntology.Proofs.Declaration.Literals
import FormOntology.Proofs.Schema.Diagnostics
import FormOntology.Pattern.Reader

/-!
# Whether classification fails closed

The object of `rdfs:domain` is written as a token, which ends at a blank, at a punctuation mark that
separates clauses, or at a full stop that stands alone.  The name that is read of it may end
earlier, at the first character that cannot stand in a name.  So a token that merely begins with
the name of a class is taken for that class.

## Main definitions

* `token` — the token at the start of a text.
* `OnlyObject` — the object of a term that stands once in a text.
* `Compiler.Names` — whether a token names a class of the table.
* `Compiler.domainName?` — the name that is read as the class of a block.
* `DroppedForClass`, `FailsClosed` — a block that is dropped for its class, and one that is placed
  only if its token names a class.

## Main results

* `name?_eq_name?_token` — a name that is no IRI is read of the token alone, from its start.
* `firstObject?_of_onlyObject` — the search finds the object of a term that stands once.
* `droppedForClass_iff` — when a block with a label is dropped for its class.
* `failsClosed_iff` — **classification fails closed for the name that is read, and for the token
  exactly if the token names a class or the name gives none.**
-/

namespace FormOntology

open Text Turtle

/-! ### Tokens -/

/-- Whether a token ends in front of a text: at a blank, a semicolon, a comma, a full stop with an
ASCII blank or nothing behind it, or the end. -/
def endsToken : List Char → Bool
  | [] => true
  | c :: r => isBlank c || c == ';' || c == ',' || (c == '.' && r.head?.all isAsciiBlank)

/-- The token at the start of a text. -/
def token : List Char → List Char
  | [] => []
  | c :: r => if endsToken (c :: r) then [] else c :: token r

/-- A text goes on where its token ends. -/
theorem exists_token_append (text : List Char) :
    ∃ y, text = token text ++ y ∧ endsToken y = true := by
  induction text with
  | nil => exact ⟨[], rfl, rfl⟩
  | cons c r ih =>
    rw [token]
    split
    · next h => exact ⟨c :: r, rfl, h⟩
    · obtain ⟨y, hy, hend⟩ := ih
      exact ⟨y, by rw [List.cons_append, ← hy], hend⟩

/-- No name begins or goes on with a character at which a token may end. -/
theorem of_endsToken_cons {c : Char} {r : List Char} (h : endsToken (c :: r) = true) :
    isLocalChar c = false ∧ isNameStart c = false ∧ c ≠ ':' := by
  simp only [endsToken, Bool.or_eq_true, Bool.and_eq_true, beq_iff_eq] at h
  rcases h with ((hb | rfl) | rfl) | ⟨rfl, -⟩
  · refine ⟨isLocalChar_eq_false_of_isBlank hb, isNameStart_eq_false_of_isBlank hb, ?_⟩
    rintro rfl
    exact absurd hb (by decide)
  all_goals decide

theorem prefix_of_nameFrom? {word text n : List Char} (h : nameFrom? word text = some n) :
    n <+: word ++ text := by
  unfold nameFrom? at h
  split at h
  · next rest =>
    obtain rfl := Option.some.inj h
    refine ⟨rest.dropWhile isLocalChar, ?_⟩
    rw [List.append_assoc, List.cons_append, List.takeWhile_append_dropWhile]
  · obtain rfl := Option.some.inj h
    exact List.prefix_append _ _

/-- A name is read from the start of a text. -/
theorem prefix_of_name? {text n : List Char} (h : name? text = some n) : n <+: text := by
  cases text with
  | nil => cases h
  | cons c r =>
    by_cases hc : c = '<'
    · subst hc
      rw [name?_bracket] at h
      split at h
      · next hclose =>
        obtain ⟨q, hq⟩ := List.head?_eq_some_iff.mp hclose
        have hsplit := List.takeWhile_append_dropWhile (p := isBracketChar) (l := r)
        obtain rfl := Option.some.inj h
        refine ⟨q, ?_⟩
        rw [List.append_assoc, List.singleton_append, ← hq, List.cons_append, hsplit]
      · cases h
    · rw [name?_word hc] at h
      split at h
      · have hprefix := prefix_of_nameFrom? h
        rwa [List.cons_append, List.takeWhile_append_dropWhile] at hprefix
      · cases h

/-- **A name that is no IRI is read of the token alone.** -/
theorem name?_eq_name?_token {o : List Char} (ho : o.head? ≠ some '<') :
    name? o = name? (token o) := by
  obtain ⟨y, hy, hend⟩ := exists_token_append o
  by_cases hnil : token o = []
  · rw [hnil, List.nil_append] at hy
    rw [hnil]
    cases o with
    | nil => rfl
    | cons c r =>
      have hlt : c ≠ '<' := by simpa using ho
      rw [name?_word hlt, (of_endsToken_cons (hy ▸ hend)).2.1]
      rfl
  · have hstops : StopsBefore isLocalChar y ∧ y.head? ≠ some ':' := by
      cases y with
      | nil => exact ⟨stopsBefore_nil _, by simp⟩
      | cons d y =>
        obtain ⟨hlocal, -, hcolon⟩ := of_endsToken_cons hend
        exact ⟨stopsBefore_cons.mpr hlocal, by simpa using hcolon⟩
    have hbracket : ∀ r, token o = '<' :: r → name? ('<' :: (r ++ y)) = name? ('<' :: r) := by
      intro r hr
      rw [hr] at hy
      exact absurd (by rw [hy]; rfl) ho
    calc name? o = name? (token o ++ y) := by rw [← hy]
      _ = name? (token o) := name?_append hnil hstops.1 hstops.2 hbracket

/-! ### A term that stands once -/

/-- Whether a term stands in a text with this object, and nowhere else with another one. -/
def OnlyObject (v : Vocabulary) (t : Term) (x o : List Char) : Prop :=
  (∃ u, TermAt v t x u o) ∧ ∀ u' o', TermAt v t x u' o' → o' = o

section Search

variable {v : Vocabulary} {t : Term} {α : Type} {object? : List Char → Option α}

/-- Where all places of a term have the same object, that one is found. -/
theorem firstObject?_of_forall {inWord : Bool} {x : List Char} {a : Option α}
    (hall : ∀ u w o, x = u ++ w → inWordBehind inWord u = false →
      (t.read? v w).bind readBlanks? = some o → object? o = a)
    (hex : a ≠ none → ∃ u w o, x = u ++ w ∧ inWordBehind inWord u = false
      ∧ (t.read? v w).bind readBlanks? = some o) :
    firstObject? v t object? inWord x = a := by
  rw [← List.append_nil x, firstObject?_append, firstObject?_nil, Option.or_none]
  refine objectIn?_of_forall v t object? (fun u w huw _ hu => ?_) fun ha => ?_
  · rw [List.append_nil, objectAt?]
    cases hread : (t.read? v w).bind readBlanks? with
    | none => exact .inl rfl
    | some o => exact .inr (hall u w o huw hu hread)
  · obtain ⟨u, w, o, huw, hu, hread⟩ := hex ha
    refine ⟨u, w, huw, ?_, hu, ?_⟩
    · rintro rfl
      cases t <;> cases hread
    · rw [List.append_nil, objectAt?, hread]
      exact hall u w o huw hu hread

/-- **The search finds the object of a term that stands once.** -/
theorem firstObject?_of_onlyObject {x o : List Char} (h : OnlyObject v t x o) :
    firstObject? v t object? false x = object? o := by
  obtain ⟨⟨u, w, huw, hu, hread⟩, honly⟩ := h
  refine firstObject?_of_forall (fun u' w' o' huw' hu' hread' => ?_) fun _ =>
    ⟨u, w, o, huw, hu, hread⟩
  rw [honly u' o' ⟨w', huw', hu', hread'⟩]

end Search

/-! ### Classes -/

/-- The class that a name gives. -/
def Vocabulary.className (v : Vocabulary) (n : List Char) : String :=
  (v.localName? (String.ofList n)).getD (String.ofList n)

/-- A class is named as it is written, or behind an accepted namespace name and a colon. -/
theorem Vocabulary.className_cases (v : Vocabulary) (n : List Char) :
    v.className n = String.ofList n
      ∨ ∃ qualifier, v.accepts qualifier = true
        ∧ n = qualifier.toList ++ ':' :: (v.className n).toList := by
  unfold className localName?
  simp only [String.toList_ofList]
  have hsplit := List.takeWhile_append_dropWhile (p := fun c => decide (c ≠ ':')) (l := n)
  split
  · split <;> exact .inl rfl
  · next colon rest hrest =>
    split
    · next h =>
      refine .inr ⟨_, (Bool.and_eq_true_iff.mp h).1, ?_⟩
      have hcolon : colon = ':' := by
        have hstop := stopsBefore_dropWhile (fun c => decide (c ≠ ':')) n
        rw [hrest, stopsBefore_cons] at hstop
        simpa using hstop
      rw [hrest, hcolon] at hsplit
      simpa using hsplit.symm
    · exact .inl rfl

/-- Whether a token names a class of the table, with or without an accepted namespace name. -/
def Compiler.Names (c : Compiler) (w : List Char) : Prop :=
  ∃ className, (c.table.classify? className).isSome = true
    ∧ (w = className.toList
      ∨ ∃ qualifier, c.vocabulary.accepts qualifier = true
        ∧ w = qualifier.toList ++ ':' :: className.toList)

theorem Compiler.names_of_classify {c : Compiler} {n : List Char}
    (h : (c.table.classify? (c.vocabulary.className n)).isSome = true) : c.Names n := by
  refine ⟨_, h, ?_⟩
  rcases c.vocabulary.className_cases n with hn | hn
  · exact .inl (by rw [hn, String.toList_ofList])
  · exact .inr hn

/-! ### Failing closed -/

/-- The name that is read as the class of a block. -/
def Compiler.domainName? (c : Compiler) (b : Block) : Option (List Char) :=
  firstObject? c.vocabulary .domain name? false (maskComments b.text)

section Library

variable [PatternLibrary]

theorem Compiler.declarationOf_domain (c : Compiler) (source : Combined) (b : Block) :
    (c.declarationOf source b).domain = (c.domainName? b).map c.vocabulary.className :=
  Option.map_map ..

/-- A label is not blank. -/
theorem Compiler.isBlankString_of_declarationOf_label {c : Compiler} {source : Combined} {b : Block}
    {label : String} (h : (c.declarationOf source b).label = some label) :
    isBlankString label = false := by
  have := (Option.filter_eq_some_iff.mp h).2
  simpa using this

/-- Whether one diagnostic of a block tells that it is dropped since its class is missing or
unknown, and no other is there for its placement. -/
def DroppedForClass (c : Compiler) (source : Combined) (x : Block × List Block) : Prop :=
  ∃ defect, (defect = .missingDomain ∨ ∃ className, defect = .unknownClass className)
    ∧ (c.placedBehind source x.2 x.1).diagnostics
      = [⟨defect, x.1.identifier, source.locate x.1.span.start⟩]

/-- A block whose class is written as the token `w` fails closed. -/
structure FailsClosed (c : Compiler) (source : Combined) (x : Block × List Block)
    (w : List Char) : Prop where
  /-- It has a field only if the token names a class. -/
  names_of_field : ∀ s f, (c.placedBehind source x.2 x.1).field? s = some f → c.Names w
  /-- If the token names none, it is dropped for that, unless it is dropped for its label. -/
  dropped : ¬c.Names w → (c.declarationOf source x.1).label ≠ none → DroppedForClass c source x

variable {c : Compiler} {source : Combined} {x : Block × List Block}

/-- What is reported of a block that cannot be placed. -/
theorem diagnostics_of_unplaceable {defect : Defect}
    (h : Unplaceable c.table (c.declarationOf source x.1) defect) :
    (c.placedBehind source x.2 x.1).diagnostics
      = [⟨defect, x.1.identifier, source.locate x.1.span.start⟩] := by
  rw [Compiler.placedBehind, h.of_eq]
  rfl

/-- A block with a field has a label and a class of the table. -/
theorem of_field? {s : FormSection} {f : Field}
    (h : (c.placedBehind source x.2 x.1).field? s = some f) :
    (c.declarationOf source x.1).label ≠ none ∧ ∃ n, c.domainName? x.1 = some n
      ∧ (c.table.classify? (c.vocabulary.className n)).isSome = true := by
  rw [Compiler.placedBehind, field?_placed] at h
  obtain ⟨p, hkept, -, -⟩ := Declaration.fieldBehind?_eq_some_iff.mp h
  obtain ⟨hlabel, -, className, hdomain, hclass⟩ := Declaration.placement?_eq_some_iff.mp
    (Declaration.keptBehind?_eq_some_iff.mp hkept).1
  rw [Compiler.declarationOf_domain] at hdomain
  obtain ⟨n, hn, rfl⟩ := Option.map_eq_some_iff.mp hdomain
  exact ⟨by simp [hlabel], n, hn, by simp [hclass]⟩

omit [PatternLibrary] in
/-- A declaration that can be placed is not reported for its class. -/
theorem defect?_of_placement? {t : ClassTable} {d : Declaration} {p : Placement}
    (h : d.placement? t = some p) (kept : List (String × Location)) {defect : Defect}
    (hdefect : Placed.defect? ⟨d, Placement.of t kept d⟩ = some defect) :
    defect ≠ .missingDomain ∧ ∀ className, defect ≠ .unknownClass className := by
  rw [Placed.defect?, Placement.of_of_placement? h] at hdefect
  cases hlookup : kept.lookup d.identifier with
  | some first =>
    obtain rfl : Defect.duplicateProperty first = defect := by simpa [hlookup] using hdefect
    simp
  | none =>
    simp only [hlookup, Placed.controlOf] at hdefect
    cases hform : d.formType with
    | none => simp [hform] at hdefect
    | some name =>
      cases hparse : Control.parse name with
      | ok control => simp [hform, hparse] at hdefect
      | error e =>
        obtain rfl : Defect.unknownFormType name = defect := by
          simpa [hform, hparse] using hdefect
        simp

/-- A block with a label is dropped for its class exactly if the table has not the class that is
read. -/
theorem droppedForClass_iff (hlabel : (c.declarationOf source x.1).label ≠ none) :
    DroppedForClass c source x ↔ ∀ n, c.domainName? x.1 = some n →
      c.table.classify? (c.vocabulary.className n) = none := by
  obtain ⟨label, hlabel⟩ := Option.ne_none_iff_exists'.mp hlabel
  have hblank := Compiler.isBlankString_of_declarationOf_label hlabel
  have hdomain := c.declarationOf_domain source x.1
  constructor
  · rintro ⟨defect, hdefect, hd⟩ n hn
    by_contra hclass
    obtain ⟨sections, hclass⟩ := Option.ne_none_iff_exists'.mp hclass
    rw [hn] at hdomain
    have hplaced : (c.declarationOf source x.1).placement? c.table = some ⟨label, sections⟩ :=
      Declaration.placement?_eq_some_iff.mpr ⟨hlabel, hblank, _, hdomain, hclass⟩
    have hreported : (c.placedBehind source x.2 x.1).defect? = some defect := by
      unfold Placed.diagnostics at hd
      cases h : (c.placedBehind source x.2 x.1).defect? with
      | none => simp [h] at hd
      | some e =>
        simp only [h, Option.toList_some, List.map_cons, List.map_nil, List.cons.injEq,
          Diagnostic.mk.injEq] at hd
        rw [hd.1.1]
    obtain ⟨hmissing, hunknown⟩ := defect?_of_placement? hplaced _ hreported
    rcases hdefect with rfl | ⟨className, rfl⟩
    · exact hmissing rfl
    · exact hunknown className rfl
  · intro h
    cases hn : c.domainName? x.1 with
    | none =>
      rw [hn] at hdomain
      exact ⟨_, .inl rfl, diagnostics_of_unplaceable (.domain hlabel hblank hdomain)⟩
    | some n =>
      rw [hn] at hdomain
      exact ⟨_, .inr ⟨_, rfl⟩,
        diagnostics_of_unplaceable (.unknown hlabel hblank hdomain (h n hn))⟩

/-- A block fails closed exactly if its token names a class, or the name that is read gives none. -/
theorem failsClosed_iff_names {w : List Char} : FailsClosed c source x w
    ↔ ((c.declarationOf source x.1).label ≠ none → c.Names w
      ∨ ∀ n, c.domainName? x.1 = some n →
        c.table.classify? (c.vocabulary.className n) = none) := by
  constructor
  · intro hclosed hlabel
    by_cases hw : c.Names w
    · exact .inl hw
    · exact .inr ((droppedForClass_iff hlabel).mp (hclosed.dropped hw hlabel))
  · intro h
    refine ⟨fun s f hf => ?_, fun hw hlabel => ?_⟩
    · obtain ⟨hlabel, n, hn, hclass⟩ := of_field? hf
      refine (h hlabel).resolve_right fun hnone => ?_
      simp [hnone n hn] at hclass
    · exact (droppedForClass_iff hlabel).mpr ((h hlabel).resolve_left hw)

/-- A block whose class is read as the whole token fails closed. -/
theorem failsClosed_of_domainName? {w : List Char} (h : c.domainName? x.1 = some w) :
    FailsClosed c source x w := by
  refine failsClosed_iff_names.mpr fun _ => ?_
  cases hclass : c.table.classify? (c.vocabulary.className w) with
  | none =>
    refine .inr fun n hn => ?_
    obtain rfl := Option.some.inj (h.symm.trans hn)
    exact hclass
  | some sections => exact .inl (Compiler.names_of_classify (by rw [hclass]; rfl))

/-- **Classification fails closed for the name that is read, and for the token exactly if the token
names a class or the name gives none.**  If the term stands once in the block, the name is read of
the token alone and from its start, or it is an IRI.  So what is placed without being named is a
token that goes on behind the name of a class; where the name is all of the token, or there is no
name, the block fails closed. -/
theorem failsClosed_iff (c : Compiler) (source : Combined) (x : Block × List Block) :
    (∀ s f, (c.placedBehind source x.2 x.1).field? s = some f →
        ∃ n, c.domainName? x.1 = some n
          ∧ (c.table.classify? (c.vocabulary.className n)).isSome = true)
      ∧ (∀ w, FailsClosed c source x w ↔
        ((c.declarationOf source x.1).label ≠ none → c.Names w
          ∨ ∀ n, c.domainName? x.1 = some n →
            c.table.classify? (c.vocabulary.className n) = none))
      ∧ ∀ o, OnlyObject c.vocabulary .domain (maskComments x.1.text) o →
        c.domainName? x.1 = name? o
          ∧ (o.head? ≠ some '<' → name? o = name? (token o)
            ∧ ∀ n, name? o = some n → n <+: token o)
          ∧ (name? o = some (token o) ∨ name? o = none → FailsClosed c source x (token o)) := by
  refine ⟨fun s f hf => (of_field? hf).2, fun w => failsClosed_iff_names, fun o ho => ?_⟩
  have hname : c.domainName? x.1 = name? o := firstObject?_of_onlyObject ho
  refine ⟨hname, fun hlt => ?_, ?_⟩
  · have htoken := name?_eq_name?_token hlt
    exact ⟨htoken, fun n hn => prefix_of_name? (htoken ▸ hn)⟩
  · rintro (hwhole | hnone)
    · exact failsClosed_of_domainName? (hname.trans hwhole)
    · refine failsClosed_iff_names.mpr fun _ => .inr fun n hn => ?_
      simp [hname, hnone] at hn

end Library

/-- The compiler in use when nothing is configured, for any documents. -/
def standardCompiler : Compiler := ⟨default, .standard, .standard⟩

/-- A declaration of this class. -/
def declarationIn (name : String) : List Char :=
  "ex:p a owl:DatatypeProperty ; rdfs:label \"P\" ; rdfs:domain ".toList ++ name.toList
    ++ " .".toList

/-- Its block, alone in a source. -/
def blockIn (name : String) : Block × List Block :=
  (⟨"ex", "p", declarationIn name, ⟨0, size (declarationIn name)⟩, .terminated⟩, [])

/-- A class whose name begins like that of a driver, with and without a full stop in it. -/
def driverHistories : List String := ["ex:Driver.History", "ex:DriverHistory"]

/-- The class is the only object of its declaration. -/
theorem onlyObject_declarationIn {name : String} (hname : name ∈ driverHistories) :
    OnlyObject .standard .domain (maskComments (declarationIn name))
      (name.toList ++ " .".toList) := by
  have htails : ∀ name ∈ driverHistories, ∀ w ∈ (maskComments (declarationIn name)).tails,
      (Term.domain.read? .standard w).bind readBlanks? = none
        ∨ (Term.domain.read? .standard w).bind readBlanks?
          = some (name.toList ++ " .".toList) := by
    decide +kernel
  have hthere : ∀ name ∈ driverHistories, maskComments (declarationIn name)
        = "ex:p a owl:DatatypeProperty ; rdfs:label \"P\" ; ".toList
          ++ ("rdfs:domain ".toList ++ name.toList ++ " .".toList)
      ∧ (Term.domain.read? .standard
          ("rdfs:domain ".toList ++ name.toList ++ " .".toList)).bind readBlanks?
        = some (name.toList ++ " .".toList) := by
    decide +kernel
  obtain ⟨htext, hread⟩ := hthere name hname
  refine ⟨⟨_, _, htext, by decide +kernel, hread⟩, ?_⟩
  rintro u o ⟨w, huw, -, ho⟩
  have hw := htails name hname w ((List.mem_tails _ _).mpr ⟨u, huw.symm⟩)
  simpa [ho] using hw

theorem not_names_driverHistory : ¬standardCompiler.Names "ex:Driver.History".toList := by
  rintro ⟨className, hclass, hwhole | ⟨qualifier, haccepts, hw⟩⟩
  · obtain rfl := String.toList_inj.mp hwhole
    exact absurd hclass (by decide +kernel)
  · have hmem : qualifier = "autoins" ∨ qualifier = "ex" := by
      simpa [Vocabulary.accepts, standardCompiler, Vocabulary.standard,
        Vocabulary.defaultNames] using haccepts
    rcases hmem with rfl | rfl
    · exact absurd hw (by simp)
    · have hrest : "Driver.History".toList = className.toList := by simpa using hw
      obtain rfl := String.toList_inj.mp hrest
      exact absurd hclass (by decide +kernel)

/-- A declaration whose class merely begins like one of the table does not fail closed, since its
name is read up to the full stop; without the full stop it does. -/
theorem driverHistory_placed :
    blockIn "ex:Driver.History"
        ∈ standardCompiler.blocksOf ⟨declarationIn "ex:Driver.History", []⟩
      ∧ OnlyObject .standard .domain (maskComments (declarationIn "ex:Driver.History"))
        "ex:Driver.History .".toList
      ∧ token "ex:Driver.History .".toList = "ex:Driver.History".toList
      ∧ ¬FailsClosed standardCompiler ⟨declarationIn "ex:Driver.History", []⟩
        (blockIn "ex:Driver.History") "ex:Driver.History".toList
      ∧ FailsClosed standardCompiler ⟨declarationIn "ex:DriverHistory", []⟩
        (blockIn "ex:DriverHistory") "ex:DriverHistory".toList := by
  obtain ⟨-, hiff, -⟩ := failsClosed_iff standardCompiler ⟨declarationIn "ex:Driver.History", []⟩
    (blockIn "ex:Driver.History")
  obtain ⟨-, -, hobject⟩ := failsClosed_iff standardCompiler ⟨declarationIn "ex:DriverHistory", []⟩
    (blockIn "ex:DriverHistory")
  refine ⟨by decide +kernel, onlyObject_declarationIn (List.mem_cons_self ..), by decide +kernel,
    ?_, ?_⟩
  · rw [hiff]
    intro h
    rcases h (by decide +kernel) with hnamed | hnone
    · exact not_names_driverHistory hnamed
    · exact absurd (hnone "ex:Driver".toList (by decide +kernel)) (by decide +kernel)
  · have htoken : token ("ex:DriverHistory".toList ++ " .".toList) = "ex:DriverHistory".toList := by
      decide +kernel
    have honly := onlyObject_declarationIn (List.mem_cons_of_mem _ (List.mem_singleton_self _))
    rw [← htoken]
    exact (hobject _ honly).2.2 (.inl (by decide +kernel))

end FormOntology
