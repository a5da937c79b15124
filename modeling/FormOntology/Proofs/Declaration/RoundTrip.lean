import FormOntology.Proofs.Declaration.Comments
import FormOntology.Proofs.Declaration.Writing

/-!
# Reading what was written

The clauses of a written declaration may stand in any order.  Each search passes over the header
and over the clauses of other terms, whatever their texts are, and finds the object of its own
term.  No text gives a comment, a full stop or a header, so the declaration is one block.

## Main definitions

* `EndsClause` — what can stand behind a clause.

## Main results

* `passes_clauses`, `HeaderForm.passes_text` — what is passed over.
* `firstObject?_written` — the object of a term is read back, whatever the order of the clauses.
* `liveAnchors_written`, `fullStop?_written` — the only header and the only full stop.
* `blocks_extract_written` — **what was written is one block, and its attributes are read back.**
-/

namespace FormOntology

open Text Turtle

/-! ### Clauses that are passed over -/

/-- Whether a text begins with a blank and the mark behind a clause. -/
def EndsClause (y : List Char) : Prop := ∃ c z, y = ' ' :: c :: z ∧ (c = ';' ∨ c = '.')

theorem EndsClause.stopsBefore {y : List Char} (h : EndsClause y) : StopsBefore isTermChar y := by
  obtain ⟨c, z, rfl, -⟩ := h
  exact stopsBefore_cons.mpr (by decide)

/-- What stands behind a clause is another one or the full stop. -/
theorem endsClause_append (a : AttributeSet) (s : Style) (l : List Term) {y : List Char}
    (hy : EndsClause y) : EndsClause (l.flatMap (a.clause s) ++ y) := by
  induction l with
  | nil => exact hy
  | cons t l ih =>
    rw [List.flatMap_cons, List.append_assoc, AttributeSet.clause]
    cases a.object? s t with
    | none => exact ih
    | some o => exact ⟨';', _, rfl, .inl rfl⟩

theorem endsClause_fullStop : EndsClause " .".toList := ⟨'.', [], rfl, .inr rfl⟩

section Passes

variable {α : Type} {head? : List Char → Option (List Char)} {object? : List Char → Option α}
  (hr : NameReader head?) (hend : ∀ c z, c = ';' ∨ c = '.' → object? (c :: z) = none)
include hr hend

/-- A text without blanks is passed over in front of the mark behind a clause. -/
theorem passes_of_endsClause {x y : List Char} (hx : ∀ c ∈ x, isBlank c = false)
    (hy : EndsClause y) : Passes head? object? x y := by
  obtain ⟨c, z, rfl, hc⟩ := hy
  have hstop : StopsBefore isBlank (c :: z) := by
    rcases hc with rfl | rfl <;> exact stopsBefore_cons.mpr (by decide)
  show Passes head? object? x ([' '] ++ c :: z)
  apply Passes.of_word hr hx (List.cons_ne_nil ' ' []) (List.all_eq_true.mp (by decide)) hstop
  intro _ _ _ _
  exact hend c z hc

/-- An object is passed over. -/
theorem IsObject.passes {t : Term} {o y : List Char} (ho : IsObject t o) (hy : EndsClause y) :
    Passes head? object? o y := by
  rcases ho.colon with hcolon | hblank
  · exact .of_notMem hr hcolon hy.stopsBefore
  · exact passes_of_endsClause hr hend hblank hy

/-- A clause is passed over, if nothing is read behind its term. -/
theorem passes_clauses {a : AttributeSet} (ha : a.Writable) {s : Style} {l : List Term}
    (hterm : ∀ t ∈ l, ∀ o, a.object? s t = some o → ∀ u w, t.text (s.qualifier t) = u ++ w →
      head? w = some [] → ∀ y, object? (o ++ y) = none)
    {y : List Char} (hy : EndsClause y) : Passes head? object? (l.flatMap (a.clause s)) y := by
  induction l with
  | nil => exact .nil y
  | cons t l ih =>
    have hrest := endsClause_append a s l hy
    rw [List.flatMap_cons]
    refine Passes.append ?_ (ih fun t ht => hterm t (List.mem_cons_of_mem _ ht))
    rw [AttributeSet.clause]
    cases h : a.object? s t with
    | none => exact .nil _
    | some o =>
      have ho := ha.isObject h
      have hword : ∀ c ∈ t.text (s.qualifier t), isBlank c = false := by
        intro c hc
        rw [← Bool.not_eq_true]
        intro hb
        have := isTermChar_eq_false_of_isBlank hb
        simp [Term.isTermChar_of_mem_text (s.accepts_qualifier t) t c hc] at this
      -- the semicolon, the blanks, the term, the blanks and the object
      refine .append (.of_not_isTermChar hr (List.all_iff_forall_prop.mp (by decide)) _)
        (.append (.of_blank hr (s.lead_blank t) _)
          (.append ?_ (.append (.of_blank hr (s.gap_blank t) _) (ho.passes hr hend hrest))))
      rw [List.append_assoc]
      exact .of_word hr hword (s.gap_ne t) (s.gap_blank t) (ho.stopsBefore _) fun u w hu hw =>
        hterm t (List.mem_cons_self ..) o h u w hu hw _

end Passes

/-! ### The header -/

/-- A term under a namespace name has no object that begins like an assertion. -/
theorem Term.ReadBy.eq_none_of_assertion {t : Term} {α : Type} {object? : List Char → Option α}
    (h : t.ReadBy object?) (ht : t.isExtension = true) {a : List Char}
    (ha : a = ['a'] ∨ a = "rdf:type".toList) (z : List Char) : object? (a ++ z) = none := by
  rcases ha with rfl | rfl
  all_goals
    cases h
    case label | domain | range => cases ht
    all_goals rfl

section Header

variable {f : HeaderForm} (hf : f.Valid .standard)
include hf

/-- The names of a header do not end with a term that stands under no namespace name, since `rdfs`
is not accepted. -/
theorem HeaderForm.isExtension_of_suffix {t : Term} {u w : List Char}
    (h : f.header.qualifier ++ ':' :: f.header.identifier = u ++ w)
    (hread : t.read? .standard w = some []) : t.isExtension = true := by
  by_contra ht
  rw [Bool.not_eq_true] at ht
  unfold Term.read? at hread
  rw [ht, if_neg Bool.false_ne_true] at hread
  obtain rfl := (readWord?_eq_some_iff.mp hread).trans (List.append_nil _)
  have hword : ∃ n, t.word.toList = "rdfs".toList ++ ':' :: n := by
    cases t
    case label | domain | range => exact ⟨_, rfl⟩
    all_goals cases ht
  obtain ⟨n, hn⟩ := hword
  have hname : ∀ {c}, isNameChar c = true → c ≠ ':' := fun hc heq => by
    rw [heq] at hc
    exact absurd hc (by decide)
  have hq : ':' ∉ f.header.qualifier := fun hmem => hname (hf.qualifier ':' hmem) rfl
  have hi : ':' ∉ f.header.identifier := fun hmem =>
    hname (f.isNameChar_of_mem_identifier hf ':' hmem) rfl
  -- the colon of the term is that of the header
  rw [hn, ← List.append_assoc] at h
  have hsuffix := ((List.append_cons_inj_of_notMem hq hi).mp h).1
  have hnone : ∀ q ∈ Vocabulary.defaultNames, ¬"rdfs".toList <:+ q.toList := by decide
  have hlist : (String.ofList f.header.qualifier).toList = f.header.qualifier :=
    String.toList_ofList
  apply hnone _ (Term.accepts_standard hf.accepted)
  rw [hlist]
  exact ⟨u, hsuffix.symm⟩

/-- The header is passed over in the search for the object of a term. -/
theorem HeaderForm.passes_text {t : Term} {α : Type} {object? : List Char → Option α}
    (hread : t.ReadBy object?) {y : List Char} (hy : EndsClause y) :
    Passes (t.read? .standard) object? f.text y := by
  have hr := t.nameReader .standard
  apply HeaderForm.passes_text_of_parts hr hf
  case hnames =>
    intro u w hu hw
    exact hread.eq_none_of_assertion (f.isExtension_of_suffix hf hu hw) hf.assertion _
  case hassertion =>
    have hnone : ∀ a ∈ [['a'], "rdf:type".toList], ∀ t ∈ Term.all, ∀ w ∈ a.tails,
        t.read? .standard w ≠ some [] := by
      decide +kernel
    intro u w hu hw
    exact absurd hw (hnone _ (by simpa using hf.assertion) t t.mem_all w
      ((List.mem_tails _ _).mpr ⟨u, hu.symm⟩))
  case hmark =>
    exact passes_of_endsClause hr (fun c z hc => hread.eq_none_of_mark hc z)
      (fun c => Header.isBlank_eq_false_of_mem_mark) hy

end Header

/-! ### Objects -/

/-- What is read at the start of a text is found first. -/
theorem firstObject?_of_objectAt? {v : Vocabulary} {t : Term} {α : Type}
    {object? : List Char → Option α} {x : List Char} {b : α}
    (h : objectAt? v t object? x = some b) : firstObject? v t object? false x = some b := by
  cases x with
  | nil =>
    rw [objectAt?_nil] at h
    cases h
  | cons c r => rw [firstObject?_cons, if_neg Bool.false_ne_true, h, Option.some_or]

/-- In front of a term there is no character of words. -/
theorem inWordBehind_lead (s : Style) (t : Term) (inWord : Bool) :
    inWordBehind inWord (" ;".toList ++ s.lead t) = false := by
  have hne : " ;".toList ++ s.lead t ≠ [] := List.cons_ne_nil _ _
  refine inWordBehind_of_forall hne (fun c hc => ?_) inWord
  rcases List.mem_append.mp hc with h | h
  · have hmark : ∀ c ∈ " ;".toList, Unicode.isWord c = false :=
      List.all_iff_forall_prop.mp (by decide)
    exact hmark c h
  · exact Unicode.isWord_eq_false_of_isBlank (s.lead_blank t c h)

section Objects

variable {a : AttributeSet} (ha : a.Writable) (s : Style) {t : Term} {α : Type}
  {object? : List Char → Option α}
include ha

/-- The clauses of other terms are passed over. -/
theorem passes_others (hread : t.ReadBy object?) {l : List Term}
    (hl : ∀ t' ∈ l, t' = t → a.object? s t' = none) {y : List Char} (hy : EndsClause y) :
    Passes (t.read? .standard) object? (l.flatMap (a.clause s)) y := by
  refine passes_clauses (t.nameReader .standard) (fun c z hc => hread.eq_none_of_mark hc z) ha ?_ hy
  intro t' ht' o ho u w hu hw
  have := hl t' ht' (Term.eq_of_suffix (s.accepts_qualifier t') t' hu hw).symm
  rw [ho] at this
  cases this

/-- The object of a term is found in its clause. -/
theorem firstObject?_clause {o y : List Char} (ho : a.object? s t = some o) {b : α}
    (hb : ∀ z, object? (o ++ ' ' :: z) = some b) (hy : EndsClause y) (inWord : Bool) :
    firstObject? .standard t object? inWord (a.clause s t ++ y) = some b := by
  have hr := t.nameReader .standard
  have hlead : Passes (t.read? .standard) object? (" ;".toList ++ s.lead t)
      (t.text (s.qualifier t) ++ (s.gap t ++ (o ++ y))) :=
    .append (.of_not_isTermChar hr (List.all_iff_forall_prop.mp (by decide)) _)
      (.of_blank hr (s.lead_blank t) _)
  have hblanks : readBlanks? (s.gap t ++ (o ++ y)) = some (o ++ y) :=
    readBlanks?_eq_some_iff.mpr
      ⟨_, rfl, s.gap_ne t, s.gap_blank t, (ha.isObject ho).stopsBefore y⟩
  have hclause : a.clause s t ++ y = (" ;".toList ++ s.lead t)
      ++ (t.text (s.qualifier t) ++ (s.gap t ++ (o ++ y))) := by
    simp only [AttributeSet.clause, ho, List.append_assoc]
  rw [hclause, firstObject?_of_passes hlead, inWordBehind_lead]
  apply firstObject?_of_objectAt?
  rw [objectAt?, Term.read?_text_append (s.accepts_qualifier t), Option.bind_some, hblanks,
    Option.bind_some]
  obtain ⟨c, z, rfl, -⟩ := hy
  exact hb _

/-- **The object of a term is read back**, whatever the order of the clauses. -/
theorem firstObject?_written (hread : t.ReadBy object?) {f : HeaderForm}
    (hf : f.Valid .standard) {order : List Term} (horder : order.Perm Term.all) {β : Type}
    {b? : Option β} {g : β → List Char} {k : β → α} (ht : a.object? s t = b?.map g)
    (hk : ∀ b, b? = some b → ∀ z, object? (g b ++ ' ' :: z) = some (k b)) :
    firstObject? .standard t object? false (a.written s f order) = b?.map k := by
  have hbody := endsClause_append a s order endsClause_fullStop
  rw [AttributeSet.written, AttributeSet.body,
    firstObject?_of_passes (f.passes_text hf hread hbody)]
  cases b? with
  | none =>
    -- there is no clause of the term
    have hstop : Passes (t.read? .standard) object? " .".toList [] :=
      .of_not_isTermChar (t.nameReader .standard) (List.all_iff_forall_prop.mp (by decide)) []
    rw [firstObject?_of_passes (passes_others ha s hread
      (fun t' _ heq => by rw [heq, ht, Option.map_none]) endsClause_fullStop),
      ← List.append_nil " .".toList, firstObject?_of_passes hstop, firstObject?_nil]
    rfl
  | some b =>
    have hnodup : order.Nodup := horder.nodup_iff.mpr (by decide)
    obtain ⟨before, after, rfl⟩ := List.append_of_mem (horder.mem_iff.mpr t.mem_all)
    rw [List.nodup_middle, List.nodup_cons, List.mem_append, not_or] at hnodup
    have hafter := endsClause_append a s after endsClause_fullStop
    have hrest := endsClause_append a s (t :: after) endsClause_fullStop
    rw [List.flatMap_cons, List.append_assoc] at hrest
    rw [List.flatMap_append, List.flatMap_cons, List.append_assoc, List.append_assoc,
      firstObject?_of_passes (passes_others ha s hread
        (fun t' ht' heq => absurd (heq ▸ ht') hnodup.1.1) hrest),
      firstObject?_clause ha s ht (hk b rfl) hafter]
    rfl

end Objects

/-! ### The block -/

/-- No full stop is found in front of the first plain one. -/
theorem fullStop?_of_last {l : List Segment} (h : ∀ x ∈ l, x ≠ .plain '.') (offset : Nat) :
    fullStop? offset (marksOf (l ++ [.plain '.'])) = some (offset + size (textOf l) + 1) := by
  have hmem : (⟨'.', false⟩ : Mark) ∉ marksOf l := by
    intro hmem
    obtain ⟨ms, ms', hms⟩ := List.append_of_mem hmem
    obtain ⟨l₁, l₂, rfl, -⟩ := exists_plain_of_marksOf hms
    exact h (.plain '.') (by simp) rfl
  have hnone : fullStop? offset (marksOf l) = none := by
    apply Option.eq_none_iff_forall_ne_some.mpr
    intro stop hstop
    obtain ⟨ms, ms', hms, -⟩ := fullStop?_eq_some hstop
    exact hmem (hms ▸ by simp)
  have hstop : ∀ n, fullStop? n (marksOf [.plain '.']) = some (n + 1) := fun n =>
    fullStop?_of_isFullStop rfl n
  have hlast : (marksOf l).getLast? = some ⟨'.', false⟩ →
      startsBlank (marksOf [.plain '.']) = true := fun hl =>
    absurd (List.mem_of_getLast? hl) hmem
  rw [marksOf_append, fullStop?_append hlast, hnone, Option.none_or, hstop, markSize,
    map_char_marksOf]

/-- The header is outside every run. -/
theorem liveHeader_written (a : AttributeSet) (s : Style) {f : HeaderForm}
    (hf : f.Valid .standard) (order : List Term) :
    LiveHeader .standard (a.written s f order) [] f (a.body s order) where
  segments_eq := f.segments_text_append hf _
  valid := hf
  free := by simp
  ends := by
    obtain ⟨c, z, hbody, -⟩ := endsClause_append a s order endsClause_fullStop
    rw [AttributeSet.body, hbody]
    rfl

section Block

variable {a : AttributeSet} (ha : a.Writable) (s : Style) {f : HeaderForm}
  (hf : f.Valid .standard) (order : List Term)
include ha

/-- Clauses have no comment and no full stop. -/
theorem quiet_clauses (l : List Term) {y : List Char} (hy : EndsClause y) :
    Quiet (l.flatMap (a.clause s)) y := by
  induction l with
  | nil => exact ⟨[], rfl, by simp⟩
  | cons t l ih =>
    rw [List.flatMap_cons]
    refine Quiet.append ?_ ih
    obtain ⟨c, z, hrest, -⟩ := endsClause_append a s l hy
    rw [hrest, AttributeSet.clause]
    cases h : a.object? s t with
    | none => exact ⟨[], rfl, by simp⟩
    | some o =>
      have hterm : ∀ c ∈ t.text (s.qualifier t), c ∉ ['.', '#', '"', '<'] := fun c hc =>
        notMem_of_all (by decide) (Term.isTermChar_of_mem_text (s.accepts_qualifier t) t c hc)
      exact .append (.of_plain (List.all_iff_forall_prop.mp (by decide)) _)
        (.append (.of_blank (s.lead_blank t) _) (.append (.of_plain hterm _)
          (.append (.of_blank (s.gap_blank t) _) ((ha.isObject h).quiet _))))

/-- The segments of a written declaration: its only full stop is the last character. -/
theorem segments_body : ∃ l, segments (a.body s order) = l ++ [.plain '.']
    ∧ ∀ x ∈ l, x.isComment = false ∧ x ≠ .plain '.' := by
  obtain ⟨l, hl, hquiet⟩ := quiet_clauses ha s order endsClause_fullStop
  have hstop : segments " .".toList = [.plain ' ', .plain '.'] := by
    have hopen : ∀ c ∈ " .".toList, ∀ r, opening c r = none := by
      intro c hc r
      refine opening_eq_none_iff.mpr ⟨?_, ?_, ?_⟩ <;> rintro rfl <;> exact absurd hc (by decide)
    simpa using segments_append_of_opening hopen []
  refine ⟨l ++ [.plain ' '], by rw [AttributeSet.body, hl, hstop]; simp, ?_⟩
  intro x hx
  rcases List.mem_append.mp hx with hx | hx
  · exact hquiet x hx
  · obtain rfl := List.mem_singleton.mp hx
    exact ⟨rfl, by simp⟩

include hf

/-- A written declaration has no comment to blank out. -/
theorem maskComments_written : maskComments (a.written s f order) = a.written s f order := by
  apply maskComments_of_not_hasComment
  obtain ⟨l, hl, hquiet⟩ := segments_body ha s order
  rw [hasComment, (liveHeader_written a s hf order).segments_eq, hl, List.any_eq_false]
  intro x hx
  simp only [List.nil_append, List.mem_append, List.mem_map, List.mem_singleton] at hx
  rcases hx with ⟨c, -, rfl⟩ | hx | rfl
  · simp [Segment.isComment]
  · simp [hquiet x hx]
  · simp [Segment.isComment]

/-- A written declaration has no header but its own. -/
theorem liveAnchors_written :
    liveAnchors .standard (a.written s f order) = [⟨f.header, 0, size f.text⟩] := by
  have hlive := liveHeader_written a s hf order
  have hr := Header.nameReader .standard
  have hend : ∀ c z, c = ';' ∨ c = '.' → readTypeAssertion? (c :: z) = none := by
    intro c z hc
    rcases hc with rfl | rfl <;> exact readTypeAssertion?_cons (by decide) (by decide) z
  -- behind a term that could be a name there is no assertion but its object
  have hpass : Passes (Header.behindNames? .standard) readTypeAssertion? (a.body s order) [] := by
    refine .append (passes_clauses hr hend ha ?_ endsClause_fullStop)
      (.of_not_isTermChar hr (List.all_iff_forall_prop.mp (by decide)) _)
    intro t _ o ho u w hu hw y
    exact (ha.isObject ho).no_assertion
      (Term.isExtension_of_suffix (s.accepts_qualifier t) t hu hw) y
  have hanchors : anchors .standard (a.written s f order) = [⟨f.header, 0, size f.text⟩] := by
    rw [anchors, AttributeSet.written, anchorsFrom_header hf 0 hlive.ends,
      anchorsFrom_of_passes hpass, Nat.zero_add]
  have houtside := hlive.contains_inertRanges_start
  rw [textOf_nil, size_nil] at houtside
  rw [liveAnchors, hanchors, List.filter_cons_of_pos (by simp [houtside]), List.filter_nil]

/-- The only full stop of a written declaration is its last character. -/
theorem fullStop?_written : Anchor.fullStop? ⟨f.header, 0, size f.text⟩
    (mark (a.written s f order)) = some (size (a.written s f order)) := by
  obtain ⟨l, hl, hquiet⟩ := segments_body ha s order
  have hlive := (liveHeader_written a s hf order).fullStop?_mark
  have hsize : size (a.body s order) = size (textOf l) + 1 := by
    rw [← textOf_segments (a.body s order), hl, textOf_append, size_append]
    rfl
  rw [textOf_nil, size_nil, Nat.zero_add] at hlive
  rw [hlive, hl, fullStop?_of_last fun x hx => (hquiet x hx).2, AttributeSet.written, size_append,
    hsize, Nat.add_assoc]

/-- A written declaration is one block. -/
theorem blocks_written : blocks .standard (a.written s f order)
    = [{ qualifier := String.ofList f.header.qualifier
         identifier := String.ofList f.header.identifier
         text := a.written s f order
         span := ⟨0, size (a.written s f order)⟩
         termination := .terminated }] := by
  have htext : takeBytes (size (a.written s f order) - 0) (dropBytes 0 (a.written s f order))
      = a.written s f order := by
    have hdrop : dropBytes 0 (a.written s f order) = a.written s f order :=
      dropBytes_size_append [] _
    rw [hdrop, Nat.sub_zero]
    simpa using takeBytes_size_append (a.written s f order) []
  have htrim : trimEnd (a.written s f order) = a.written s f order := by
    have hlast : a.written s f order
        = (f.text ++ (order.flatMap (a.clause s) ++ [' '])) ++ ['.'] := by
      simp [AttributeSet.written, AttributeSet.body]
    rw [hlast]
    exact trimEnd_concat (by decide) _
  rw [blocks, liveAnchors_written ha s hf order, blocksAt, blockAt_eq,
    fullStop?_written ha s hf order, blockEnd_of_le (Nat.le_refl _)]
  simp only [htext, htrim]

end Block

/-! ### Attributes -/

/-- A class under an accepted namespace name is read without it. -/
theorem localName?_qualified {q n : String} (hq : Vocabulary.standard.accepts q = true)
    (hn : n ≠ "") :
    Vocabulary.standard.localName? (String.ofList (q.toList ++ ':' :: n.toList)) = some n := by
  have hname : ∀ q ∈ Vocabulary.defaultNames,
      q.toList.all (fun c => decide (c ≠ ':')) = true := by
    decide
  have hchars := List.all_eq_true.mp (hname q (Term.accepts_standard hq))
  have hstop : StopsBefore (fun c => decide (c ≠ ':')) (':' :: n.toList) :=
    stopsBefore_cons.mpr rfl
  have hne : n.toList.isEmpty = false := by
    rw [List.isEmpty_eq_false_iff]
    exact fun h => hn (String.toList_eq_nil_iff.mp h)
  simp only [Vocabulary.localName?, String.toList_ofList,
    takeWhile_append_of_stopsBefore hchars hstop, dropWhile_append_of_stopsBefore hchars hstop,
    String.ofList_toList, hq, hne]
  rfl

/-- A text that was escaped is read back. -/
theorem map_unescape_escape (x? : Option String) :
    (x?.map fun x => escape x.toList).map (fun body => String.ofList (unescape body)) = x? := by
  cases x? with
  | none => rfl
  | some x => simp [unescape_escape]

/-- A text that needs no escapes is kept as it is. -/
theorem map_escape {x? : Option String}
    (h : ∀ x, x? = some x → ∀ c ∈ x.toList, c ∉ ['\\', '"', '\n', '\r', '\t']) :
    (x?.map fun x => escape x.toList).map String.ofList = x? := by
  cases x? with
  | none => rfl
  | some x =>
    have hchar : ∀ c ∈ x.toList, escapeChar c = [c] := by
      intro c hc
      have := h x rfl c hc
      simp only [List.mem_cons, List.not_mem_nil, or_false, not_or] at this
      obtain ⟨hb, hq, hn, hr, ht⟩ := this
      rw [escapeChar, if_neg hb, if_neg hq, if_neg hn, if_neg hr, if_neg ht]
    simp [escape_eq_self hchar]

namespace AttributeSet

section Attributes

variable {a : AttributeSet} (ha : a.Writable) (s : Style) {f : HeaderForm}
  (hf : f.Valid .standard) {order : List Term} (horder : order.Perm Term.all)
include ha hf horder

/-- A text is read back as the body of its literal. -/
theorem literalOf?_written {t : Term} (hread : t.ReadBy literalBody?)
    (ht : a.object? s t = (a.text? t).map fun x => writtenText x.toList) :
    literalOf? .standard t (a.written s f order) = (a.text? t).map fun x => escape x.toList :=
  firstObject?_written ha s hread hf horder ht fun x _ z =>
    literalBody?_writtenText fun _ => by simp

/-- The class is read back. -/
theorem domain_written :
    ((firstObject? .standard .domain name? false (a.written s f order)).map String.ofList).map
      (fun n => (Vocabulary.standard.localName? n).getD n) = a.domain := by
  have hfind := firstObject?_written ha s .domain hf horder (t := .domain)
    (k := fun n => s.classQualifier.toList ++ ':' :: n.toList) rfl fun n hn z =>
      (rangeWord_qualified s.accepts_classQualifier (ha.domain n hn).2).name?_append z
  rw [hfind, Option.map_map, Option.map_map]
  cases h : a.domain with
  | none => rfl
  | some n =>
    rw [Option.map_some, Function.comp_apply, Function.comp_apply,
      localName?_qualified s.accepts_classQualifier (ha.domain n h).1, Option.getD_some]

/-- The range is read back. -/
theorem range_written :
    (firstObject? .standard .range name? false (a.written s f order)).map String.ofList
      = a.range := by
  have hfind := firstObject?_written ha s .range hf horder (t := .range)
    (k := String.toList) rfl fun w hw z => (ha.range w hw).name?_append z
  rw [hfind, Option.map_map]
  cases a.range <;> simp

/-- Whether a value must be given is read back. -/
theorem required_written :
    (firstObject? .standard .required flag? false (a.written s f order)).getD false
      = a.required := by
  have hfind := firstObject?_written ha s .required hf horder (t := .required) (k := id) rfl
    fun b _ z => flag?_writtenFlag s.quoted s.typed b z
  rw [hfind]
  cases h : a.required <;> cases s.writesFalse <;> rfl

/-- The values to choose from are read back. -/
theorem enumeration_written :
    ((firstObject? .standard .enumeration listBody? false (a.written s f order)).map
      splitEnumeration).getD [] = a.enumeration := by
  have hfind := firstObject?_written ha s .enumeration hf horder (t := .enumeration)
    (k := writtenItems s.listGap) rfl fun values _ z =>
      listBody?_writtenList s.listGap_separator values (' ' :: z)
  rw [hfind, Option.map_map]
  split
  · next hnil => exact (List.isEmpty_iff.mp hnil).symm
  · rw [Option.map_some, Option.getD_some]
    exact splitEnumeration_writtenItems s.listGap_separator fun x hx =>
      (ha.enumeration x hx).2

/-- The attributes are read back. -/
theorem extract_written : extract .standard (a.written s f order) = a := by
  have hlabel : a.label.filter (!isBlankString ·) = a.label := by
    cases h : a.label with
    | none => rfl
    | some x =>
      rw [Option.filter_some, ha.label x h]
      rfl
  have hformType : a.formType.map strip = a.formType := by
    cases h : a.formType with
    | none => rfl
    | some x => rw [Option.map_some, (ha.formType x h).1]
  rw [extract, maskComments_written ha s hf order]
  unfold ofMasked
  simp only [literalOf?_written ha s hf horder .label rfl,
    literalOf?_written ha s hf horder .helpText rfl,
    literalOf?_written ha s hf horder .conditionalDisplay rfl,
    literalOf?_written ha s hf horder .validationPattern rfl,
    literalOf?_written ha s hf horder .defaultValue rfl,
    literalOf?_written ha s hf horder .formType rfl, domain_written ha s hf horder,
    range_written ha s hf horder, required_written ha s hf horder,
    enumeration_written ha s hf horder, text?, map_unescape_escape,
    map_escape ha.conditionalDisplay, map_escape fun x hx => (ha.formType x hx).2, hlabel,
    hformType]

end Attributes

end AttributeSet

/-- **A declaration that is written is one block that its full stop ends, and its attributes are
read back**, whatever the order of its clauses and the style. -/
theorem blocks_extract_written {a : AttributeSet} (ha : a.Writable) (s : Style) {f : HeaderForm}
    (hf : f.Valid .standard) {order : List Term} (horder : order.Perm Term.all) :
    blocks .standard (a.written s f order)
        = [{ qualifier := String.ofList f.header.qualifier
             identifier := String.ofList f.header.identifier
             text := a.written s f order
             span := ⟨0, size (a.written s f order)⟩
             termination := .terminated }]
      ∧ AttributeSet.extract .standard (a.written s f order) = a :=
  ⟨blocks_written ha s hf order, AttributeSet.extract_written ha s hf horder⟩

/-- A style with single blanks. -/
def plainStyle : Style where
  qualifier _ := "ex"
  classQualifier := "autoins"
  lead _ := [' ']
  gap _ := [' ']
  listGap := [',', ' ']
  quoted := true
  typed := true
  writesFalse := false
  accepts_qualifier _ := by decide
  accepts_classQualifier := by decide
  lead_blank _ := List.all_eq_true.mp (by decide)
  gap_ne _ := by decide
  gap_blank _ := List.all_eq_true.mp (by decide)
  listGap_separator := List.all_eq_true.mp (by decide)

/-- The header of an amount that is due. -/
def amountHeader : HeaderForm := ⟨⟨"ex".toList, "amount".toList⟩, [' '], ['a'], [' ']⟩

theorem amountHeader_valid : amountHeader.Valid .standard where
  qualifier := List.all_eq_true.mp (by decide)
  accepted := by decide
  identifier := by decide
  gap_ne := by decide
  gap_blank := List.all_eq_true.mp (by decide)
  assertion := by decide
  gap'_ne := by decide
  gap'_blank := List.all_eq_true.mp (by decide)

/-- The attributes of an amount that is due, in texts that look like clauses and comments. -/
def amount : AttributeSet where
  label := some "Amount (net) . # \"due\""
  domain := some "Claim"
  range := some "xsd:decimal"
  required := true
  helpText := some "See C\\D ;\n\tex a owl . \\"
  enumeration := ["10.00 )", "\"20\" # ("]
  conditionalDisplay := some "kind = (net) . # and <b"
  validationPattern := some "^\\d+\\.\\d\\d$"
  defaultValue := some ""
  formType := some "radio # ."

theorem amount_writable : amount.Writable where
  text := by
    intro t x h
    cases t <;> cases h
    all_goals decide
  label := by decide
  domain := by
    intro n hn
    obtain rfl := Option.some.inj hn
    exact ⟨by decide, List.all_eq_true.mp (by decide)⟩
  range := by
    intro w hw
    obtain rfl := Option.some.inj hw
    exact .qualified (c := 'x') (r := "sd".toList) (n := "decimal".toList) (by decide)
      (List.all_eq_true.mp (by decide)) (List.all_eq_true.mp (by decide))
  enumeration := by decide
  conditionalDisplay := by
    intro x hx
    obtain rfl := Option.some.inj hx
    exact List.all_iff_forall_prop.mp (by decide)
  formType := by
    intro x hx
    obtain rfl := Option.some.inj hx
    exact ⟨by decide, List.all_iff_forall_prop.mp (by decide)⟩

/-- The amount is written with its clauses from the last to the first, and read back. -/
theorem amount_read_back : amount.Writable ∧ amountHeader.Valid .standard
    ∧ Term.all.reverse.Perm Term.all
    ∧ (blocks .standard (amount.written plainStyle amountHeader Term.all.reverse)).map
        (fun b => (b.identifier, b.termination)) = [("amount", .terminated)]
    ∧ AttributeSet.extract .standard (amount.written plainStyle amountHeader Term.all.reverse)
      = amount := by
  obtain ⟨hblocks, hextract⟩ := blocks_extract_written amount_writable plainStyle
    amountHeader_valid (List.reverse_perm Term.all)
  refine ⟨amount_writable, amountHeader_valid, List.reverse_perm _, ?_, hextract⟩
  rw [hblocks]
  rfl

/-- A condition with a tab, which is no quote, backslash, line break or colon. -/
def tabbed : AttributeSet := { conditionalDisplay := some "a\tb" }

/-- A tab in a condition is not read back: the escape for it is kept. -/
theorem tabbed_not_read_back :
    (∀ c ∈ "a\tb".toList, c ∉ [':', '"', '\\', '\n', '\r'])
      ∧ amountHeader.Valid .standard ∧ Term.all.Perm Term.all
      ∧ tabbed.written plainStyle amountHeader Term.all
        = "ex:amount a owl:DatatypeProperty ; ex:conditionalDisplay \"a\\tb\" .".toList
      ∧ AttributeSet.extract .standard (tabbed.written plainStyle amountHeader Term.all)
        = { conditionalDisplay := some "a\\tb" }
      ∧ AttributeSet.extract .standard (tabbed.written plainStyle amountHeader Term.all)
        ≠ tabbed := by
  refine ⟨List.all_iff_forall_prop.mp (by decide), amountHeader_valid, .refl _, ?_, ?_, ?_⟩
  all_goals decide +kernel

end FormOntology
