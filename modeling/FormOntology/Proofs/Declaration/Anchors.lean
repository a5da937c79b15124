import FormOntology.Proofs.Declaration.Header
import FormOntology.Proofs.Text.Offset

/-!
# Anchors

Searching a text for headers goes from header to header: the characters of one are passed over and
the search goes on behind it.  What is passed over hides no header but one that begins at a mark,
where `owl` is an accepted namespace name.

## Main definitions

* `HeaderAt` — where a header stands, whether or not the search passes over it.
* `Anchor.shift` — an anchor of a text with something in front of it.

## Main results

* `mem_anchorsFrom`, `pairwise_anchorsFrom` — what the search finds are headers, one behind the
  other.
* `anchorsFrom_append_of_line` — behind whole lines the search begins anew.
* `anchorsFrom_append` — a text has its anchors whatever follows; the further ones end behind it.
* `mem_anchors_of_headerAt` — where `owl` is not accepted every header is found.
-/

namespace FormOntology

open Text

/-! ### The search, header by header -/

@[simp] theorem anchorsFrom_nil (v : Vocabulary) (offset skip : Nat) (free : Bool) :
    anchorsFrom v offset skip free [] = [] := by
  cases skip <;> rfl

/-- The characters of a header are passed over. -/
theorem anchorsFrom_skip (v : Vocabulary) (offset : Nat) (free : Bool) {x : List Char}
    (hx : x ≠ []) (rest : List Char) :
    anchorsFrom v offset x.length free (x ++ rest)
      = anchorsFrom v (offset + size x) 0 false rest := by
  induction x generalizing offset free with
  | nil => exact absurd rfl hx
  | cons c x ih =>
    rw [List.cons_append, List.length_cons, anchorsFrom]
    by_cases hnil : x = []
    · subst hnil
      rfl
    · rw [ih _ _ hnil, size_cons, Nat.add_assoc]

/-- Where no header is read the search goes on with the next character. -/
theorem anchorsFrom_of_none {v : Vocabulary} {offset : Nat} {free : Bool} {c : Char}
    {r : List Char} (h : free = true → Header.read? v (c :: r) = none) :
    anchorsFrom v offset 0 free (c :: r)
      = anchorsFrom v (offset + c.utf8Size) 0 (isHeaderDelimiter c) r := by
  rw [anchorsFrom]
  cases free with
  | false => rfl
  | true => rw [if_pos rfl, h rfl]

/-- Where a header is read the search goes on behind it. -/
theorem anchorsFrom_header {v : Vocabulary} {f : HeaderForm} (hf : f.Valid v) (offset : Nat)
    {rest : List Char} (hrest : startsOutsideWord rest = true) :
    anchorsFrom v offset 0 true (f.text ++ rest)
      = ⟨f.header, offset, offset + size f.text⟩
        :: anchorsFrom v (offset + size f.text) 0 false rest := by
  have hread := Header.read?_eq_some_iff.mpr ⟨f, hf, rfl, rfl, hrest⟩
  obtain ⟨c, x, hx⟩ : ∃ c x, f.text = c :: x :=
    List.exists_cons_of_ne_nil f.text_ne_nil
  have hx' : x ≠ [] := by
    rintro rfl
    have hlen := f.length_mark_lt_text
    rw [hx, Header.length_mark, List.length_singleton] at hlen
    omega
  rw [hx, List.cons_append] at hread ⊢
  rw [anchorsFrom, if_pos rfl, hread]
  simp only [List.length_append, Nat.add_sub_cancel, size_cons, size_append, ← Nat.add_assoc]
  rw [anchorsFrom_skip v _ _ hx']

/-- What the search does at the first character of a text. -/
theorem anchorsFrom_cases (v : Vocabulary) (offset : Nat) (free : Bool) (c : Char)
    (r : List Char) :
    (anchorsFrom v offset 0 free (c :: r)
        = anchorsFrom v (offset + c.utf8Size) 0 (isHeaderDelimiter c) r
      ∧ (free = true → Header.read? v (c :: r) = none))
    ∨ (free = true ∧ ∃ f rest, HeaderForm.Valid v f ∧ startsOutsideWord rest = true
      ∧ c :: r = f.text ++ rest
      ∧ anchorsFrom v offset 0 free (c :: r) = ⟨f.header, offset, offset + size f.text⟩
        :: anchorsFrom v (offset + size f.text) 0 false rest) := by
  by_cases h : free = true → Header.read? v (c :: r) = none
  · exact .inl ⟨anchorsFrom_of_none h, h⟩
  · rw [Classical.not_imp] at h
    obtain ⟨rfl, hread⟩ := h
    obtain ⟨⟨hd, rest⟩, hread⟩ := Option.ne_none_iff_exists'.mp hread
    obtain ⟨f, hf, -, htext, hrest⟩ := Header.read?_eq_some_iff.mp hread
    exact .inr ⟨rfl, f, rest, hf, hrest, htext, htext ▸ anchorsFrom_header hf offset hrest⟩

/-! ### What is found -/

/-- Where a header stands in a text: behind `x`, which is empty or ends in a delimiter, and in
front of `rest`, which does not go on with a word. -/
structure HeaderAt (v : Vocabulary) (text x : List Char) (f : HeaderForm) (rest : List Char) :
    Prop where
  /-- The header is a part of the text. -/
  text_eq : text = x ++ (f.text ++ rest)
  /-- The header is one. -/
  valid : f.Valid v
  /-- It begins where one counts. -/
  free : ∀ c, x.getLast? = some c → isHeaderDelimiter c = true
  /-- It ends as a word. -/
  ends : startsOutsideWord rest = true

/-- What follows a header is shorter. -/
theorem HeaderForm.length_lt (f : HeaderForm) {text rest : List Char}
    (h : text = f.text ++ rest) : rest.length < text.length := by
  have := List.length_pos_iff.mpr f.text_ne_nil
  rw [h, List.length_append]
  omega

theorem HeaderForm.getLast?_text (f : HeaderForm) : f.text.getLast? = some 'y' := by
  simp only [text, List.getLast?_append, List.getLast?_cons]
  rfl

/-- A header in a text behind `u`, which ends in a delimiter, is one in the whole text. -/
theorem HeaderAt.append_left {v : Vocabulary} {text x rest u : List Char} {f : HeaderForm}
    (h : HeaderAt v text x f rest) (hx : x = [] → ∀ c, u.getLast? = some c →
      isHeaderDelimiter c = true) : HeaderAt v (u ++ text) (u ++ x) f rest := by
  refine ⟨by rw [h.text_eq, List.append_assoc], h.valid, ?_, h.ends⟩
  intro c hc
  by_cases hnil : x = []
  · rw [hnil, List.append_nil] at hc
    exact hx hnil c hc
  · rw [List.getLast?_append, List.getLast?_eq_some_getLast hnil, Option.some_or] at hc
    exact h.free c (by rw [List.getLast?_eq_some_getLast hnil, hc])

/-- What the search finds are headers. -/
theorem mem_anchorsFrom {v : Vocabulary} {offset : Nat} {free : Bool} {text : List Char}
    {a : Anchor} (ha : a ∈ anchorsFrom v offset 0 free text) :
    ∃ x f rest, HeaderAt v text x f rest ∧ (x = [] → free = true)
      ∧ a = ⟨f.header, offset + size x, offset + size x + size f.text⟩ := by
  induction hlen : text.length using Nat.strongRecOn generalizing offset free text with
  | ind len ih =>
    cases text with
    | nil => simp at ha
    | cons c r =>
      rcases anchorsFrom_cases v offset free c r with
        ⟨heq, -⟩ | ⟨hfree, f, rest, hf, hrest, htext, heq⟩
      · rw [heq] at ha
        obtain ⟨x, f, rest, hat, hx, rfl⟩ := ih r.length (by simp [← hlen]) ha rfl
        refine ⟨c :: x, f, rest, hat.append_left (u := [c]) ?_, by simp, ?_⟩
        · intro hnil d hd
          obtain rfl : c = d := by simpa using hd
          exact hx hnil
        · simp [Nat.add_assoc]
      · rw [heq] at ha
        rcases List.mem_cons.mp ha with rfl | ha
        · exact ⟨[], f, rest, ⟨by rw [htext]; rfl, hf, by simp, hrest⟩, fun _ => hfree, by simp⟩
        · obtain ⟨x, f', rest', hat, hx, rfl⟩ := ih _ (hlen ▸ f.length_lt htext) ha rfl
          refine ⟨f.text ++ x, f', rest', htext ▸ hat.append_left (u := f.text) ?_, ?_, ?_⟩
          · intro hnil
            exact absurd (hx hnil) (by simp)
          · intro hnil
            exact absurd (List.append_eq_nil_iff.mp hnil).1 f.text_ne_nil
          · simp [Nat.add_assoc]

/-- An anchor is where a header stands. -/
theorem headerAt_of_mem_anchors {v : Vocabulary} {text : List Char} {a : Anchor}
    (h : a ∈ anchors v text) : ∃ x f rest, HeaderAt v text x f rest
      ∧ a = ⟨f.header, size x, size x + size f.text⟩ := by
  obtain ⟨x, f, rest, hat, -, rfl⟩ := mem_anchorsFrom h
  exact ⟨x, f, rest, hat, by simp⟩

/-- What the search finds comes one behind the other. -/
theorem pairwise_anchorsFrom (v : Vocabulary) (offset : Nat) (free : Bool) (text : List Char) :
    (anchorsFrom v offset 0 free text).Pairwise fun a b => a.span.stop ≤ b.span.start := by
  induction hlen : text.length using Nat.strongRecOn generalizing offset free text with
  | ind len ih =>
    cases text with
    | nil => simp
    | cons c r =>
      rcases anchorsFrom_cases v offset free c r with
        ⟨heq, -⟩ | ⟨-, f, rest, -, -, htext, heq⟩
      · rw [heq]
        exact ih r.length (by simp [← hlen]) _ _ r rfl
      · rw [heq, List.pairwise_cons]
        refine ⟨?_, ih _ (hlen ▸ f.length_lt htext) _ _ rest rfl⟩
        intro b hb
        obtain ⟨x, f', rest', -, -, rfl⟩ := mem_anchorsFrom hb
        exact Nat.le_add_right ..

/-! ### Texts put together -/

/-- A span behind something of size `k`. -/
def Span.shift (k : Nat) (s : Span) : Span := ⟨k + s.start, k + s.stop⟩

/-- An anchor of a text with something of size `k` in front of it. -/
def Anchor.shift (k : Nat) (a : Anchor) : Anchor := ⟨a.header, a.span.shift k⟩

/-- The search does not depend on where the text stands. -/
theorem anchorsFrom_add (v : Vocabulary) (k offset : Nat) (free : Bool) (text : List Char) :
    anchorsFrom v (k + offset) 0 free text
      = (anchorsFrom v offset 0 free text).map (Anchor.shift k) := by
  induction hlen : text.length using Nat.strongRecOn generalizing offset free text with
  | ind len ih =>
    cases text with
    | nil => simp
    | cons c r =>
      rcases anchorsFrom_cases v offset free c r with
        ⟨heq, hnone⟩ | ⟨rfl, f, rest, hf, hrest, htext, heq⟩
      · rw [heq, anchorsFrom_of_none hnone, Nat.add_assoc,
          ih r.length (by simp [← hlen]) _ _ r rfl]
      · rw [heq, htext, anchorsFrom_header hf _ hrest, Nat.add_assoc,
          ih _ (hlen ▸ f.length_lt htext) _ _ rest rfl]
        simp [Anchor.shift, Span.shift]

/-- Where `owl` is not accepted, passing over a header hides nothing. -/
theorem anchorsFrom_of_inside {v : Vocabulary} (howl : v.accepts "owl" = false) {f : HeaderForm}
    (hf : f.Valid v) {rest u y : List Char} (htext : f.text ++ rest = u ++ y) {d : Char}
    (hu : u.getLast? = some d) (hlen : u.length ≤ f.text.length) (offset : Nat) :
    anchorsFrom v (offset + size u) 0 (isHeaderDelimiter d) y
      = anchorsFrom v (offset + size f.text) 0 false rest := by
  induction hn : f.text.length - u.length generalizing u y d with
  | zero =>
    obtain ⟨rfl, rfl⟩ := List.append_inj htext (by omega)
    obtain rfl : 'y' = d := by simpa [f.getLast?_text] using hu
    rfl
  | succ n ih =>
    cases y with
    | nil =>
      have := congrArg List.length htext
      simp only [List.length_append, List.length_nil] at this
      omega
    | cons c y =>
      have hne : u ≠ [] := by
        rintro rfl
        simp at hu
      -- a header here would begin at the mark, with `owl`
      have hnone : isHeaderDelimiter d = true → Header.read? v (c :: y) = none := by
        intro hd
        apply Option.eq_none_iff_forall_ne_some.mpr
        intro p hread
        obtain ⟨-, hacc, -⟩ := f.mark_of_inside hf htext hne
          (fun e he => by rwa [Option.some.inj (hu.symm.trans he)] at hd) (by omega) hread
        simp [howl] at hacc
      have := ih (u := u ++ [c]) (y := y) (d := c) (by simpa using htext) (by simp) (by simp; omega)
        (by simp; omega)
      rw [anchorsFrom_of_none hnone, ← this, size_append, size_cons, size_nil, Nat.add_zero,
        Nat.add_assoc]

/-- The search of a text whose first part consists of whole lines begins anew behind them, if it
does not pass over that place. -/
theorem anchorsFrom_append_of_line {v : Vocabulary} (offset : Nat) (free : Bool)
    {x y : List Char} (hx : ∀ c, x.getLast? = some c → c = '\n') (hnil : x = [] → free = true)
    (h : v.accepts "owl" = false ∨ ∀ a ∈ anchorsFrom v offset 0 free (x ++ y),
      a.span.start < offset + size x → a.span.stop ≤ offset + size x) :
    ∃ as, anchorsFrom v offset 0 free (x ++ y) = as ++ anchorsFrom v (offset + size x) 0 true y
      ∧ ∀ a ∈ as, a.span.start < offset + size x := by
  induction hlen : x.length using Nat.strongRecOn generalizing offset free x with
  | ind len ih =>
    cases x with
    | nil => exact ⟨[], by simp [hnil rfl], by simp⟩
    | cons c r =>
      have hr : ∀ d, r.getLast? = some d → d = '\n' := fun d hd =>
        hx d (by rw [List.getLast?_cons, hd]; rfl)
      rcases anchorsFrom_cases v offset free c (r ++ y) with
        ⟨heq, -⟩ | ⟨rfl, f, rest, hf, hrest, htext, heq⟩
      · -- no header begins with `c`
        rw [← List.cons_append] at heq
        obtain ⟨as, has, hlt⟩ := ih r.length (by simp [← hlen]) _
          (isHeaderDelimiter c) hr (fun hn => by rw [hx c (by simp [hn])]; rfl) (by
            apply h.imp_right
            intro h a ha hstart
            have := h a (heq ▸ ha) (by simp; omega)
            simp at this
            omega) rfl
        refine ⟨as, by rw [heq, has, size_cons, Nat.add_assoc], ?_⟩
        intro a ha
        have := hlt a ha
        rw [size_cons]
        omega
      · rw [← List.cons_append] at htext heq
        obtain ⟨d, hd⟩ : ∃ d, (c :: r).getLast? = some d := ⟨_, List.getLast?_cons⟩
        obtain rfl := hx d hd
        rcases List.append_eq_append_iff.mp htext with ⟨z, hfz, hy⟩ | ⟨z, hcr, hrest'⟩
        · -- the header goes on behind the line, so `owl` is not accepted
          have hz : z ≠ [] := by
            rintro rfl
            rw [List.append_nil] at hfz
            simp [← hfz, f.getLast?_text] at hd
          have hpos : 0 < size z := size_pos hz
          have hpos' : 0 < size (c :: r) := size_pos (List.cons_ne_nil c r)
          have howl : v.accepts "owl" = false := by
            apply h.resolve_right
            intro hcross
            have := hcross _ (heq ▸ List.mem_cons_self ..) (Nat.lt_add_of_pos_right hpos')
            simp only [hfz, size_append] at this
            omega
          have hin := anchorsFrom_of_inside howl hf htext.symm hd (by simp [hfz]) offset
          refine ⟨[⟨f.header, offset, offset + size f.text⟩], ?_, ?_⟩
          · rw [heq, ← hin]
            rfl
          · simp only [List.mem_singleton, forall_eq]
            omega
        · -- the header ends in front of the end of the line
          have hz : z ≠ [] := by
            rintro rfl
            rw [List.append_nil] at hcr
            simp [hcr, f.getLast?_text] at hd
          have hsize : size (c :: r) = size f.text + size z := by rw [hcr, size_append]
          obtain ⟨as, has, hlt⟩ := ih _ (hlen ▸ f.length_lt hcr) (offset + size f.text) false
            (fun e he => hx e (by rw [hcr, List.getLast?_append, he, Option.some_or]))
            (fun hn => absurd hn hz) (by
              apply h.imp_right
              intro h a ha hstart
              have := h a (heq ▸ List.mem_cons_of_mem _ (hrest' ▸ ha)) (by omega)
              omega) rfl
          refine ⟨⟨f.header, offset, offset + size f.text⟩ :: as, ?_, ?_⟩
          · rw [heq, hrest', has, hsize, Nat.add_assoc]
            rfl
          · intro a ha
            rcases List.mem_cons.mp ha with rfl | ha
            · have := size_pos (List.cons_ne_nil c r)
              simp only
              omega
            · have := hlt a ha
              omega

/-- A header is read the same in a longer text, if the mark at its end does not go on there. -/
theorem Header.read?_append_of_last {v : Vocabulary} {x rest y : List Char} {h : Header}
    (hread : Header.read? v x = some (h, rest))
    (hxy : x.getLast? = some 'y' → startsOutsideWord y = true) :
    Header.read? v (x ++ y) = some (h, rest ++ y) := by
  refine read?_append hread ?_
  by_cases hnil : rest = []
  · obtain ⟨f, -, -, hx, -⟩ := read?_eq_some_iff.mp hread
    exact .inr (hxy (by rw [hx, hnil, List.append_nil, f.getLast?_text]))
  · exact .inl hnil

/-- Nothing is found in a part of a header. -/
theorem anchorsFrom_eq_nil_of_inside {v : Vocabulary} {f : HeaderForm} (hf : f.Valid v)
    {rest u x y : List Char} (htext : f.text ++ rest = u ++ (x ++ y))
    (hlen : rest.length < y.length) {d : Char} (hu : u.getLast? = some d)
    (hxy : x.getLast? = some 'y' → startsOutsideWord y = true) (offset : Nat) :
    anchorsFrom v offset 0 (isHeaderDelimiter d) x = [] := by
  induction x generalizing u d offset with
  | nil => simp
  | cons c x ih =>
    have hne : u ≠ [] := by
      rintro rfl
      simp at hu
    have hnone : isHeaderDelimiter d = true → Header.read? v (c :: x) = none := by
      intro hd
      apply Option.eq_none_iff_forall_ne_some.mpr
      rintro ⟨h, rest'⟩ hread
      have hlen' := congrArg List.length htext
      simp only [List.length_append] at hlen'
      obtain ⟨-, -, hshort⟩ := f.mark_of_inside hf htext hne
        (fun e he => by rwa [Option.some.inj (hu.symm.trans he)] at hd)
        (by omega) (Header.read?_append_of_last hread hxy)
      rw [List.length_append] at hshort
      omega
    rw [anchorsFrom_of_none hnone]
    refine ih (u := u ++ [c]) (by simpa using htext) (by simp) (fun hx => hxy ?_) _
    rw [List.getLast?_cons, hx]
    rfl

/-- Nothing is found in a text that begins with a part of a header, and the header is longer. -/
theorem anchorsFrom_eq_nil_of_long {v : Vocabulary} {f : HeaderForm} (hf : f.Valid v)
    {rest x y : List Char} {c : Char} (htext : c :: x ++ y = f.text ++ rest)
    (hend : startsOutsideWord rest = true) (hlt : rest.length < y.length)
    (hlast : ∀ z w, c :: x = z ++ w → w.getLast? = some 'y' → startsOutsideWord y = true)
    (offset : Nat) :
    anchorsFrom v offset 0 true (c :: x) = [] ∧ size (c :: x) < size f.text := by
  constructor
  · -- a header of the text alone would be this one, which ends in front of `y` then
    have hnone : Header.read? v (c :: x) = none := by
      apply Option.eq_none_iff_forall_ne_some.mpr
      rintro ⟨h, rest'⟩ hread
      have hlonger := Header.read?_append_of_last hread (hlast [] (c :: x) rfl)
      rw [Header.read?_eq_some_iff.mpr ⟨f, hf, rfl, htext, hend⟩, Option.some.injEq,
        Prod.mk.injEq] at hlonger
      rw [hlonger.2, List.length_append] at hlt
      omega
    rw [anchorsFrom_of_none fun _ => hnone]
    exact anchorsFrom_eq_nil_of_inside hf (u := [c]) htext.symm hlt rfl (hlast [c] x rfl) _
  · rcases List.append_eq_append_iff.mp htext with ⟨z, hfz, hy⟩ | ⟨z, -, hrest⟩
    · have hz : z ≠ [] := by
        rintro rfl
        simp [hy] at hlt
      have := size_pos hz
      rw [hfz, size_append]
      omega
    · rw [hrest, List.length_append] at hlt
      omega

/-- **A text has its anchors whatever follows it**, if no word of it goes on; the further ones end
behind it. -/
theorem anchorsFrom_append {v : Vocabulary} (offset : Nat) (free : Bool) {x y : List Char}
    (hxy : x.getLast? = some 'y' → startsOutsideWord y = true) :
    ∃ as, anchorsFrom v offset 0 free (x ++ y) = anchorsFrom v offset 0 free x ++ as
      ∧ ∀ a ∈ as, offset + size x < a.span.stop := by
  induction hlen : x.length using Nat.strongRecOn generalizing offset free x with
  | ind len ih =>
    cases x with
    | nil =>
      refine ⟨anchorsFrom v offset 0 free y, by simp, ?_⟩
      intro a ha
      obtain ⟨x, f, rest, -, -, rfl⟩ := mem_anchorsFrom ha
      have := size_pos f.text_ne_nil
      simp only [size_nil]
      omega
    | cons c x =>
      have hlast : ∀ z w, c :: x = z ++ w → w.getLast? = some 'y' →
          startsOutsideWord y = true := fun z w h hw =>
        hxy (by rw [h, List.getLast?_append, hw, Option.some_or])
      rcases anchorsFrom_cases v offset free c (x ++ y) with
        ⟨heq, hnone⟩ | ⟨rfl, f, rest, hf, hrest, htext, heq⟩
      · have hnone' : free = true → Header.read? v (c :: x) = none := by
          intro hfree
          apply Option.eq_none_iff_forall_ne_some.mpr
          rintro ⟨h, rest⟩ hread
          have := Header.read?_append_of_last hread hxy
          rw [List.cons_append, hnone hfree] at this
          simp at this
        obtain ⟨as, has, hlt⟩ := ih x.length (by simp [← hlen]) (offset + c.utf8Size)
          (isHeaderDelimiter c) (hlast [c] x rfl) rfl
        refine ⟨as, by rw [List.cons_append, heq, has, anchorsFrom_of_none hnone'], ?_⟩
        intro a ha
        have := hlt a ha
        rw [size_cons]
        omega
      · rw [← List.cons_append] at htext heq
        have hread : Header.read? v (c :: x ++ y) = some (f.header, rest) :=
          Header.read?_eq_some_iff.mpr ⟨f, hf, rfl, htext, hrest⟩
        rcases Nat.lt_or_ge rest.length y.length with hlt | hge
        · -- the header ends behind `x`, so nothing is found in `x`
          obtain ⟨hempty, hsize⟩ := anchorsFrom_eq_nil_of_long hf htext hrest hlt hlast offset
          refine ⟨_, by rw [hempty, List.nil_append], ?_⟩
          intro a ha
          rw [heq] at ha
          rcases List.mem_cons.mp ha with rfl | ha
          · simp only
            omega
          · obtain ⟨x', f', rest', -, -, rfl⟩ := mem_anchorsFrom ha
            simp only
            omega
        · -- the header ends in `x`, and the search goes on behind it
          obtain ⟨z, rfl, -⟩ := Header.read?_of_append hread hge
          have hcz : c :: x = f.text ++ z := by
            rw [← List.append_assoc] at htext
            exact List.append_cancel_right htext
          have hz : startsOutsideWord z = true := by
            cases z with
            | nil => rfl
            | cons d z => exact hrest
          obtain ⟨as, has, hlt⟩ := ih _ (hlen ▸ f.length_lt hcz) (offset + size f.text) false
            (hlast f.text z hcz) rfl
          refine ⟨as, ?_, ?_⟩
          · rw [heq, has, hcz, anchorsFrom_header hf offset hz]
            rfl
          · intro a ha
            have := hlt a ha
            rw [hcz, size_append]
            omega

/-! ### What is found, if no header begins at a mark -/

/-- Where `owl` is not accepted, the search finds every header. -/
theorem mem_anchorsFrom_of_headerAt {v : Vocabulary} (howl : v.accepts "owl" = false)
    (offset : Nat) (free : Bool) {text x rest : List Char} {f : HeaderForm}
    (h : HeaderAt v text x f rest) (hfree : x = [] → free = true) :
    ⟨f.header, offset + size x, offset + size x + size f.text⟩
      ∈ anchorsFrom v offset 0 free text := by
  obtain ⟨rfl, hf, hdelim, hrest⟩ := h
  induction hlen : x.length using Nat.strongRecOn generalizing offset free x with
  | ind len ih =>
    cases x with
    | nil =>
      rw [hfree rfl, List.nil_append, anchorsFrom_header hf offset hrest]
      exact List.mem_cons_self ..
    | cons c x =>
      have hlast : ∀ z w d, c :: x = z ++ w → w.getLast? = some d →
          isHeaderDelimiter d = true := fun z w d hz hd =>
        hdelim d (by rw [hz, List.getLast?_append, hd, Option.some_or])
      rcases anchorsFrom_cases v offset free c (x ++ (f.text ++ rest)) with
        ⟨heq, -⟩ | ⟨rfl, g, grest, hg, hgrest, htext, heq⟩
      · have := ih x.length (by simp [← hlen]) (offset + c.utf8Size)
          (isHeaderDelimiter c) (fun hnil => hlast [] [c] c (by rw [hnil]; rfl) rfl)
          (fun d hd => hlast [c] x d rfl hd) rfl
        rw [List.cons_append, heq, size_cons, ← Nat.add_assoc]
        exact this
      · rw [← List.cons_append] at htext
        rw [List.cons_append, heq]
        apply List.mem_cons_of_mem _
        rcases List.append_eq_append_iff.mp htext with ⟨z, hgz, hz⟩ | ⟨z, hcx, hz⟩
        · -- the header begins in one that was found, or right behind it
          obtain ⟨d, hd⟩ : ∃ d, (c :: x).getLast? = some d := ⟨_, List.getLast?_cons⟩
          have hin := anchorsFrom_of_inside howl hg htext.symm hd (by simp [hgz]) offset
          rw [hlast [] (c :: x) d rfl hd, anchorsFrom_header hf _ hrest] at hin
          rw [← hin]
          exact List.mem_cons_self ..
        · -- it begins further behind, since a mark is no delimiter
          have hne : z ≠ [] := by
            rintro rfl
            have := hlast [] (c :: x) 'y' rfl (by rw [hcx, List.append_nil, g.getLast?_text])
            simp [isHeaderDelimiter, isBlank] at this
          have := ih z.length (hlen ▸ g.length_lt hcx) (offset + size g.text) false
            (fun hnil => absurd hnil hne) (fun d hd => hlast g.text z d hcx hd) rfl
          rw [hz, hcx, size_append, ← Nat.add_assoc]
          exact this

/-- Where `owl` is not accepted, every header is an anchor. -/
theorem mem_anchors_of_headerAt {v : Vocabulary} (howl : v.accepts "owl" = false)
    {text x rest : List Char} {f : HeaderForm} (h : HeaderAt v text x f rest) :
    ⟨f.header, size x, size x + size f.text⟩ ∈ anchors v text := by
  have := mem_anchorsFrom_of_headerAt howl 0 true h fun _ => rfl
  rwa [Nat.zero_add] at this

end FormOntology
