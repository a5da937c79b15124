import FormOntology.Proofs.Json.Reading
import FormOntology.Proofs.Pattern.Space

/-!
# Values with more text behind them

A value that stands at the start of a text is still read there when more text is put behind, and
with more fuel.  Only a number that ends with the text could go on in what is put behind it.  So
the text of an object can be put into that of another one, and is read there as before.

## Main definitions

* `JsonTree.Carries` — whether one reader reads what another does, with any text put behind.

## Main results

* `JsonTree.value?_carries` — **what a value is read as does not depend on what stands behind it.**
* `JsonTree.parse?_eq_some_iff` — the tree of a text is a value with blanks around it.
-/

namespace FormOntology

namespace JsonTree

/-- Whether one reader reads what another does, with any text put behind that no number at the end
goes on in. -/
def Carries {α : Type} (f g : Reader α) : Prop :=
  ∀ ⦃text : List Char⦄ ⦃a : α⦄ ⦃rest : List Char⦄, f text = some (a, rest) →
    ∀ more, (rest = [] → StopsBefore isNumberChar more) → g (text ++ more) = some (a, rest ++ more)

/-! ### Blanks, strings and words -/

theorem skipBlanks_append {text : List Char} (h : skipBlanks text ≠ []) (more : List Char) :
    skipBlanks (text ++ more) = skipBlanks text ++ more :=
  dropWhile_append_of_ne_nil h more

theorem skipBlanks_append_cons {text r : List Char} {c : Char} (h : skipBlanks text = c :: r)
    (more : List Char) : skipBlanks (text ++ more) = c :: (r ++ more) := by
  rw [skipBlanks_append (by rw [h]; exact List.cons_ne_nil _ _), h, List.cons_append]

theorem stringTail?_carries : Carries stringTail? stringTail? := by
  intro text a rest h more _
  fun_induction stringTail? text generalizing a with
  | case2 =>
    cases h
    exact stringTail?_quote _
  | case5 a b c d r n hunit _ _ ih =>
    obtain ⟨⟨s, rest'⟩, hs, hpair⟩ := Option.map_eq_some_iff.mp h
    cases hpair
    simp only [List.cons_append, stringTail?_code hunit, ih hs]
    rfl
  | case8 e r he d hd _ _ ih =>
    obtain ⟨⟨s, rest'⟩, hs, hpair⟩ := Option.map_eq_some_iff.mp h
    cases hpair
    rw [List.cons_append, List.cons_append, stringTail?_escape he hd, ih hs]
    rfl
  | case10 c r hq hlt hb ih =>
    obtain ⟨⟨s, rest'⟩, hs, hpair⟩ := Option.map_eq_some_iff.mp h
    cases hpair
    rw [List.cons_append, stringTail?_cons hq hlt hb, ih hs]
    rfl
  | _ => cases h

theorem word?_append_of_some {word : String} {text rest : List Char}
    (h : word? word text = some rest) (more : List Char) :
    word? word (text ++ more) = some (rest ++ more) := by
  rw [word?] at h
  split at h
  · next hprefix =>
    obtain ⟨r, rfl⟩ := List.isPrefixOf_iff_prefix.mp hprefix
    rw [← String.length_toList, List.drop_left, Option.some_inj] at h
    rw [h, List.append_assoc, word?_append]
  · cases h

/-! ### Numbers -/

theorem digits?_carries {text ds rest : List Char} (h : digits? text = some (ds, rest))
    {more : List Char} (hmore : rest = [] → StopsBefore isNumberChar more) :
    digits? (text ++ more) = some (ds, rest ++ more) := by
  rw [digits?] at h
  split at h
  · cases h
  · next hne =>
    cases h
    by_cases hrest : text.dropWhile Char.isDigit = []
    · -- the text is all digits
      have hall : ∀ c ∈ text, c.isDigit = true := List.dropWhile_eq_nil_iff.mp hrest
      have htake : text.takeWhile Char.isDigit = text := List.takeWhile_eq_self_iff.mpr hall
      rw [htake] at hne ⊢
      rw [hrest, List.nil_append]
      exact digits?_append (by simpa using hne) hall (hmore hrest)
    · rw [digits?, takeWhile_append_of_ne_nil hrest, dropWhile_append_of_ne_nil hrest, if_neg hne]

theorem fraction?_carries : Carries fraction? fraction? := by
  intro text a rest h more hmore
  rw [fraction?.eq_def] at h
  split at h
  · next r =>
    obtain ⟨⟨ds, rest'⟩, hds, hpair⟩ := Option.map_eq_some_iff.mp h
    cases hpair
    rw [List.cons_append, fraction?, digits?_carries hds hmore]
    rfl
  · next hdot =>
    cases h
    cases text with
    | nil => rw [List.nil_append]; exact fraction?_of_stopsBefore (hmore rfl)
    | cons c r =>
      rw [List.cons_append, fraction?]
      exact fun r' hr => hdot r (by rw [(List.cons.inj hr).1])

theorem exponent?_carries : Carries exponent? exponent? := by
  intro text a rest h more hmore
  cases text with
  | nil =>
    cases h
    exact exponent?_of_stopsBefore (hmore rfl)
  | cons c r =>
    rw [exponent?] at h
    rw [List.cons_append, exponent?]
    split at h
    · next he =>
      obtain ⟨⟨ds, rest'⟩, hds, hpair⟩ := Option.map_eq_some_iff.mp h
      cases hpair
      rw [if_pos he]
      -- there are digits, so there is a first character
      cases r with
      | nil => simp [digits?] at hds
      | cons d r =>
        by_cases hsign : d = '-' ∨ d = '+'
        · simp only [List.head?_cons, Option.some_inj, hsign, if_true, List.drop_one,
            List.tail_cons, List.cons_append] at hds ⊢
          rw [digits?_carries hds hmore]
          rfl
        · simp only [List.head?_cons, Option.some_inj, hsign, if_false, List.cons_append] at hds ⊢
          rw [← List.cons_append, digits?_carries hds hmore]
          rfl
    · next he =>
      cases h
      rw [if_neg he]
      rfl

theorem unsigned?_carries (negative : Bool) :
    Carries (unsigned? negative) (unsigned? negative) := by
  intro text a rest h more hmore
  obtain ⟨⟨whole, rest₁⟩, hwhole, h⟩ := Option.bind_eq_some_iff.mp h
  simp only at h
  split at h
  · cases h
  · next hleading =>
    obtain ⟨⟨fraction, rest₂⟩, hfraction, h⟩ := Option.bind_eq_some_iff.mp h
    obtain ⟨⟨exponent, rest₃⟩, hexponent, h⟩ := Option.bind_eq_some_iff.mp h
    cases h
    -- what follows the number follows its digits if there is nothing in between
    have hbehind₂ : rest₂ = [] → StopsBefore isNumberChar more := by
      rintro rfl
      cases hexponent
      exact hmore rfl
    have hbehind₁ : rest₁ = [] → StopsBefore isNumberChar more := by
      rintro rfl
      cases hfraction
      exact hbehind₂ rfl
    simp [unsigned?, digits?_carries hwhole hbehind₁, if_neg hleading,
      fraction?_carries hfraction more hbehind₂, exponent?_carries hexponent more hmore]

theorem number?_carries : Carries number? number? := by
  intro text a rest h more hmore
  cases text with
  | nil => cases h
  | cons c r =>
    by_cases hc : c = '-'
    · subst hc
      exact unsigned?_carries true h more hmore
    · rw [number?_of_ne_minus hc] at h
      rw [List.cons_append, number?_of_ne_minus hc]
      exact unsigned?_carries false h more hmore

/-! ### Values -/

section Values

variable {value value' : Reader JsonTree} {items items' : Reader (List JsonTree)}
  {members members' : Reader (List (List StringUnit × JsonTree))}

/-- What is made of what is read. -/
theorem Carries.map {α β : Type} {f g : Reader α} (h : Carries f g) (k : α → β) :
    Carries (fun text => (f text).map fun x => (k x.1, x.2))
      fun text => (g text).map fun x => (k x.1, x.2) := by
  intro text b rest hf more hmore
  obtain ⟨⟨a, rest'⟩, ha, hpair⟩ := Option.map_eq_some_iff.mp hf
  cases hpair
  simp only [h ha more hmore, Option.map_some]

theorem untilClosed_carries {α : Type} {close : Char} {f g : Reader (List α)} (h : Carries f g) :
    Carries (untilClosed close f) (untilClosed close g) := by
  intro text b rest hf more hmore
  rw [untilClosed] at hf ⊢
  split at hf
  · cases hf
  next c r hskip =>
  rw [skipBlanks_append_cons hskip]
  simp only
  by_cases hc : c = close
  · rw [if_pos hc] at hf ⊢
    cases hf
    rfl
  · rw [if_neg hc] at hf ⊢
    exact h hf more hmore

theorem word?_map_append {word : String} {t t' : JsonTree} {text rest : List Char}
    (h : (word? word text).map (t, ·) = some (t', rest)) (more : List Char) :
    (word? word (text ++ more)).map (t, ·) = some (t', rest ++ more) := by
  obtain ⟨rest', hword, hpair⟩ := Option.map_eq_some_iff.mp h
  cases hpair
  rw [word?_append_of_some hword, Option.map_some]

theorem valueWith_carries (hitems : Carries items items') (hmembers : Carries members members') :
    Carries (valueWith items members) (valueWith items' members') := by
  intro text t rest h more hmore
  rw [valueWith] at h ⊢
  split at h
  · cases h
  next c r hskip =>
  rw [skipBlanks_append_cons hskip]
  simp only
  by_cases hquote : c = '"'
  · rw [if_pos hquote] at h ⊢
    exact stringTail?_carries.map JsonTree.string h more hmore
  rw [if_neg hquote] at h ⊢
  by_cases hbracket : c = '['
  · rw [if_pos hbracket] at h ⊢
    exact (untilClosed_carries hitems).map JsonTree.array h more hmore
  rw [if_neg hbracket] at h ⊢
  by_cases hbrace : c = '\x7b'
  · rw [if_pos hbrace] at h ⊢
    exact (untilClosed_carries hmembers).map JsonTree.object h more hmore
  rw [if_neg hbrace] at h ⊢
  by_cases hnull : c = 'n'
  · rw [if_pos hnull] at h ⊢
    exact word?_map_append h more
  rw [if_neg hnull] at h ⊢
  by_cases htrue : c = 't'
  · rw [if_pos htrue] at h ⊢
    exact word?_map_append h more
  rw [if_neg htrue] at h ⊢
  by_cases hfalse : c = 'f'
  · rw [if_pos hfalse] at h ⊢
    exact word?_map_append h more
  rw [if_neg hfalse] at h ⊢
  exact number?_carries.map JsonTree.number h more hmore

theorem itemsWith_carries (hvalue : Carries value value') (hitems : Carries items items') :
    Carries (itemsWith value items) (itemsWith value' items') := by
  intro text ts rest h more hmore
  obtain ⟨⟨t, behind⟩, ht, h⟩ := Option.bind_eq_some_iff.mp h
  simp only at h
  split at h
  · next r hskip =>
    obtain ⟨⟨ts', rest'⟩, hts, hpair⟩ := Option.bind_eq_some_iff.mp h
    cases hpair
    simp [itemsWith, hvalue ht more (by rintro rfl; cases hskip), skipBlanks_append_cons hskip,
      hitems hts more hmore]
  · next r hskip =>
    cases h
    simp [itemsWith, hvalue ht more (by rintro rfl; cases hskip), skipBlanks_append_cons hskip]
  · cases h

theorem membersWith_carries (hvalue : Carries value value')
    (hmembers : Carries members members') :
    Carries (membersWith value members) (membersWith value' members') := by
  intro text ms rest h more hmore
  rw [membersWith] at h
  split at h
  next r hquote =>
    obtain ⟨⟨key, behind⟩, hkey, h⟩ := Option.bind_eq_some_iff.mp h
    simp only at h
    split at h
    next r' hcolon =>
      obtain ⟨⟨t, behind'⟩, ht, h⟩ := Option.bind_eq_some_iff.mp h
      simp only at h
      split at h
      · next r'' hcomma =>
        obtain ⟨⟨ms', rest'⟩, hms, hpair⟩ := Option.bind_eq_some_iff.mp h
        cases hpair
        simp [membersWith, skipBlanks_append_cons hquote,
          stringTail?_carries hkey more (by rintro rfl; cases hcolon),
          skipBlanks_append_cons hcolon, hvalue ht more (by rintro rfl; cases hcomma),
          skipBlanks_append_cons hcomma, hmembers hms more hmore]
      · next r'' hclose =>
        cases h
        simp [membersWith, skipBlanks_append_cons hquote,
          stringTail?_carries hkey more (by rintro rfl; cases hcolon),
          skipBlanks_append_cons hcolon, hvalue ht more (by rintro rfl; cases hclose),
          skipBlanks_append_cons hclose]
      · cases h
    · cases h
  · cases h

end Values

/-- With as much fuel or more, what is read does not depend on what stands behind it. -/
theorem carries (fuel more : Nat) : Carries (value? fuel) (value? (fuel + more))
    ∧ Carries (items? fuel) (items? (fuel + more))
    ∧ Carries (members? fuel) (members? (fuel + more)) := by
  induction fuel with
  | zero => exact ⟨fun _ _ _ h => (by cases h), fun _ _ _ h => (by cases h),
      fun _ _ _ h => (by cases h)⟩
  | succ fuel ih =>
    obtain ⟨hvalue, hitems, hmembers⟩ := ih
    rw [Nat.succ_add, value?_succ, value?_succ, items?_succ, items?_succ, members?_succ,
      members?_succ]
    exact ⟨valueWith_carries hitems hmembers, itemsWith_carries hvalue hitems,
      membersWith_carries hvalue hmembers⟩

/-- **What a value is read as does not depend on what stands behind it.** -/
theorem value?_carries {fuel fuel' : Nat} (h : fuel ≤ fuel') :
    Carries (value? fuel) (value? fuel') := by
  obtain ⟨more, rfl⟩ := Nat.exists_eq_add_of_le h
  exact (carries fuel more).1

theorem parse?_eq_some_iff {text : List Char} {t : JsonTree} : parse? text = some t ↔
    ∃ rest, value? (2 * text.length + 2) text = some (t, rest) ∧ skipBlanks rest = [] := by
  rw [parse?]
  cases value? (2 * text.length + 2) text with
  | none => simp
  | some x => simp [and_comm, Prod.ext_iff]

end JsonTree

end FormOntology
