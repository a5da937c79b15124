import FormOntology.Proofs.Pattern.Space

/-!
# Atoms in front of a closing parenthesis

No atom reaches beyond the text in parentheses that it ends: hexadecimal digits, names in braces
and escapes are read as before.  Only behind a digit or the letter of a property are blanks and
comments skipped at once, so only there can a comment swallow what stands behind.

## Main results

* `carried_readHex`, `carried_readProperty` — characters by their number, and properties.
* `readBoundary_append` — the conditions behind `\b`.
* `carried_readEscape` — whatever stands behind a backslash.
-/

namespace FormOntology

variable {f : PatternFlags} {verbose : Bool} {a : Atom} {text rest : List Char}

/-! ### Characters by their number -/

theorem readHexDigits_cons {c : Char} {d : Nat} (hd : hexValue? c = some d) (n value : Nat)
    (r : List Char) : readHexDigits verbose (n + 1) value (c :: r)
      = readHexDigits verbose n (16 * value + d) (skipSpace verbose r) := by
  rw [readHexDigits, hd]

theorem carried_readHexDigits {n value m : Nat}
    (h : readHexDigits verbose n value text = .ok (m, rest)) :
    Carried (readHexDigits verbose n value) text (m, ·) rest := by
  induction n generalizing value text with
  | zero =>
    obtain ⟨rfl, rfl⟩ : value = m ∧ text = rest := by simpa [readHexDigits] using h
    exact .self fun s _ => by rw [readHexDigits]
  | succ n ih =>
    cases text with
    | nil => cases h
    | cons c r =>
      cases hd : hexValue? c with
      | none =>
        rw [readHexDigits, hd] at h
        cases h
      | some d =>
        rw [readHexDigits_cons hd] at h
        exact (ih h).skip.cons fun t => readHexDigits_cons hd n value t

/-- The character of a number as a literal. -/
def numberedLiteral (byte : Bool) (n : Nat) : Except PatternError Atom :=
  match charOfNat? n with
  | none => .error .badEscape
  | some c => .ok (.literal c byte)

theorem map_numberedLiteral (byte : Bool) (n : Nat) (rest : List Char) :
    (numberedLiteral byte n).map (·, rest) = match charOfNat? n with
      | none => .error .badEscape
      | some c => .ok (.literal c byte, rest) := by
  rw [numberedLiteral]
  cases charOfNat? n <;> rfl

theorem readHex_skipSpace (verbose : Bool) (digits : Nat) (text : List Char) :
    readHex verbose digits (skipSpace verbose text) = readHex verbose digits text := by
  simp only [readHex, skipSpace_skipSpace]

theorem readHex_digits {digits : Nat} (ht : skipSpace verbose text = text)
    (hb : text.head? ≠ some '\x7b') : readHex verbose digits text
      = readHexDigits verbose digits 0 text >>= fun p =>
        (numberedLiteral (digits == 2) p.1).map (·, p.2) := by
  rw [readHex, ht, if_neg hb]
  congr 1
  funext p
  exact (map_numberedLiteral _ _ _).symm

theorem readHex_braces {digits : Nat} {written r tail : List Char}
    (hc : collect verbose (· != '\x7d') false r = (written, tail)) :
    readHex verbose digits ('\x7b' :: r)
      = if tail.isEmpty then .error .unexpectedEnd
        else if written.isEmpty || !written.all (hexValue? · |>.isSome) then .error .badEscape
        else (numberedLiteral false
          (written.foldl (fun n c => 16 * n + (hexValue? c).getD 0) 0)).map
            (·, skipSpace verbose (tail.drop 1)) := by
  have hskip : skipSpace verbose ('\x7b' :: r) = '\x7b' :: r := by cases verbose <;> rfl
  rw [readHex, hskip, numberedLiteral]
  cases hn : charOfNat? (written.foldl (fun n c => 16 * n + (hexValue? c).getD 0) 0) <;>
    simp only [List.head?_cons, if_true, List.drop_one, List.tail_cons, hc, hn, Except.map]

theorem carried_readHex {digits : Nat} (h : readHex verbose digits text = .ok (a, rest)) :
    Carried (readHex verbose digits) text (a, ·) rest := by
  rw [← readHex_skipSpace] at h
  refine .of_skip (readHex_skipSpace verbose digits) ?_
  have ht := skipSpace_skipSpace verbose text
  generalize skipSpace verbose text = t at h ht
  by_cases hb : t.head? = some '\x7b'
  · obtain ⟨r, rfl⟩ := List.head?_eq_some_iff.mp hb
    obtain ⟨⟨written, tail⟩, hc⟩ : ∃ p, collect verbose (· != '\x7d') false r = p := ⟨_, rfl⟩
    rw [readHex_braces hc] at h
    split at h
    · cases h
    next hne =>
    split at h
    · cases h
    next hw =>
    obtain ⟨hlit, rfl⟩ := map_pair_eq_ok.mp h
    have htail : tail ≠ [] := by simpa using hne
    obtain ⟨d, tail, rfl⟩ := List.exists_cons_of_ne_nil htail
    have hself : Carried (fun t => (.ok (a, t) : Except PatternError _))
      (skipSpace verbose tail) (a, ·) (skipSpace verbose tail) := .self fun _ _ => rfl
    refine hself.skip.congr (fun h => absurd h (List.cons_ne_nil _ _)) fun s _ => ?_
    rw [List.cons_append, readHex_braces (collect_append hc htail s), hlit]
    simp only [List.cons_append, List.isEmpty_cons, Bool.false_eq_true, if_false, if_neg hw]
    rfl
  · rw [readHex_digits ht hb] at h
    obtain ⟨⟨n, r⟩, hn, hp⟩ := bind_eq_ok.mp h
    obtain ⟨hlit, rfl⟩ := map_pair_eq_ok.mp hp
    have hread : Carried (fun t => readHexDigits verbose digits 0 t >>= fun p =>
        (numberedLiteral (digits == 2) p.1).map (·, p.2)) t (a, ·) r :=
      (carried_readHexDigits hn).bind (.self fun s _ => map_pair_eq_ok.mpr ⟨hlit, rfl⟩)
    refine hread.congr id fun s hs => readHex_digits (skipSpace_append_self ht hs) ?_
    cases t with
    | nil => rcases hs.head with rfl | ⟨t, rfl⟩ <;> simp
    | cons c r => exact hb

/-! ### Properties -/

/-- The class of the property that was found. -/
def propertyAtom (f : PatternFlags) (negated : Bool) (found : Option (CharSet × Bool)) :
    Except PatternError Atom :=
  if !f.unicode then .error .notUnicode
  else
    match found with
    | none => .error .unknownProperty
    | some (s, opposite) => (f.close (negated != opposite) s).map .set

theorem map_propertyAtom (f : PatternFlags) (negated : Bool) (found : Option (CharSet × Bool))
    (rest : List Char) : (propertyAtom f negated found).map (·, rest)
      = if !f.unicode then .error .notUnicode
        else
          match found with
          | none => .error .unknownProperty
          | some (s, opposite) => return (.set (← f.close (negated != opposite) s), rest) := by
  unfold propertyAtom
  split
  · rfl
  · cases found with
    | none => rfl
    | some p => cases h : f.close (negated != p.2) p.1 <;> simp only [h] <;> rfl

variable {negated : Bool} {c : Char} {r : List Char}

theorem readProperty_skipSpace (f : PatternFlags) (negated : Bool) (text : List Char) :
    readProperty f negated (skipSpace f.verbose text) = readProperty f negated text := by
  simp only [readProperty, skipSpace_skipSpace]

theorem readProperty_braces {name tail : List Char}
    (hc : collect f.verbose (· != '\x7d') false r = (name, tail)) (ht : tail ≠ []) :
    readProperty f negated ('\x7b' :: r)
      = (propertyAtom f negated (namedProperty? name)).map (·, tail.drop 1) := by
  have hskip : skipSpace f.verbose ('\x7b' :: r) = '\x7b' :: r := by cases f.verbose <;> rfl
  rw [readProperty, hskip, map_propertyAtom]
  simp only [if_true, hc, List.isEmpty_eq_false_iff.mpr ht]
  rfl

theorem readProperty_letter (hskip : skipSpace f.verbose (c :: r) = c :: r) (hb : c ≠ '\x7b')
    (he : c ≠ '\\') : readProperty f negated (c :: r)
      = (propertyAtom f negated ((Unicode.property? [c]).map (·, false))).map
          (·, skipSpace f.verbose r) := by
  rw [readProperty, hskip, map_propertyAtom]
  simp only [if_neg hb, if_neg he]
  rfl

theorem carried_readProperty (h : readProperty f negated text = .ok (a, rest)) :
    Carried (readProperty f negated) text (a, ·) rest := by
  rw [← readProperty_skipSpace] at h
  refine .of_skip (readProperty_skipSpace f negated) ?_
  have hskip := skipSpace_skipSpace f.verbose text
  generalize skipSpace f.verbose text = t at h hskip
  cases t with
  | nil =>
    rw [readProperty, hskip] at h
    cases h
  | cons c r =>
    by_cases hb : c = '\x7b'
    · subst hb
      obtain ⟨⟨name, tail⟩, hc⟩ : ∃ p, collect f.verbose (· != '\x7d') false r = p := ⟨_, rfl⟩
      cases tail with
      | nil =>
        rw [readProperty, hskip] at h
        simp only [if_true, hc, List.isEmpty_nil] at h
        cases h
      | cons d tail =>
        rw [readProperty_braces hc (List.cons_ne_nil d tail)] at h
        obtain ⟨ha, rfl⟩ := map_pair_eq_ok.mp h
        refine ⟨fun h => absurd h (List.cons_ne_nil _ _), .inl fun s _ => ?_⟩
        rw [List.cons_append, readProperty_braces
          (collect_append hc (List.cons_ne_nil d tail) s) (List.cons_ne_nil _ _), ha]
        rfl
    · by_cases he : c = '\\'
      · subst he
        rw [readProperty, hskip] at h
        cases h
      · rw [readProperty_letter hskip hb he] at h
        obtain ⟨ha, rfl⟩ := map_pair_eq_ok.mp h
        have hself : Carried (fun t => (.ok (a, t) : Except PatternError _))
          (skipSpace f.verbose r) (a, ·) (skipSpace f.verbose r) := .self fun _ _ => rfl
        refine hself.skip.congr (fun h => absurd h (List.cons_ne_nil _ _)) fun s hs => ?_
        have hskip' : skipSpace f.verbose (c :: (r ++ s)) = c :: (r ++ s) :=
          skipSpace_append_self hskip hs
        rw [List.cons_append, readProperty_letter hskip' hb he, ha]
        rfl

/-! ### Conditions and escapes -/

/-- The condition behind `\b` ends at what stands behind it. -/
theorem readBoundary_append (h : readBoundary f text = .ok (a, rest)) {s : List Char}
    (hs : Closing s) : readBoundary f (text ++ s) = .ok (a, rest ++ s) := by
  unfold readBoundary at h ⊢
  by_cases hb : text.head? = some '\x7b'
  · obtain ⟨r, rfl⟩ := List.head?_eq_some_iff.mp hb
    simp only [List.cons_append, List.head?_cons, if_true, List.drop_one, List.tail_cons] at h ⊢
    cases hk : skipSpace f.verbose r with
    | nil =>
      rw [hk] at h
      cases h
    | cons c t =>
      rw [skipSpace_append (by rw [hk]; exact List.cons_ne_nil c t), hk]
      rw [hk] at h
      simp only [List.cons_append] at h ⊢
      by_cases hn : isEdgeNameChar c = true
      · obtain ⟨⟨name, tail⟩, hc⟩ : ∃ p, collect f.verbose isEdgeNameChar false (c :: t) = p :=
          ⟨_, rfl⟩
        simp only [hn, hc, Bool.not_true, Bool.false_eq_true, if_false] at h
        by_cases ht : tail.head? = some '\x7d'
        · obtain ⟨tail, rfl⟩ := List.head?_eq_some_iff.mp ht
          have hc' := collect_append hc (List.cons_ne_nil _ tail) s
          rw [List.cons_append] at hc'
          simp only [hn, hc', Bool.not_true, Bool.false_eq_true, if_false, List.cons_append,
            List.head?_cons, bne_self_eq_false, List.tail_cons] at h ⊢
          cases he : edgeOfName? name with
          | none =>
            rw [he] at h
            cases h
          | some edge =>
            rw [he] at h
            obtain ⟨rfl, rfl⟩ := Prod.mk.inj (Except.ok.inj h)
            rfl
        · rw [if_pos (by simpa using ht)] at h
          cases h
      · simp only [hn, Bool.not_false, if_true] at h ⊢
        obtain ⟨rfl, rfl⟩ := Prod.mk.inj (Except.ok.inj h)
        rfl
  · have hb' : (text ++ s).head? ≠ some '\x7b' := by
      cases text with
      | nil => rcases hs.head with rfl | ⟨t, rfl⟩ <;> simp
      | cons c r => exact hb
    rw [if_neg hb] at h
    rw [if_neg hb']
    obtain ⟨rfl, rfl⟩ := Prod.mk.inj (Except.ok.inj h)
    rfl

/-- What a single character behind a backslash stands for. -/
def singleEscape (f : PatternFlags) (c : Char) : Except PatternError Atom :=
  if c.isDigit then .error .backReference
  else
    match letterClass? f.unicode c, controlOf? c with
    | some (s, negated), _ => .ok (.set (if negated then f.complement s else s))
    | none, some d => .ok (.literal d false)
    | none, none =>
      if isPlainEscape c then .ok (.literal c false)
      else if c = 'A' then .ok (.look .startText)
      else if c = 'z' then .ok (.look .endText)
      else if c = 'B' then .ok (.look (.word .noBoundary f.unicode))
      else if c = '<' then .ok (.look (.word .start f.unicode))
      else if c = '>' then .ok (.look (.word .stop f.unicode))
      else .error .badEscape

theorem readEscape_single (hc : c ∉ ['x', 'u', 'U', 'p', 'P', 'b']) (r : List Char) :
    readEscape f (c :: r) = (singleEscape f c).map (·, r) := by
  simp only [List.mem_cons, List.not_mem_nil, or_false, not_or] at hc
  obtain ⟨hx, hu, hU, hp, hP, hb⟩ := hc
  simp only [readEscape, singleEscape, hx, hu, hU, hp, hP, hb, if_false, or_self]
  cases letterClass? f.unicode c <;> cases controlOf? c <;> simp only <;> split_ifs <;> rfl

theorem readEscape_boundary (f : PatternFlags) (r : List Char) :
    readEscape f ('b' :: r) = readBoundary f r := by
  have hletter : letterClass? f.unicode 'b' = none := by simp [letterClass?]
  have hcontrol : controlOf? 'b' = none := rfl
  have hplain : isPlainEscape 'b' = false := by simp [isPlainEscape, isMetaChar]
  simp [readEscape, hletter, hcontrol, hplain]

/-- **What stands behind a backslash is read as before.** -/
theorem carried_readEscape (h : readEscape f text = .ok (a, rest)) :
    Carried (readEscape f) text (a, ·) rest := by
  cases text with
  | nil => cases h
  | cons c r =>
    by_cases hc : c ∈ ['x', 'u', 'U', 'p', 'P', 'b']
    · simp only [List.mem_cons, List.not_mem_nil, or_false] at hc
      rcases hc with rfl | rfl | rfl | rfl | rfl | rfl
      · exact (carried_readHex h).cons fun _ => rfl
      · exact (carried_readHex h).cons fun _ => rfl
      · exact (carried_readHex h).cons fun _ => rfl
      · exact (carried_readProperty h).cons fun _ => rfl
      · exact (carried_readProperty h).cons fun _ => rfl
      · rw [readEscape_boundary] at h
        refine ⟨fun h => absurd h (List.cons_ne_nil _ _), .inl fun s hs => ?_⟩
        rw [List.cons_append, readEscape_boundary]
        exact readBoundary_append h hs
    · rw [readEscape_single hc] at h
      obtain ⟨ha, rfl⟩ := map_pair_eq_ok.mp h
      refine Carried.cons (.self fun s _ => ?_) fun t => readEscape_single hc t
      rw [ha]
      rfl

end FormOntology
