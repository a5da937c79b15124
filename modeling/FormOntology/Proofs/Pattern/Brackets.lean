import FormOntology.Pattern.Bracket
import FormOntology.Proofs.Pattern.Atoms

/-!
# Classes in front of a closing parenthesis

A class ends at its own bracket.  Whatever is read inside it leaves something, the bracket at
least, so nothing that stands behind the class is looked at.

## Main results

* `asciiClass?_append` — a class with a name is found in the same places.
* `readListed_append` — a character, a range or a class of a list.
* `readBracket_append` — the class behind an opening bracket, with any more fuel.
-/

namespace FormOntology

variable {f : PatternFlags} {verbose : Bool} {text rest s : List Char}

/-! ### Classes with a name and signs -/

theorem dropWhile_colon (hs : Closing s) : s.dropWhile (· != ':') = [] := by
  refine List.dropWhile_eq_nil_iff.mpr fun c hc => bne_iff_ne.mpr ?_
  rintro rfl
  exact hs.notMem_colon hc

theorem asciiClass?_append (text : List Char) (hs : Closing s) :
    asciiClass? (text ++ s) = (asciiClass? text).map fun p => (p.1, p.2.1, p.2.2 ++ s) := by
  match text with
  | [] => rcases hs.head with rfl | ⟨t, rfl⟩ <;> rfl
  | c :: r =>
    by_cases hc : c = ':'
    · subst hc
      have hhead : (r ++ s).head? = some '^' ↔ r.head? = some '^' := by
        cases r with
        | nil => rcases hs.head with rfl | ⟨t, rfl⟩ <;> simp
        | cons d r => rfl
      have hdrop : (if r.head? = some '^' then (r ++ s).drop 1 else r ++ s)
          = (if r.head? = some '^' then r.drop 1 else r) ++ s := by
        split
        · next h =>
          obtain ⟨t, rfl⟩ := List.head?_eq_some_iff.mp h
          rfl
        · rfl
      simp only [List.cons_append, asciiClass?, hhead, hdrop]
      generalize (if r.head? = some '^' then r.drop 1 else r) = body
      cases hd : body.dropWhile (· != ':') with
      | nil => simp [List.dropWhile_append, hd, dropWhile_colon hs]
      | cons d t =>
        have hne : body.dropWhile (· != ':') ≠ [] := by simp [hd]
        rw [dropWhile_append_of_ne_nil hne, takeWhile_append_of_ne_nil hne, hd]
        cases t with
        | nil => rcases hs.head with rfl | ⟨t, rfl⟩ <;> simp
        | cons e t =>
          simp only [List.cons_append]
          split <;> split <;> simp_all [Option.map_map, Function.comp_def]
    · simp [asciiClass?, hc]

theorem classOp?_append (ht : text ≠ []) (hs : Closing s) :
    classOp? (text ++ s) = classOp? text := by
  match text with
  | [c] =>
    rcases hs.head with rfl | ⟨t, rfl⟩
    · rfl
    · simp [classOp?]
  | c :: d :: r =>
    simp only [List.cons_append, classOp?]
    split <;> simp_all

/-! ### Lists -/

theorem readLeading_append {fuel fuel' : Nat} {p q : ClassPart}
    (h : readLeading verbose fuel p text = .ok (q, rest)) (hf : fuel ≤ fuel') :
    readLeading verbose fuel' p (text ++ s) = .ok (q, rest ++ s) := by
  induction fuel generalizing fuel' p text with
  | zero => cases h
  | succ fuel ih =>
    obtain ⟨fuel', rfl⟩ : ∃ n, fuel' = n + 1 := ⟨fuel' - 1, by omega⟩
    cases text with
    | nil => cases h
    | cons c r =>
      simp only [List.cons_append, readLeading] at h ⊢
      by_cases hc : c = '-'
      · rw [if_pos hc] at h ⊢
        have hr : skipSpace verbose r ≠ [] := by
          intro hr
          rw [hr] at h
          cases fuel <;> cases h
        rw [skipSpace_append hr]
        exact ih h (by omega)
      · rw [if_neg hc] at h ⊢
        by_cases hb : c = ']' ∧ p.count = 0
        · rw [if_pos hb] at h ⊢
          by_cases hr : skipSpace verbose r = []
          · simp [hr] at h
          · rw [if_neg (by simpa using hr)] at h
            obtain ⟨rfl, rfl⟩ := Prod.mk.inj (Except.ok.inj h)
            rw [skipSpace_append hr, if_neg (by simp [hr])]
        · rw [if_neg hb] at h ⊢
          obtain ⟨rfl, rfl⟩ := Prod.mk.inj (Except.ok.inj h)
          rfl

theorem readLeading_nil (fuel : Nat) (p : ClassPart) :
    readLeading verbose fuel p [] = .error .unexpectedEnd := by
  cases fuel <;> rfl

theorem openBracket_append {o : OpenClass} (h : openBracket f text = .ok (o, rest)) :
    openBracket f (text ++ s) = .ok (o, rest ++ s) := by
  unfold openBracket at h ⊢
  have hk : skipSpace f.verbose text ≠ [] := by
    intro hk
    simp [hk, readLeading_nil] at h
  rw [skipSpace_append hk]
  generalize skipSpace f.verbose text = t at h hk ⊢
  obtain ⟨c, r, rfl⟩ := List.exists_cons_of_ne_nil hk
  simp only [List.cons_append, List.head?_cons, List.drop_one, List.tail_cons] at h ⊢
  by_cases hc : some c = some '^'
  · simp only [if_pos hc] at h ⊢
    obtain ⟨⟨parts, tail⟩, hread, h⟩ := bind_eq_ok.mp h
    cases h
    have hr : skipSpace f.verbose r ≠ [] := by
      intro hr
      rw [hr, readLeading_nil] at hread
      cases hread
    rw [skipSpace_append hr, readLeading_append hread (by simp)]
    rfl
  · simp only [if_neg hc] at h ⊢
    obtain ⟨⟨parts, tail⟩, hread, h⟩ := bind_eq_ok.mp h
    cases h
    rw [← List.cons_append, readLeading_append hread (by simp)]
    rfl

variable {a first last : Atom} {c d : Char} {r tail : List Char} {set : CharSet}

theorem readClassAtom_append (h : readClassAtom f text = .ok (a, rest)) (hr : rest ≠ [])
    (hs : Closing s) : readClassAtom f (text ++ s) = .ok (a, rest ++ s) := by
  cases text with
  | nil => cases h
  | cons c r =>
    simp only [List.cons_append, readClassAtom] at h ⊢
    split at h
    · next hc =>
      rw [if_pos hc]
      exact (carried_readEscape h).of_ne_nil hr hs
    · next hc =>
      obtain ⟨rfl, rfl⟩ := Prod.mk.inj (Except.ok.inj h)
      rw [if_neg hc]

theorem dropSpace_trimStart (text : List Char) :
    dropSpace false (Text.trimStart text) = dropSpace false text := by
  induction text with
  | nil => rfl
  | cons c r ih =>
    rw [Text.trimStart_cons]
    split
    · next hc => rw [ih, dropSpace, if_pos hc]
    · rfl

theorem dropSpace_of_blank {comment : Bool} (h : ∀ c ∈ text, Text.isBlank c = true) :
    dropSpace comment text = [] := by
  induction text generalizing comment with
  | nil => cases comment <;> rfl
  | cons c r ih =>
    have hr : ∀ c ∈ r, Text.isBlank c = true := fun d hd => h d (List.mem_cons_of_mem c hd)
    cases comment with
    | true => exact ih hr
    | false => rw [dropSpace, if_pos (h c List.mem_cons_self), ih hr]

theorem dropSpace_of_trimStart_eq_nil {comment : Bool} (h : Text.trimStart text = []) :
    dropSpace comment text = [] :=
  dropSpace_of_blank fun c hc => List.dropWhile_eq_nil_iff.mp h c hc

theorem behindHyphen_verbose (text : List Char) : behindHyphen true text
    = if (Text.trimStart text).head? = some '#' then
        (Text.trimStart ((Text.trimStart text).drop 1)).head?
      else (Text.trimStart text).head? := rfl

/-- Where a character tells whether a hyphen makes a range, it is not looked for any further. -/
theorem behindHyphen_append (h : behindHyphen verbose text ≠ none) (s : List Char) :
    behindHyphen verbose (text ++ s) = behindHyphen verbose text := by
  cases verbose with
  | false =>
    cases text with
    | nil => exact absurd rfl h
    | cons c r => rfl
  | true =>
    rw [behindHyphen_verbose] at h ⊢
    have hne : Text.trimStart text ≠ [] := by
      intro hnil
      simp [hnil] at h
    have htrim : Text.trimStart (text ++ s) = Text.trimStart text ++ s :=
      dropWhile_append_of_ne_nil hne s
    rw [htrim, behindHyphen_verbose]
    obtain ⟨c, r, hcr⟩ := List.exists_cons_of_ne_nil hne
    simp only [hcr, List.cons_append, List.head?_cons, List.drop_one, List.tail_cons] at h ⊢
    by_cases hc : some c = some '#'
    · rw [if_pos hc] at h ⊢
      have hr : Text.trimStart r ≠ [] := List.head?_eq_none_iff.not.mp h
      have htrim : Text.trimStart (r ++ s) = Text.trimStart r ++ s :=
        dropWhile_append_of_ne_nil hr s
      obtain ⟨d, t, hdt⟩ := List.exists_cons_of_ne_nil hr
      rw [if_pos hc, htrim, hdt]
      rfl
    · rw [if_neg hc, if_neg hc]

/-- Where no character tells it, nothing follows the hyphen. -/
theorem skipSpace_of_behindHyphen (h : behindHyphen verbose text = none) :
    skipSpace verbose text = [] := by
  cases verbose with
  | false => exact List.head?_eq_none_iff.mp h
  | true =>
    change dropSpace false text = []
    rw [← dropSpace_trimStart]
    rw [behindHyphen_verbose] at h
    split at h
    · next hc =>
      obtain ⟨r, hr⟩ := List.head?_eq_some_iff.mp hc
      rw [hr, List.drop_one, List.tail_cons] at h
      rw [hr]
      change dropSpace true r = []
      exact dropSpace_of_trimStart_eq_nil (List.head?_eq_none_iff.mp h)
    · rw [List.head?_eq_none_iff.mp h]
      rfl

/-- The set of a part that is one character or class. -/
def listedAlone (f : PatternFlags) : Atom → Except PatternError CharSet
  | .literal c _ => listedLiteral f c
  | .set s => .ok s
  | _ => .error .badClass

/-- The set of a range. -/
def listedRange (f : PatternFlags) : (first last : Atom) → Except PatternError CharSet
  | .literal a _, .literal b _ =>
    if b < a then .error .badClass
    else do
      let _ ← listedLiteral f a
      let _ ← listedLiteral f b
      return fun c => a ≤ c && c ≤ b
  | _, _ => .error .badClass

theorem map_listedRange (f : PatternFlags) (first last : Atom) (rest : List Char) :
    (listedRange f first last).map (·, rest) = match first, last with
      | .literal a _, .literal b _ =>
        if b < a then .error .badClass
        else do
          let _ ← listedLiteral f a
          let _ ← listedLiteral f b
          return (fun c => a ≤ c && c ≤ b, rest)
      | _, _ => .error .badClass := by
  unfold listedRange
  split
  · next a _ b _ =>
    split
    · rfl
    · cases listedLiteral f a with
      | error e => rfl
      | ok _ => cases listedLiteral f b <;> rfl
  · rfl

/-- Whether a part in front of this character and text is not the start of a range. -/
def standsAlone (verbose : Bool) (d : Char) (tail : List Char) : Bool :=
  d != '-' || behindHyphen verbose tail == some ']' || behindHyphen verbose tail == some '-'

theorem readListed_alone {r₀ : List Char} (hfirst : readClassAtom f text = .ok (first, r₀))
    (hk : skipSpace f.verbose r₀ = d :: tail) (ha : standsAlone f.verbose d tail = true) :
    readListed f text = (listedAlone f first).map (·, d :: tail) := by
  rw [readListed, hfirst]
  simp only [standsAlone] at ha
  simp only [bind, Except.bind, hk, if_pos ha]
  cases first <;> rfl

theorem readListed_range {r₀ : List Char} (hfirst : readClassAtom f text = .ok (first, r₀))
    (hk : skipSpace f.verbose r₀ = d :: tail) (ha : standsAlone f.verbose d tail = false)
    (ht : skipSpace f.verbose tail = c :: r) :
    readListed f text = readClassAtom f (c :: r) >>= fun p =>
      (listedRange f first p.1).map (·, p.2) := by
  rw [readListed, hfirst]
  simp only [standsAlone] at ha
  simp only [bind, Except.bind, hk, ha, Bool.false_eq_true, if_false, ht]
  cases readClassAtom f (c :: r) with
  | error e => rfl
  | ok p => exact (map_listedRange f first p.1 p.2).symm

theorem standsAlone_append (h : standsAlone verbose d tail = true) (s : List Char) :
    standsAlone verbose d (tail ++ s) = true := by
  by_cases hd : d = '-'
  · have hb : behindHyphen verbose tail ≠ none := by
      intro hb
      simp [standsAlone, hb, hd] at h
    rwa [standsAlone, behindHyphen_append hb]
  · simp [standsAlone, hd]

theorem standsAlone_append_of_ne_nil (h : standsAlone verbose d tail = false)
    (ht : skipSpace verbose tail ≠ []) (s : List Char) :
    standsAlone verbose d (tail ++ s) = false := by
  have hb : behindHyphen verbose tail ≠ none := fun hb => ht (skipSpace_of_behindHyphen hb)
  rwa [standsAlone, behindHyphen_append hb]

theorem readListed_append (h : readListed f text = .ok (set, rest)) (hr : rest ≠ [])
    (hs : Closing s) : readListed f (text ++ s) = .ok (set, rest ++ s) := by
  obtain ⟨⟨first, r₀⟩, hfirst, -⟩ := bind_eq_ok.mp (by rwa [readListed] at h)
  cases hk : skipSpace f.verbose r₀ with
  | nil =>
    rw [readListed, hfirst] at h
    simp only [bind, Except.bind, hk] at h
    cases h
  | cons d tail =>
    have hk₀ : skipSpace f.verbose r₀ ≠ [] := by simp [hk]
    have hr₀ : r₀ ≠ [] := by
      rintro rfl
      simp at hk
    have hfirst' := readClassAtom_append hfirst hr₀ hs
    have hk' : skipSpace f.verbose (r₀ ++ s) = d :: (tail ++ s) := by
      rw [skipSpace_append hk₀, hk, List.cons_append]
    cases ha : standsAlone f.verbose d tail with
    | true =>
      rw [readListed_alone hfirst hk ha] at h
      obtain ⟨hset, rfl⟩ := map_pair_eq_ok.mp h
      rw [readListed_alone hfirst' hk' (standsAlone_append ha s), hset]
      rfl
    | false =>
      -- behind the hyphen of a range its last character must stand
      cases ht : skipSpace f.verbose tail with
      | nil =>
        rw [readListed, hfirst] at h
        simp only [standsAlone] at ha
        simp only [bind, Except.bind, hk, ha, Bool.false_eq_true, if_false, ht] at h
        cases h
      | cons c r =>
        have htail : skipSpace f.verbose tail ≠ [] := by simp [ht]
        have ht' : skipSpace f.verbose (tail ++ s) = c :: (r ++ s) := by
          rw [skipSpace_append htail, ht, List.cons_append]
        rw [readListed_range hfirst hk ha ht] at h
        obtain ⟨⟨last, tail'⟩, hlast, hp⟩ := bind_eq_ok.mp h
        obtain ⟨hset, rfl⟩ := map_pair_eq_ok.mp hp
        rw [readListed_range hfirst' hk' (standsAlone_append_of_ne_nil ha htail s) ht',
          ← List.cons_append, readClassAtom_append hlast hr hs]
        exact map_pair_eq_ok.mpr ⟨hset, rfl⟩

/-! ### Classes in brackets -/

theorem readBracket_nil (f : PatternFlags) (fuel : Nat) (o : OpenClass) :
    readBracket f fuel o [] = .error .unexpectedEnd := by
  cases fuel with
  | zero => rfl
  | succ fuel =>
    rw [readBracket, skipSpace_nil]

/-- **A class in brackets is read as before, whatever stands behind it**, with as much fuel or
more. -/
theorem readBracket_append {fuel fuel' : Nat} {o : OpenClass} {depth : Nat}
    (h : readBracket f fuel o text = .ok (set, depth, rest)) (hf : fuel ≤ fuel')
    (hs : Closing s) : readBracket f fuel' o (text ++ s) = .ok (set, depth, rest ++ s) := by
  -- on the fuel; every branch reads on behind something that is not empty, as the bracket is there
  induction fuel generalizing fuel' o text set depth rest with
  | zero => cases h
  | succ fuel ih =>
    obtain ⟨fuel', rfl⟩ : ∃ n, fuel' = n + 1 := ⟨fuel' - 1, by omega⟩
    have hf : fuel ≤ fuel' := by omega
    cases hk : skipSpace f.verbose text with
    | nil =>
      rw [readBracket, hk] at h
      cases h
    | cons c r =>
      have hk₀ : skipSpace f.verbose text ≠ [] := by simp [hk]
      have hk' : skipSpace f.verbose (text ++ s) = c :: r ++ s := by
        rw [skipSpace_append hk₀, hk]
      have hop := classOp?_append (List.cons_ne_nil c r) hs
      simp only [readBracket, hk] at h
      simp only [readBracket, hk', hop]
      cases ho : classOp? (c :: r) with
      | some op =>
        simp only [ho, List.cons_append] at h ⊢
        have hr : r ≠ [] := by
          rintro rfl
          simp [classOp?] at ho
        obtain ⟨d, t, rfl⟩ := List.exists_cons_of_ne_nil hr
        exact ih h hf
      | none =>
        simp only [ho, List.cons_append] at h ⊢
        by_cases hopen : c = '['
        · simp only [if_pos hopen, asciiClass?_append r hs] at h ⊢
          cases hn : asciiClass? r with
          | some p =>
            rw [hn] at h
            exact ih h hf
          | none =>
            rw [hn] at h
            obtain ⟨⟨inner, r₁⟩, hinner, h⟩ := bind_eq_ok.mp h
            obtain ⟨⟨t, d, r₂⟩, hbracket, h⟩ := bind_eq_ok.mp h
            simp only [Option.map_none, openBracket_append hinner]
            refine bind_eq_ok.mpr ⟨_, rfl, bind_eq_ok.mpr ⟨_, ih hbracket hf, ?_⟩⟩
            exact ih h hf
        · by_cases hclose : c = ']'
          · simp only [if_neg hopen, if_pos hclose] at h ⊢
            obtain ⟨t, ht, h⟩ := bind_eq_ok.mp h
            cases h
            exact bind_eq_ok.mpr ⟨_, ht, rfl⟩
          · simp only [if_neg hopen, if_neg hclose] at h ⊢
            obtain ⟨⟨t, r₁⟩, hlisted, h⟩ := bind_eq_ok.mp h
            have hr₁ : r₁ ≠ [] := by
              rintro rfl
              rw [readBracket_nil] at h
              cases h
            exact bind_eq_ok.mpr ⟨_, readListed_append hlisted hr₁ hs, ih h hf⟩

end FormOntology
