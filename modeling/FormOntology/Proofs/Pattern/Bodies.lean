import FormOntology.Pattern.Reader
import FormOntology.Proofs.Pattern.Brackets

/-!
# Bodies in front of a closing parenthesis

Read as the body of a group, a text is read as it is alone: the same atoms, groups, counts and
flags, and the same names.  Its end is the closing parenthesis behind it, unless a comment that is
open at the end of the text swallows that parenthesis.

## Main results

* `readCount_append`, `readFlags_append`, `carried_readGroupStart` — the parts of a body.
* `carried_readAlternatives` — **a body is read as before, whatever stands behind it.**
-/

namespace FormOntology

variable {f : PatternFlags} {verbose : Bool} {text rest s : List Char}

/-! ### Counts -/

theorem readNumber_append {n : Option Nat} (h : readNumber verbose text = .ok (n, rest))
    (hr : rest ≠ []) (s : List Char) :
    readNumber verbose (text ++ s) = .ok (n, rest ++ s) := by
  obtain ⟨⟨digits, tail⟩, hc⟩ :
    ∃ p, collect verbose Char.isDigit false (Text.trimStart text) = p := ⟨_, rfl⟩
  simp only [readNumber, hc] at h
  have hrest : Text.trimStart tail = rest := by
    split at h
    · exact (Prod.mk.inj (Except.ok.inj h)).2
    · split at h
      · exact (Prod.mk.inj (Except.ok.inj h)).2
      · cases h
  have htail : tail ≠ [] := by
    rintro rfl
    exact hr hrest.symm
  have htext : Text.trimStart text ≠ [] := by
    intro hnil
    rw [hnil] at hc
    exact htail (congrArg Prod.snd hc).symm
  have htrim : Text.trimStart (text ++ s) = Text.trimStart text ++ s :=
    dropWhile_append_of_ne_nil htext s
  have htrim' : Text.trimStart (tail ++ s) = Text.trimStart tail ++ s :=
    dropWhile_append_of_ne_nil (by rwa [← hrest] at hr) s
  simp only [readNumber, htrim, collect_append hc htail s, htrim', hrest]
  rw [hrest] at h
  split at h
  · next hd =>
    rw [if_pos hd]
    cases h
    rfl
  · next hd =>
    rw [if_neg hd]
    split at h
    · next hn =>
      rw [if_pos hn]
      cases h
      rfl
    · cases h

theorem readNumber_nil (verbose : Bool) : readNumber verbose [] = .ok (none, []) := by
  simp [readNumber, collect]

/-- What stands behind the comma of a count: the most, if it is given, and the closing brace. -/
def readMost (verbose : Bool) (least : Nat) (text : List Char) :
    Except PatternError (Nat × Option Nat × List Char) := do
  let rest := skipSpace verbose text
  if rest.head? = some '\x7d' then return (least, none, rest.drop 1)
  else
    match ← readNumber verbose rest with
    | (some m, '\x7d' :: rest) =>
      if least ≤ m then return (least, some m, rest) else .error .badCount
    | _ => .error .badCount

theorem readMost_append {least least' : Nat} {most : Option Nat}
    (h : readMost verbose least' text = .ok (least, most, rest)) (s : List Char) :
    readMost verbose least' (text ++ s) = .ok (least, most, rest ++ s) := by
  unfold readMost at h ⊢
  have hk : skipSpace verbose text ≠ [] := by
    intro hk
    simp only [hk, readNumber_nil] at h
    cases h
  rw [skipSpace_append hk]
  generalize skipSpace verbose text = t at h hk ⊢
  obtain ⟨c, r, rfl⟩ := List.exists_cons_of_ne_nil hk
  have hhead : (c :: r ++ s).head? = (c :: r).head? := rfl
  simp only [hhead]
  by_cases hc : (c :: r).head? = some '\x7d'
  · simp only [if_pos hc] at h ⊢
    cases h
    rfl
  · simp only [if_neg hc] at h ⊢
    obtain ⟨⟨m, u⟩, hm, h⟩ := bind_eq_ok.mp h
    have hu : u ≠ [] := by
      rintro rfl
      cases m <;> cases h
    refine bind_eq_ok.mpr ⟨_, readNumber_append hm hu s, ?_⟩
    obtain ⟨d, u, rfl⟩ := List.exists_cons_of_ne_nil hu
    -- only a number in front of a brace is a count
    cases m with
    | none => cases h
    | some m =>
      simp only [List.cons_append] at h ⊢
      split at h
      · next heq =>
        cases heq
        split at h
        · next hle =>
          cases h
          simp only [if_pos hle]
          rfl
        · cases h
      · cases h

theorem readCount_append {least : Nat} {most : Option Nat}
    (h : readCount verbose text = .ok (least, most, rest)) (s : List Char) :
    readCount verbose (text ++ s) = .ok (least, most, rest ++ s) := by
  unfold readCount at h ⊢
  obtain ⟨⟨n, r⟩, hn, h⟩ := bind_eq_ok.mp h
  have hr : r ≠ [] := by
    rintro rfl
    cases n <;> cases h
  have htext : skipSpace verbose text ≠ [] := by
    intro hnil
    rw [hnil, readNumber_nil] at hn
    cases hn
    exact hr rfl
  rw [skipSpace_append htext]
  refine bind_eq_ok.mpr ⟨_, readNumber_append hn hr s, ?_⟩
  cases n with
  | none => cases h
  | some n =>
    obtain ⟨c, t, rfl⟩ := List.exists_cons_of_ne_nil hr
    simp only [List.cons_append] at h ⊢
    split at h
    · next heq =>
      cases heq
      cases h
      rfl
    · next heq =>
      cases heq
      exact readMost_append h s
    · cases h

/-! ### Groups -/

theorem readGroupName_append {name : List Char} (h : readGroupName text = .ok (name, rest))
    (s : List Char) : readGroupName (text ++ s) = .ok (name, rest ++ s) := by
  unfold readGroupName at h ⊢
  cases hd : text.dropWhile (· != '>') with
  | nil =>
    rw [hd] at h
    cases h
  | cons d r =>
    have hne : text.dropWhile (· != '>') ≠ [] := by simp [hd]
    rw [dropWhile_append_of_ne_nil hne, takeWhile_append_of_ne_nil hne, hd]
    rw [hd] at h
    cases hname : text.takeWhile (· != '>') with
    | nil =>
      rw [hname] at h
      cases h
    | cons c t =>
      simp only [hname, List.cons_append] at h ⊢
      split at h
      · next hall =>
        rw [if_pos hall]
        cases h
        rfl
      · cases h

theorem readFlags_append {g : PatternFlags} {seen : List Char} {any colon : Bool}
    (h : readFlags f seen text = .ok (g, any, colon, rest)) (s : List Char) :
    readFlags f seen (text ++ s) = .ok (g, any, colon, rest ++ s) := by
  induction text generalizing f seen with
  | nil => cases h
  | cons c r ih =>
    simp only [List.cons_append, readFlags] at h ⊢
    split at h
    · next hc =>
      rw [if_pos hc]
      split at h
      · cases h
      · next hs =>
        rw [if_neg hs]
        cases h
        rfl
    · next hc =>
      rw [if_neg hc]
      split at h
      · cases h
      · next hs =>
        rw [if_neg hs]
        split at h
        · next hm =>
          rw [if_pos hm]
          exact ih h
        · next hm =>
          rw [if_neg hm]
          split at h
          · cases h
          · next g' hg => exact ih h

theorem readGroupStart_skipSpace (f : PatternFlags) (text : List Char) :
    readGroupStart f (skipSpace f.verbose text) = readGroupStart f text := by
  simp only [readGroupStart, skipSpace_skipSpace]

theorem skipSpace_question (verbose : Bool) (r : List Char) :
    skipSpace verbose ('?' :: r) = '?' :: r := by
  cases verbose <;> rfl

/-- A group without a question mark has no name. -/
theorem readGroupStart_plain (hskip : skipSpace f.verbose text = text)
    (hq : text.head? ≠ some '?') :
    readGroupStart f text = .ok (.group f none, text) := by
  rw [readGroupStart, hskip]
  cases text with
  | nil => rfl
  | cons c r =>
    have hc : c ≠ '?' := by simpa using hq
    simp [hc]
    rfl

/-- The start of a group whose name stands behind `<`. -/
def namedGroup (f : PatternFlags) (text : List Char) :
    Except PatternError (GroupStart × List Char) :=
  (readGroupName text).map fun p => (.group f (some p.1), p.2)

/-- The start of a group, or a directive, with the flags behind the question mark. -/
def flaggedGroup (f : PatternFlags) (text : List Char) :
    Except PatternError (GroupStart × List Char) := do
  match ← readFlags f [] text with
  | (g, _, true, rest) => return (.group g none, rest)
  | (g, true, false, rest) => return (.directive g, rest)
  | (_, false, false, _) => .error .nothingToRepeat

theorem namedGroup_append {g : GroupStart} (h : namedGroup f text = .ok (g, rest))
    (s : List Char) : namedGroup f (text ++ s) = .ok (g, rest ++ s) := by
  unfold namedGroup at h ⊢
  cases hn : readGroupName text with
  | error e =>
    rw [hn] at h
    cases h
  | ok p =>
    rw [hn] at h
    cases h
    rw [readGroupName_append hn]
    rfl

theorem flaggedGroup_append {g : GroupStart} (h : flaggedGroup f text = .ok (g, rest))
    (s : List Char) : flaggedGroup f (text ++ s) = .ok (g, rest ++ s) := by
  unfold flaggedGroup at h ⊢
  obtain ⟨⟨g', any, colon, r⟩, hr, h⟩ := bind_eq_ok.mp h
  refine bind_eq_ok.mpr ⟨_, readFlags_append hr s, ?_⟩
  cases colon with
  | true =>
    cases h
    rfl
  | false =>
    cases any with
    | true =>
      cases h
      rfl
    | false => cases h

theorem readGroupStart_question (f : PatternFlags) (r : List Char) :
    readGroupStart f ('?' :: r) = match r with
      | '=' :: _ | '!' :: _ | '<' :: '=' :: _ | '<' :: '!' :: _ => .error .lookAround
      | 'P' :: '<' :: r | '<' :: r => namedGroup f r
      | r => flaggedGroup f r := by
  simp only [readGroupStart, skipSpace_question]
  split <;> simp_all [namedGroup, flaggedGroup] <;> rfl

theorem readGroupStart_append {g : GroupStart} {r : List Char}
    (h : readGroupStart f ('?' :: r) = .ok (g, rest)) (s : List Char) :
    readGroupStart f ('?' :: r ++ s) = .ok (g, rest ++ s) := by
  rw [List.cons_append, readGroupStart_question]
  rw [readGroupStart_question] at h
  split at h
  · cases h
  · cases h
  · cases h
  · cases h
  · exact namedGroup_append h s
  · next t heq hbang =>
    cases t with
    | nil => cases h
    | cons c t =>
      rw [← namedGroup_append h s, List.cons_append, List.cons_append]
      split <;> simp_all
  · next heq hbang hname hless =>
    cases r with
    | nil => cases h
    | cons c r =>
      rw [← flaggedGroup_append h s, List.cons_append]
      -- `P` is no flag, so it is not the start of a name that only what stands behind completes
      have hP : c ≠ 'P' := by
        rintro rfl
        simp [flaggedGroup, readFlags, PatternFlags.set?, bind, Except.bind] at h
      split <;> simp_all

theorem carried_readGroupStart {g : GroupStart} (h : readGroupStart f text = .ok (g, rest)) :
    Carried (readGroupStart f) text (g, ·) rest := by
  rw [← readGroupStart_skipSpace] at h
  refine .of_skip (readGroupStart_skipSpace f) ?_
  have hskip := skipSpace_skipSpace f.verbose text
  generalize skipSpace f.verbose text = t at h hskip
  by_cases hq : t.head? = some '?'
  · obtain ⟨r, rfl⟩ := List.head?_eq_some_iff.mp hq
    exact ⟨fun h => absurd h (List.cons_ne_nil _ _), .inl fun s _ => readGroupStart_append h s⟩
  · rw [readGroupStart_plain hskip hq] at h
    obtain ⟨rfl, rfl⟩ := Prod.mk.inj (Except.ok.inj h)
    refine .self fun s hs => readGroupStart_plain (skipSpace_append_self hskip hs) ?_
    cases t with
    | nil => rcases hs.head with rfl | ⟨u, rfl⟩ <;> simp
    | cons c r => exact hq

/-! ### Bodies -/

theorem Carried.dropLazy {α : Type} {read : List Char → Except PatternError α}
    {out : List Char → α} (h : Carried read (dropLazy text) out rest) :
    Carried (fun t => read (FormOntology.dropLazy t)) text out rest := by
  refine h.congr (fun ht => by rw [ht]; rfl) fun s hs => congrArg read ?_
  cases text with
  | nil => rcases hs.head with rfl | ⟨u, rfl⟩ <;> rfl
  | cons c r =>
    unfold FormOntology.dropLazy
    by_cases hc : (c :: r).head? = some '?'
    · rw [if_pos hc, if_pos (show (c :: r ++ s).head? = some '?' from hc)]
      rfl
    · rw [if_neg hc, if_neg (show ¬(c :: r ++ s).head? = some '?' from hc)]

/-- The atom that a character without a backslash stands for. -/
def plainAtom (f : PatternFlags) (c : Char) : Atom :=
  if c = '.' then .dot
  else if c = '^' then .look (f.anchor true)
  else if c = '$' then .look (f.anchor false)
  else .literal c false

/-- Reads an atom whose first character is `c`. -/
def readAtom (f : PatternFlags) (c : Char) (text : List Char) :
    Except PatternError (Atom × List Char) :=
  if c = '\\' then readEscape f text else .ok (plainAtom f c, text)

theorem carried_readAtom {c : Char} {a : Atom} (h : readAtom f c text = .ok (a, rest)) :
    Carried (readAtom f c) text (a, ·) rest := by
  unfold readAtom at h ⊢
  split at h
  · next hc =>
    simp only [if_pos hc]
    exact carried_readEscape h
  · next hc =>
    simp only [if_neg hc]
    cases h
    exact .self fun s _ => rfl

/-- What a body goes on with behind the body of a group, which a parenthesis must close. -/
def closeGroup (fuel : Nat) (b : OpenBody) : PatternPart × List (List Char) × List Char →
    Except PatternError (PatternPart × List (List Char) × List Char)
  | (body, names, ')' :: rest) =>
    readAlternatives fuel { b.push body.group with names := names } rest
  | _ => .error .unclosedGroup

theorem exists_of_closeGroup {fuel : Nat} {b : OpenBody} {body : PatternPart}
    {names : List (List Char)} {p : PatternPart × List (List Char) × List Char}
    (h : closeGroup fuel b (body, names, text) = .ok p) : ∃ r, text = ')' :: r := by
  unfold closeGroup at h
  split at h
  · next heq =>
    cases heq
    exact ⟨_, rfl⟩
  · cases h

/-- What a body goes on with behind the start of a group or a directive. -/
def readGroup (fuel : Nat) (b : OpenBody) : GroupStart → List Char →
    Except PatternError (PatternPart × List (List Char) × List Char)
  | .directive flags, rest =>
    readAlternatives fuel { b.push { pattern := .empty, isDirective := true } with flags := flags }
      rest
  | .group flags name, rest =>
    if name.any (b.names.contains ·) then .error .groupName
    else
      readAlternatives fuel { flags := flags, names := name.toList ++ b.names } rest
        >>= closeGroup fuel b

namespace readAlternatives

variable {b : OpenBody} {c : Char} {r : List Char} {fuel : Nat}

theorem skip (fuel : Nat) (b : OpenBody) (text : List Char) :
    readAlternatives (fuel + 1) b (skipSpace b.flags.verbose text)
      = readAlternatives (fuel + 1) b text := by
  simp only [readAlternatives, skipSpace_skipSpace]

theorem nil : readAlternatives (fuel + 1) b [] = .ok (b.close, b.names, []) := by
  rw [readAlternatives, skipSpace_nil]
  rfl

theorem close :
    readAlternatives (fuel + 1) b (')' :: r) = .ok (b.close, b.names, ')' :: r) := by
  have hskip : skipSpace b.flags.verbose (')' :: r) = ')' :: r := by
    cases b.flags.verbose <;> rfl
  rw [readAlternatives, hskip]
  rfl

theorem group : readAlternatives (fuel + 1) b ('(' :: r)
    = readGroupStart b.flags r >>= fun p => readGroup fuel b p.1 p.2 := by
  have hskip : skipSpace b.flags.verbose ('(' :: r) = '(' :: r := by
    cases b.flags.verbose <;> rfl
  rw [readAlternatives, hskip]
  simp only [if_neg (show '(' ≠ ')' by decide), if_true]
  congr 1
  funext p
  obtain ⟨g, rest⟩ := p
  cases g <;> rfl

theorem alternative : readAlternatives (fuel + 1) b ('|' :: r)
    = readAlternatives fuel { b with branches := .sequence b.items :: b.branches, items := [] }
      r := by
  have hskip : skipSpace b.flags.verbose ('|' :: r) = '|' :: r := by
    cases b.flags.verbose <;> rfl
  rw [readAlternatives, hskip]
  rfl

theorem bracket : readAlternatives (fuel + 1) b ('[' :: r)
    = openBracket b.flags r >>= fun p => readBracket b.flags fuel p.1 p.2 >>= fun q =>
      (Atom.set q.1).toPart b.flags >>= fun part =>
        readAlternatives fuel (b.push { part with depth := q.2.1 }) q.2.2 := by
  have hskip : skipSpace b.flags.verbose ('[' :: r) = '[' :: r := by
    cases b.flags.verbose <;> rfl
  rw [readAlternatives, hskip]
  rfl

theorem count : readAlternatives (fuel + 1) b ('\x7b' :: r)
    = if b.items.isEmpty then .error .nothingToRepeat
      else readCount b.flags.verbose r >>= fun n => repeatLast n.1 n.2.1 b.items >>= fun items =>
        readAlternatives fuel { b with items := items }
          (dropLazy (skipSpace b.flags.verbose n.2.2)) := by
  have hskip : skipSpace b.flags.verbose ('\x7b' :: r) = '\x7b' :: r := by
    cases b.flags.verbose <;> rfl
  rw [readAlternatives, hskip]
  rfl

theorem repetition {least : Nat} {most : Option Nat} (hc : repetition? c = some (least, most)) :
    readAlternatives (fuel + 1) b (c :: r)
      = repeatLast least most b.items >>= fun items =>
        readAlternatives fuel { b with items := items } (dropLazy r) := by
  have hc' : c = '?' ∨ c = '*' ∨ c = '+' := by
    unfold repetition? at hc
    split_ifs at hc <;> simp_all
  have hskip : skipSpace b.flags.verbose (c :: r) = c :: r := by
    rcases hc' with rfl | rfl | rfl <;> cases b.flags.verbose <;> rfl
  rw [readAlternatives, hskip]
  rcases hc' with rfl | rfl | rfl <;> cases hc <;> rfl

theorem atom (hskip : skipSpace b.flags.verbose (c :: r) = c :: r)
    (hc : c ∉ [')', '(', '|', '[', '\x7b']) (hr : repetition? c = none) :
    readAlternatives (fuel + 1) b (c :: r)
      = readAtom b.flags c r >>= fun p => p.1.toPart b.flags >>= fun part =>
        readAlternatives fuel (b.push part) p.2 := by
  simp only [List.mem_cons, List.not_mem_nil, or_false, not_or] at hc
  obtain ⟨h₁, h₂, h₃, h₄, h₅⟩ := hc
  rw [readAlternatives, hskip]
  simp only [if_neg h₁, if_neg h₂, if_neg h₃, if_neg h₄, if_neg h₅, hr, readAtom, plainAtom]
  split_ifs <;> rfl

end readAlternatives

/-- **A body is read as before, whatever stands behind it**, with as much fuel or more. -/
theorem carried_readAlternatives {fuel fuel' : Nat} {b : OpenBody} {part : PatternPart}
    {names : List (List Char)} (h : readAlternatives fuel b text = .ok (part, names, rest))
    (hf : fuel ≤ fuel') :
    Carried (readAlternatives fuel' b) text (part, names, ·) rest := by
  -- on the fuel, as every step of the reading spends one; the cases are the rows of the reader
  induction fuel generalizing fuel' b text part names rest with
  | zero => cases h
  | succ fuel ih =>
    obtain ⟨fuel', rfl⟩ : ∃ n, fuel' = n + 1 := ⟨fuel' - 1, by omega⟩
    have hf : fuel ≤ fuel' := by omega
    rw [← readAlternatives.skip] at h
    refine .of_skip (readAlternatives.skip fuel' b) ?_
    have hskip := skipSpace_skipSpace b.flags.verbose text
    generalize skipSpace b.flags.verbose text = t at h hskip
    cases t with
    | nil =>
      rw [readAlternatives.nil] at h
      cases h
      refine .self fun s hs => ?_
      rcases hs.head with rfl | ⟨u, rfl⟩
      · exact readAlternatives.nil
      · exact readAlternatives.close
    | cons c r =>
      by_cases hspecial : c ∈ [')', '(', '|', '[', '\x7b']
      · simp only [List.mem_cons, List.not_mem_nil, or_false] at hspecial
        rcases hspecial with rfl | rfl | rfl | rfl | rfl
        · rw [readAlternatives.close] at h
          cases h
          exact .self fun s _ => readAlternatives.close
        · rw [readAlternatives.group] at h
          obtain ⟨⟨g, r₁⟩, hg, h⟩ := bind_eq_ok.mp h
          refine Carried.cons ?_ fun t => readAlternatives.group
          refine (carried_readGroupStart hg).bind ?_
          cases g with
          | directive flags => exact ih h hf
          | group flags name =>
            simp only [readGroup] at h
            split at h
            · cases h
            next hname =>
            obtain ⟨⟨body, names', r₂⟩, hbody, h⟩ := bind_eq_ok.mp h
            -- the body of an inner group leaves its own parenthesis, so no comment is open there
            obtain ⟨u, rfl⟩ := exists_of_closeGroup h
            have hclose : Carried (fun t => closeGroup fuel' b (body, names', t))
              (')' :: u) (part, names, ·) rest := .cons (ih h hf) fun t => rfl
            refine ((ih hbody hf).bind hclose).congr id fun s _ => ?_
            simp only [readGroup, if_neg hname]
        · rw [readAlternatives.alternative] at h
          exact (ih h hf).cons fun t => readAlternatives.alternative
        · rw [readAlternatives.bracket] at h
          obtain ⟨⟨inner, r₁⟩, hinner, h⟩ := bind_eq_ok.mp h
          obtain ⟨⟨set, depth, r₂⟩, hbracket, h⟩ := bind_eq_ok.mp h
          obtain ⟨p, hp, h⟩ := bind_eq_ok.mp h
          refine (ih h hf).congr (fun h => absurd h (List.cons_ne_nil _ _)) fun s hs => ?_
          rw [List.cons_append, readAlternatives.bracket, openBracket_append hinner]
          change readBracket b.flags fuel' inner (r₁ ++ s) >>= _ = _
          rw [readBracket_append hbracket hf hs]
          change (Atom.set set).toPart b.flags >>= _ = _
          rw [hp]
          rfl
        · rw [readAlternatives.count] at h
          split at h
          · cases h
          next hitems =>
          obtain ⟨⟨least, most, r₁⟩, hcount, h⟩ := bind_eq_ok.mp h
          obtain ⟨items, hi, h⟩ := bind_eq_ok.mp h
          refine (ih h hf).dropLazy.skip.congr (fun h => absurd h (List.cons_ne_nil _ _))
            fun s _ => ?_
          rw [List.cons_append, readAlternatives.count, if_neg hitems, readCount_append hcount]
          change repeatLast least most b.items >>= _ = _
          rw [hi]
          rfl
      · cases hr : repetition? c with
        | some counts =>
          obtain ⟨least, most⟩ := counts
          rw [readAlternatives.repetition hr] at h
          obtain ⟨items, hi, h⟩ := bind_eq_ok.mp h
          refine (ih h hf).dropLazy.cons fun t => ?_
          rw [readAlternatives.repetition hr, hi]
          rfl
        | none =>
          rw [readAlternatives.atom hskip hspecial hr] at h
          obtain ⟨⟨a, r₁⟩, ha, h⟩ := bind_eq_ok.mp h
          obtain ⟨p, hp, h⟩ := bind_eq_ok.mp h
          have hrest : Carried (fun t => a.toPart b.flags >>= fun part =>
              readAlternatives fuel' (b.push part) t) r₁ (part, names, ·) rest :=
            (ih h hf).congr id fun s _ => by rw [hp]; rfl
          refine ((carried_readAtom ha).bind hrest).congr (fun h => absurd h (List.cons_ne_nil _ _))
            fun s hs => readAlternatives.atom (skipSpace_append_self hskip hs) hspecial hr

end FormOntology
