import Mathlib.Logic.Basic
import FormOntology.Command.Run
import FormOntology.Proofs.FileTree.Writing

/-!
# Strict commands and the file that is written

`compile --strict` and `check --deny-diagnostics` fail for the same reasons: the settings, the
documents, and diagnostics.  What `compile` writes to a file is what it prints without one, and the
file is written last, so a run that fails leaves the files as they are.

## Main definitions

* `Invocation.compilation` — the compile of an invocation.
* `Invocation.Blocked` — why an invocation gives nothing of its compile.

## Main results

* `code_check_eq_zero_iff`, `code_compile_eq_zero_iff` — the exit codes of the two commands.
* `files_of_failed_run` — a run that fails changes no file.
* `strictness_and_output` — **strict commands agree, and what is written is what is printed.**
-/

namespace FormOntology

/-! ### Ends -/

/-- What a compile leads to: a message if it is strict and has diagnostics, otherwise its schema is
printed or written. -/
theorem Compilation.write_cases (k : Compilation) (strict compact : Bool) :
    (strict = true ∧ k.diagnostics ≠ [])
        ∧ (∃ message, ∀ out, k.write out strict compact = .finish (.failure message ""))
      ∨ ¬(strict = true ∧ k.diagnostics ≠ [])
        ∧ k.write none strict compact
          = .finish { code := 0, output := k.schema.toJson.line compact }
        ∧ ∀ path, ∃ done, k.write (some path) strict compact
          = .write path (k.schema.toJson.line compact) { code := 0, message := some done }
            (.failure ("failed to write " ++ path) "") := by
  have hcondition : (strict && decide (0 < k.diagnostics.length)) = true
      ↔ strict = true ∧ k.diagnostics ≠ [] := by
    rw [Bool.and_eq_true, decide_eq_true_iff, List.length_pos_iff]
  by_cases h : (strict && decide (0 < k.diagnostics.length)) = true
  · refine .inl ⟨hcondition.mp h, ?_⟩
    simp only [write, if_pos h]
    exact ⟨_, fun _ => rfl⟩
  · refine .inr ⟨hcondition.not.mp h, ?_⟩
    simp only [write, if_neg h]
    exact ⟨trivial, fun path => ⟨_, rfl⟩⟩

/-- How a check ends: with an error if it lets no diagnostic pass and there are some. -/
theorem Compilation.code_tell_eq_zero_iff (k : Compilation) (deny json : Bool) :
    (k.tell deny json).code = 0 ↔ ¬(deny = true ∧ k.diagnostics ≠ []) := by
  simp only [tell]
  split
  · next h =>
    rw [Bool.and_eq_true, decide_eq_true_iff, List.length_pos_iff] at h
    exact iff_of_false Nat.one_ne_zero (not_not_intro h)
  · next h =>
    rw [Bool.and_eq_true, decide_eq_true_iff, List.length_pos_iff] at h
    exact iff_of_true rfl h

/-- The file of an action is written, or all is as it was. -/
theorem Action.run_write_cases (t : FileTree) (path text : String) (written failed : Exit) :
    (∃ u, t.write? path text.toUTF8 = some u
        ∧ (write path text written failed).run t = (written, u))
      ∨ t.write? path text.toUTF8 = none
        ∧ (write path text written failed).run t = (failed, t) := by
  rw [run]
  cases t.write? path text.toUTF8 with
  | none => exact .inr ⟨rfl, rfl⟩
  | some u => exact .inl ⟨u, rfl, rfl⟩

section Library

variable [PatternLibrary]

/-! ### Compiles -/

namespace Invocation

/-- Why an invocation gives nothing of its compile. -/
inductive Blocked (read : FileReader) (config : Option String) (overrides : Overrides)
    (strict : Bool) : Prop where
  /-- There are no settings in effect. -/
  | settings {fault : ResolveFault} (h : Settings.resolve read config overrides = .error fault)
  /-- The documents cannot be compiled. -/
  | documents {s : Settings} {message : String}
    (h : Settings.resolve read config overrides = .ok s) (hs : s.compile read = .error message)
  /-- There are diagnostics, and none is let pass. -/
  | diagnostics {s : Settings} {k : Compilation}
    (h : Settings.resolve read config overrides = .ok s) (hs : s.compile read = .ok k)
    (hstrict : strict = true) (hne : k.diagnostics ≠ [])

/-- The compile of an invocation, or the message of why there is none. -/
def compilation (read : FileReader) (config : Option String) (overrides : Overrides) :
    Except String Compilation :=
  match Settings.resolve read config overrides with
  | .error fault => .error fault.message
  | .ok s => s.compile read

section Compile

variable {read : FileReader} {config : Option String} {overrides : Overrides} {strict : Bool}
  {k : Compilation}

theorem compilation_eq_ok_iff : compilation read config overrides = .ok k
    ↔ ∃ s, Settings.resolve read config overrides = .ok s ∧ s.compile read = .ok k := by
  rw [compilation]
  cases Settings.resolve read config overrides <;> simp

theorem blocked_of_error {message : String} (h : compilation read config overrides = .error message)
    (strict : Bool) : Blocked read config overrides strict := by
  rw [compilation] at h
  split at h
  · next fault hfault => exact .settings hfault
  · next s hs => exact .documents hs h

theorem blocked_iff_of_ok (h : compilation read config overrides = .ok k) :
    Blocked read config overrides strict ↔ strict = true ∧ k.diagnostics ≠ [] := by
  obtain ⟨s, hs, hk⟩ := compilation_eq_ok_iff.mp h
  constructor
  · rintro (hfault | ⟨hs', hmessage⟩ | ⟨hs', hk', hstrict, hne⟩)
    · rw [hs] at hfault
      cases hfault
    · obtain rfl := Except.ok.inj (hs.symm.trans hs')
      rw [hk] at hmessage
      cases hmessage
    · obtain rfl := Except.ok.inj (hs.symm.trans hs')
      obtain rfl := Except.ok.inj (hk.symm.trans hk')
      exact ⟨hstrict, hne⟩
  · exact fun ⟨hstrict, hne⟩ => .diagnostics hs hk hstrict hne

/-- Nothing blocks a strict invocation exactly if the compile succeeds without a diagnostic. -/
theorem not_blocked_true_iff : ¬Blocked read config overrides true
    ↔ ∃ s k, Settings.resolve read config overrides = .ok s ∧ s.compile read = .ok k
      ∧ k.diagnostics = [] := by
  cases h : compilation read config overrides with
  | error message =>
    refine iff_of_false (not_not_intro (blocked_of_error h true)) ?_
    rintro ⟨s, k, hs, hk, -⟩
    rw [compilation_eq_ok_iff.mpr ⟨s, hs, hk⟩] at h
    cases h
  | ok k =>
    obtain ⟨s, hs, hk⟩ := compilation_eq_ok_iff.mp h
    rw [blocked_iff_of_ok h]
    constructor
    · intro hnot
      exact ⟨s, k, hs, hk, by simpa using hnot⟩
    · rintro ⟨s', k', hs', hk', hnil⟩ ⟨-, hne⟩
      obtain rfl := Except.ok.inj (hs.symm.trans hs')
      obtain rfl := Except.ok.inj (hk.symm.trans hk')
      exact hne hnil

end Compile

end Invocation

/-! ### Runs -/

variable {environment : Option String} {arguments : List String}
  {stdin : Except TextFault String} {t : FileTree} {config : Option String}
  {overrides : Overrides}

/-- The run of a command that makes an action of its compile alone. -/
theorem runArguments_of_perform {command : Command} {f : Compilation → Action}
    (h : Invocation.parse? environment arguments = some ⟨config, overrides, command⟩)
    (hf : ∀ s : Settings, Invocation.perform t.read stdin s command = (s.compile t.read).map f) :
    runArguments environment arguments stdin t
      = match Invocation.compilation t.read config overrides with
        | .error message => (.failure message "", t)
        | .ok k => (f k).run t := by
  rw [runArguments, h, Invocation.compilation]
  simp only [Invocation.act, hf]
  cases Settings.resolve t.read config overrides with
  | error fault => rfl
  | ok s =>
    dsimp only
    cases s.compile t.read <;> rfl

/-- The run of a compile. -/
theorem runArguments_compile {out : Option String} {strict compact : Bool}
    (h : Invocation.parse? environment arguments
      = some ⟨config, overrides, .compile out strict compact⟩) :
    runArguments environment arguments stdin t
      = match Invocation.compilation t.read config overrides with
        | .error message => (.failure message "", t)
        | .ok k => (k.write out strict compact).run t := by
  refine runArguments_of_perform h fun s => ?_
  rw [Invocation.perform]
  cases s.compile t.read <;> rfl

/-- The run of a check. -/
theorem runArguments_check {deny json : Bool}
    (h : Invocation.parse? environment arguments = some ⟨config, overrides, .check deny json⟩) :
    runArguments environment arguments stdin t
      = match Invocation.compilation t.read config overrides with
        | .error message => (.failure message "", t)
        | .ok k => (Action.finish (k.tell deny json)).run t := by
  refine runArguments_of_perform h fun s => ?_
  rw [Invocation.perform]
  cases s.compile t.read <;> rfl

/-- **What a compile can come to.**  Either it is blocked and ends with a message, or there is a
text that it prints or writes. -/
theorem runArguments_compile_cases (t : FileTree) (config : Option String) (overrides : Overrides)
    (strict compact : Bool) :
    (Invocation.Blocked t.read config overrides strict ∧ ∃ message,
        ∀ {environment arguments out}, Invocation.parse? environment arguments
          = some ⟨config, overrides, .compile out strict compact⟩ →
        ∀ stdin, runArguments environment arguments stdin t = (.failure message "", t))
      ∨ (¬Invocation.Blocked t.read config overrides strict ∧ ∃ text,
        (∀ {environment arguments}, Invocation.parse? environment arguments
            = some ⟨config, overrides, .compile none strict compact⟩ →
          ∀ stdin, runArguments environment arguments stdin t = ({ code := 0, output := text }, t))
        ∧ ∀ {environment arguments path}, Invocation.parse? environment arguments
            = some ⟨config, overrides, .compile (some path) strict compact⟩ →
          ∀ stdin, (∃ u done, t.write? path text.toUTF8 = some u
              ∧ runArguments environment arguments stdin t
                = ({ code := 0, message := some done }, u))
            ∨ (t.write? path text.toUTF8 = none
              ∧ runArguments environment arguments stdin t
                = (.failure ("failed to write " ++ path) "", t))) := by
  cases hk : Invocation.compilation t.read config overrides with
  | error message =>
    refine .inl ⟨Invocation.blocked_of_error hk strict, message, fun h stdin => ?_⟩
    rw [runArguments_compile h, hk]
  | ok k =>
    have hrun : ∀ {environment arguments out}, Invocation.parse? environment arguments
        = some ⟨config, overrides, .compile out strict compact⟩ → ∀ stdin,
        runArguments environment arguments stdin t = (k.write out strict compact).run t :=
      fun h stdin => by rw [runArguments_compile h, hk]
    rw [Invocation.blocked_iff_of_ok hk]
    rcases k.write_cases strict compact with
      ⟨hblocked, message, hwrite⟩ | ⟨hblocked, hprint, hwrite⟩
    · refine .inl ⟨hblocked, message, fun h stdin => ?_⟩
      rw [hrun h, hwrite, Action.run]
    · refine .inr ⟨hblocked, k.schema.toJson.line compact, fun h stdin => ?_,
        fun {_ _ path} h stdin => ?_⟩
      · rw [hrun h, hprint, Action.run]
      · obtain ⟨done, hdone⟩ := hwrite path
        rw [hrun h, hdone]
        rcases Action.run_write_cases t path _ _ _ with ⟨u, hu, hrun⟩ | hfailed
        · exact .inl ⟨u, done, hu, hrun⟩
        · exact .inr hfailed

/-- The run of a validation changes no file. -/
theorem files_runArguments_validate {input : String} {place : Option FormSection}
    (h : Invocation.parse? environment arguments
      = some ⟨config, overrides, .validate input place⟩) :
    (runArguments environment arguments stdin t).2 = t := by
  rw [runArguments, h]
  simp only [Invocation.act, Invocation.perform]
  cases Settings.resolve t.read config overrides with
  | error fault => rfl
  | ok s =>
    dsimp only
    cases Invocation.submission t.read stdin input place with
    | error message => rfl
    | ok sub => cases s.compile t.read <;> rfl

/-- **A run that fails changes no file.** -/
theorem files_of_failed_run (h : (runArguments environment arguments stdin t).1.code ≠ 0) :
    (runArguments environment arguments stdin t).2 = t := by
  cases hparse : Invocation.parse? environment arguments with
  | none => rw [runArguments, hparse]
  | some i =>
    obtain ⟨config, overrides, command⟩ := i
    cases command with
    | validate input place => exact files_runArguments_validate hparse
    | check deny json =>
      rw [runArguments_check hparse]
      split <;> rfl
    | compile out strict compact =>
      rcases runArguments_compile_cases t config overrides strict compact with
        ⟨-, message, hrun⟩ | ⟨-, text, hprint, hwrite⟩
      · rw [hrun hparse]
      · cases out with
        | none => rw [hprint hparse]
        | some path =>
          rcases hwrite hparse stdin with ⟨u, done, -, hrun⟩ | ⟨-, hrun⟩
          · rw [hrun] at h
            exact absurd rfl h
          · rw [hrun]

/-! ### Strict commands -/

/-- A check succeeds exactly if nothing blocks it. -/
theorem code_check_eq_zero_iff {deny json : Bool}
    (h : Invocation.parse? environment arguments = some ⟨config, overrides, .check deny json⟩) :
    (runArguments environment arguments stdin t).1.code = 0
      ↔ ¬Invocation.Blocked t.read config overrides deny := by
  rw [runArguments_check h]
  cases hk : Invocation.compilation t.read config overrides with
  | error message =>
    exact iff_of_false Nat.one_ne_zero (not_not_intro (Invocation.blocked_of_error hk deny))
  | ok k =>
    rw [Invocation.blocked_iff_of_ok hk]
    exact k.code_tell_eq_zero_iff deny json

/-- A compile that is printed succeeds exactly if nothing blocks it. -/
theorem code_compile_eq_zero_iff {strict compact : Bool}
    (h : Invocation.parse? environment arguments
      = some ⟨config, overrides, .compile none strict compact⟩) :
    (runArguments environment arguments stdin t).1.code = 0
      ↔ ¬Invocation.Blocked t.read config overrides strict := by
  rcases runArguments_compile_cases t config overrides strict compact with
    ⟨hblocked, message, hrun⟩ | ⟨hblocked, text, hprint, -⟩
  · rw [hrun h]
    exact iff_of_false Nat.one_ne_zero (not_not_intro hblocked)
  · rw [hprint h]
    exact iff_of_true rfl hblocked

/-- **Strict commands agree, and what is written is what is printed.**  For every file tree and
settings, `compile --strict` without a file and `check --deny-diagnostics` succeed exactly if the
compile succeeds without a diagnostic.  With any flags, a compile that is to be written fails, and
changes no file, if the settings, the documents or a strict flag block it; otherwise it fails only
if its path cannot be written, and if it succeeds, then so does the compile with the same flags
that is printed, and the file has exactly what that one prints. -/
theorem strictness_and_output (t : FileTree) (config : Option String) (overrides : Overrides)
    (environment : Option String) :
    (∀ strictly denying compact json stdin stdin',
        Invocation.parse? environment strictly
          = some ⟨config, overrides, .compile none true compact⟩ →
        Invocation.parse? environment denying = some ⟨config, overrides, .check true json⟩ →
        ((runArguments environment strictly stdin t).1.code = 0
            ↔ (runArguments environment denying stdin' t).1.code = 0)
          ∧ ((runArguments environment denying stdin' t).1.code = 0
            ↔ ∃ s k, Settings.resolve t.read config overrides = .ok s
              ∧ s.compile t.read = .ok k ∧ k.diagnostics = []))
      ∧ ∀ writing printing path strict compact stdin stdin',
        Invocation.parse? environment writing
          = some ⟨config, overrides, .compile (some path) strict compact⟩ →
        Invocation.parse? environment printing
          = some ⟨config, overrides, .compile none strict compact⟩ →
        let written := runArguments environment writing stdin t
        let printed := runArguments environment printing stdin' t
        (written.1.code ≠ 0 → written.2 = t)
          ∧ (Invocation.Blocked t.read config overrides strict → written.1.code ≠ 0)
          ∧ (¬Invocation.Blocked t.read config overrides strict →
            (written.1.code = 0 ↔ (t.write? path printed.1.output.toUTF8).isSome = true))
          ∧ (written.1.code = 0 →
            printed.1.code = 0 ∧ written.2.read path = .ok printed.1.output.toUTF8) := by
  constructor
  · intro strictly denying compact json stdin stdin' hstrict hdeny
    rw [code_compile_eq_zero_iff hstrict, code_check_eq_zero_iff hdeny,
      Invocation.not_blocked_true_iff]
    exact ⟨.rfl, .rfl⟩
  · intro writing printing path strict compact stdin stdin' hw hp written printed
    refine ⟨files_of_failed_run, ?_⟩
    rcases runArguments_compile_cases t config overrides strict compact with
      ⟨hblocked, message, hrun⟩ | ⟨hblocked, text, hprint, hwrite⟩
    · have hwritten : written = (.failure message "", t) := hrun hw stdin
      rw [hwritten]
      exact ⟨fun _ => Nat.one_ne_zero, fun hnot => absurd hblocked hnot,
        fun hcode => absurd hcode Nat.one_ne_zero⟩
    · have hprinted : printed = ({ code := 0, output := text }, t) := hprint hp stdin'
      rw [hprinted]
      rcases hwrite hw stdin with ⟨u, done, hu, hrun⟩ | ⟨hnone, hrun⟩
      · have hwritten : written = ({ code := 0, message := some done }, u) := hrun
        rw [hwritten, hu]
        exact ⟨fun h => absurd h hblocked, fun _ => iff_of_true rfl rfl,
          fun _ => ⟨rfl, FileTree.read_of_write? hu⟩⟩
      · have hwritten : written = (.failure ("failed to write " ++ path) "", t) := hrun
        rw [hwritten, hnone]
        exact ⟨fun h => absurd h hblocked,
          fun _ => iff_of_false Nat.one_ne_zero Bool.false_ne_true,
          fun hcode => absurd hcode Nat.one_ne_zero⟩

end Library

/-- A document whose property has no class. -/
def orphanFiles : FileTree :=
  FileTree.empty.put "a.ttl" "ex:orphan a owl:DatatypeProperty ; rdfs:label \"Orphan\" .".toUTF8

/-- Arguments of a command for this document. -/
def orphanArguments (word : String) (flags : List String) : List String :=
  "--ontology-dir" :: "." :: word :: "--document" :: "a.ttl" :: flags

/-- Both strict commands refuse the document; without the flag the schema takes its place. -/
theorem orphan_overwritten :
    (runArguments none (orphanArguments "compile" ["--strict"]) (.ok "") orphanFiles).1.code ≠ 0
      ∧ (runArguments none (orphanArguments "check" ["--deny-diagnostics"]) (.ok "")
        orphanFiles).1.code ≠ 0
      ∧ (runArguments none (orphanArguments "compile" ["-oa.ttl", "--compact"]) (.ok "")
          orphanFiles).2.read "a.ttl"
        = .ok (runArguments none (orphanArguments "compile" ["--compact"]) (.ok "")
          orphanFiles).1.output.toUTF8 := by
  obtain ⟨hstrict, hwritten⟩ :=
    strictness_and_output orphanFiles none ⟨some ".", ["a.ttl"], []⟩ none
  have hagree := (hstrict (orphanArguments "compile" ["--strict"])
    (orphanArguments "check" ["--deny-diagnostics"]) false false (.ok "") (.ok "")
    (by decide +kernel) (by decide +kernel)).1
  have hcode : (runArguments none (orphanArguments "compile" ["--strict"]) (.ok "")
      orphanFiles).1.code ≠ 0 := by decide +kernel
  obtain ⟨-, -, -, hread⟩ := hwritten (orphanArguments "compile" ["-oa.ttl", "--compact"])
    (orphanArguments "compile" ["--compact"]) "a.ttl" false true (.ok "") (.ok "")
    (by decide +kernel) (by decide +kernel)
  exact ⟨hcode, fun h => hcode (hagree.mpr h), (hread (by decide +kernel)).2⟩

end FormOntology
