import FormOntology.Command.Run
import FormOntology.Proofs.Server.History
import FormOntology.Proofs.Submission.Wrapping

/-!
# Two ways to check a submission

A submission is checked by a command or by a server.  Both come to the same report, which the
command tells by its exit code and what it prints, the server by the status and the body of its
answer.  The command takes the fields alone as well, if it is told their section.

## Main definitions

* `Schema.report?` — the report on a text, if it is a submission.
* `Invocation.Validates` — whether arguments ask for the check of a text.

## Main results

* `exit_of_validates` — how the command tells the report.
* `Publisher.respond_validate` — how the server does.
* `command_agrees_with_server` — **the command and the server judge a submission alike, and the
  command judges fields alone as it does with their section.**
-/

namespace FormOntology

section Library

variable [PatternLibrary]

/-- The report on a text, if it is a submission. -/
def Schema.report? (s : Schema) (text : String) : Option Report :=
  (Submission.parse? text).map s.check

/-! ### The server -/

omit [PatternLibrary] in
theorem decodeText_toUTF8 (text : String) : decodeText text.toUTF8 = .ok text := by
  rw [decodeText, Text.fromUTF8?_eq_some_iff.mpr rfl]

/-- The server tells the report, or that there is no submission. -/
theorem Publisher.respond_validate (p : Publisher) (o : Occasion) {r : Request}
    (hr : r.asks .validate = true) {text : String} (hbody : r.body = text.toUTF8) :
    (p.respond o r).2 = match p.current.compilation.schema.report? text with
      | none => .failure 400 "invalid submission"
      | some report => ⟨if report.valid then 200 else 422, .json report.toJson⟩ := by
  have hsub : Submission.ofBody? o.foreign? r.body = Submission.parse? text := by
    rw [Submission.ofBody?, hbody, decodeText_toUTF8]
  rw [respond_of_asks hr, follow, hsub, Schema.report?]
  cases Submission.parse? text <;> rfl

/-! ### The command -/

/-- Whether arguments ask, with these settings, for the check of a text, which has the fields of
a section alone if that is named. -/
def Invocation.Validates (environment : Option String) (arguments : List String)
    (stdin : Except TextFault String) (t : FileTree) (settings : Settings)
    (place : Option FormSection) (text : String) : Prop :=
  ∃ i input, Invocation.parse? environment arguments = some i
    ∧ i.command = .validate input place
    ∧ Invocation.inputText t.read stdin input = .ok text
    ∧ Settings.resolve t.read i.config i.overrides = .ok settings

section Run

variable {environment : Option String} {arguments : List String}
  {stdin : Except TextFault String} {t : FileTree} {settings : Settings}
  {place : Option FormSection} {text : String}

/-- How a run of the command ends that reads a submission. -/
theorem run_of_validates
    (h : Invocation.Validates environment arguments stdin t settings place text) (sub : Submission)
    (hsub : (match place with
      | none => Submission.parse? text
      | some place => Submission.parseFields? place text) = some sub) :
    (runArguments environment arguments stdin t).1 = match settings.compile t.read with
      | .error message => .failure message ""
      | .ok k => k.judge sub := by
  obtain ⟨i, input, hparse, hcommand, htext, hsettings⟩ := h
  have hsubmission : Invocation.submission t.read stdin input place = .ok sub := by
    rw [Invocation.submission, htext]
    cases place with
    | none => simp only [hsub]
    | some place => simp only [hsub]
  rw [runArguments, hparse]
  simp only [Invocation.act, hsettings, hcommand, Invocation.perform, hsubmission]
  cases settings.compile t.read with
  | error message => rfl
  | ok k => rfl

/-- How a run of the command ends that finds no submission. -/
theorem run_of_validates_of_parse?_eq_none
    (h : Invocation.Validates environment arguments stdin t settings none text)
    (hsub : Submission.parse? text = none) :
    (runArguments environment arguments stdin t).1 = .failure
      "submission must be \x7b\"section\": ..., \"fields\": \x7b...\x7d\x7d" "" := by
  obtain ⟨i, input, hparse, hcommand, htext, hsettings⟩ := h
  have hsubmission : Invocation.submission t.read stdin input none
      = .error "submission must be \x7b\"section\": ..., \"fields\": \x7b...\x7d\x7d" := by
    rw [Invocation.submission, htext]
    simp only [hsub]
  rw [runArguments, hparse]
  simp only [Invocation.act, hsettings, hcommand, Invocation.perform, hsubmission]
  rfl

/-- The command tells the report, or that there is no submission. -/
theorem exit_of_validates
    (h : Invocation.Validates environment arguments stdin t settings none text) {k : Compilation}
    (hk : settings.compile t.read = .ok k) :
    match k.schema.report? text with
      | none => (runArguments environment arguments stdin t).1.code ≠ 0
        ∧ (runArguments environment arguments stdin t).1.output = ""
      | some report => ((runArguments environment arguments stdin t).1.code = 0
          ↔ report.valid = true)
        ∧ (runArguments environment arguments stdin t).1.output = report.toJson.line false := by
  rw [Schema.report?]
  cases hsub : Submission.parse? text with
  | none =>
    simp [run_of_validates_of_parse?_eq_none h hsub, Exit.failure]
  | some sub =>
    have hrun := run_of_validates h sub hsub
    rw [hk] at hrun
    simp only [hrun, Option.map_some, Compilation.judge]
    cases (k.schema.check sub).valid <;> simp [Exit.failure]

end Run

/-! ### Both -/

omit [PatternLibrary] in
theorem line_ne_empty (j : Json) (compact : Bool) : j.line compact ≠ "" := by
  intro h
  have hlist := congrArg String.toList h
  rw [Json.line, String.toList_ofList] at hlist
  exact absurd hlist (by simp)

/-- A compile by the settings that the command has is the first one of a server with them. -/
theorem exists_startServer_of_compile {settings : Settings} {read : FileReader} {k : Compilation}
    (h : settings.compile read = .ok k) (now : String) :
    ∃ p, startServer settings.compiler read now = .ok p ∧ p.current.compilation = k := by
  rw [Settings.compile] at h
  split at h
  · cases h
  · next c hc =>
    split at h
    · cases h
    · next k' hk =>
      cases h
      exact ⟨_, startServer_eq_ok_iff.mpr ⟨c, k, hc, hk, rfl⟩, rfl⟩

/-- **The command and the server judge a submission alike, and the command judges fields alone as
it does with their section.**  The command prints the report that a server with the same settings
and files answers with; its exit code is zero exactly if the status is 200, and otherwise there is
a report exactly if the status is 422 and none exactly if it is 400.  If an object of a section and
of fields is a submission then a run for the fields alone, with that section named, ends as a run
for the object does; the object may be the one that the text of the fields is put into. -/
theorem command_agrees_with_server (environment : Option String) (stdin : Except TextFault String)
    (t : FileTree) (settings : Settings) (arguments : List String) :
    (∀ text k, Invocation.Validates environment arguments stdin t settings none text →
      settings.compile t.read = .ok k → ∀ now,
        ∃ p, startServer settings.compiler t.read now = .ok p
          ∧ ∀ (o : Occasion) (r : Request), r.asks .validate = true → r.body = text.toUTF8 →
            let exit := (runArguments environment arguments stdin t).1
            let answer := (p.respond o r).2
            (exit.code = 0 ↔ answer.status = 200)
              ∧ (exit.code ≠ 0 ∧ exit.output ≠ "" ↔ answer.status = 422)
              ∧ (exit.code ≠ 0 ∧ exit.output = "" ↔ answer.status = 400)
              ∧ (exit.output ≠ "" → ∃ report : Report,
                exit.output = report.toJson.line false ∧ answer.body = .json report.toJson))
      ∧ (∀ arguments' stdin' place fields text,
        Invocation.Validates environment arguments stdin t settings (some place) fields →
        Invocation.Validates environment arguments' stdin' t settings none text →
        Submission.Wraps place fields text → (Submission.parse? text).isSome = true →
          (runArguments environment arguments stdin t).1
            = (runArguments environment arguments' stdin' t).1)
      ∧ ∀ place fields members, JsonTree.parse? fields.toList = some (.object members) →
        Submission.Wraps place fields (Submission.wrapped place fields) := by
  refine ⟨fun text k h hk now => ?_,
    fun arguments' stdin' place fields text h h' hwraps hsome => ?_,
    fun place fields members h => Submission.wraps_wrapped place h⟩
  · obtain ⟨p, hp, hcurrent⟩ := exists_startServer_of_compile hk now
    refine ⟨p, hp, fun o r hr hbody => ?_⟩
    have hexit := exit_of_validates h hk
    have hanswer := p.respond_validate o hr hbody
    rw [hcurrent] at hanswer
    intro exit answer
    cases hreport : k.schema.report? text with
    | none =>
      rw [hreport] at hexit hanswer
      obtain ⟨hcode, houtput⟩ := hexit
      have hstatus : answer.status = 400 := congrArg Response.status hanswer
      simp [exit, hcode, houtput, hstatus]
    | some report =>
      rw [hreport] at hexit hanswer
      obtain ⟨hcode, houtput⟩ := hexit
      have hstatus : answer.status = if report.valid then 200 else 422 :=
        congrArg Response.status hanswer
      have hbody : answer.body = .json report.toJson := congrArg Response.body hanswer
      have hne : exit.output ≠ "" := houtput ▸ line_ne_empty _ _
      refine ⟨?_, ?_, ?_, fun _ => ⟨report, houtput, hbody⟩⟩
      all_goals cases hvalid : report.valid <;> simp [exit, hcode, hne, hstatus, hvalid]
  · obtain ⟨sub, hsub⟩ := Option.isSome_iff_exists.mp hsome
    rw [run_of_validates h sub (Submission.parseFields?_of_wraps hwraps hsub),
      run_of_validates h' sub hsub]

end Library

/-- The fields of a submission that answers the question of the document. -/
def answeredFields : String := "\x7b\"name\":\"Ann\"\x7d"

/-- A document, a submission that answers its question, one that does not, a text that is none, and
the fields of the first. -/
def submissionFiles : FileTree :=
  [("a.ttl", Server.nameDocument), ("s.json", (Submission.wrapped .drivers answeredFields).toUTF8),
    ("u.json", (Submission.wrapped .drivers "\x7b\x7d").toUTF8), ("n.json", "".toUTF8),
    ("f.json", answeredFields.toUTF8)].foldl (fun t f => t.put f.1 f.2) .empty

/-- The settings that the next arguments lead to. -/
def submissionSettings : Settings := { compiler := { root := ".", documents := ["a.ttl"] } }

/-- Arguments that ask for the check of a file. -/
def checkArguments (file : List String) : List String :=
  "validate" :: file ++ ["--ontology-dir", ".", "--document", "a.ttl"]

/-- They do so if they are read that way and the file has a text. -/
theorem validates_checkArguments (file : List String) (input : String) (place : Option FormSection)
    (text : String)
    (hparse : Invocation.parse? none (checkArguments file)
      = some ⟨none, ⟨some ".", ["a.ttl"], []⟩, .validate input place⟩)
    (htext : Invocation.inputText submissionFiles.read (.ok "") input = .ok text) :
    Invocation.Validates none (checkArguments file) (.ok "") submissionFiles submissionSettings
      place text := by
  have hsettings : Settings.resolve submissionFiles.read none ⟨some ".", ["a.ttl"], []⟩
      = .ok submissionSettings := by decide +kernel
  exact ⟨_, input, hparse, rfl, htext, hsettings⟩

/-- How the check of a file ends. -/
def checkExit (file : List String) : Exit :=
  (runArguments none (checkArguments file) (.ok "") submissionFiles).1

/-- A request for the check of a text. -/
def checkRequest (text : String) : Request := ⟨"POST", "/api/validate", text.toUTF8⟩

theorem asks_checkRequest (text : String) : (checkRequest text).asks .validate = true := by
  simp only [Request.asks, Request.path, checkRequest]
  decide

/-- What such a request meets with. -/
def checkOccasion : Occasion := ⟨submissionFiles.read, "one", none, fun _ => none⟩

/-- An answered question, one without an answer and a text that is no submission: the command and
the server agree, and so does the command with the section named. -/
theorem nameSubmissions_agree :
    (∃ p, startServer submissionSettings.compiler submissionFiles.read "noon" = .ok p
        ∧ (p.respond checkOccasion
          (checkRequest (Submission.wrapped .drivers answeredFields))).2.status = 200
        ∧ (p.respond checkOccasion
          (checkRequest (Submission.wrapped .drivers "\x7b\x7d"))).2.status = 422
        ∧ (p.respond checkOccasion (checkRequest "")).2.status = 400)
      ∧ checkExit ["f.json", "--section", "drivers"] = checkExit ["s.json"] := by
  have hanswered := validates_checkArguments ["s.json"] "s.json" none
    (Submission.wrapped .drivers answeredFields) (by decide +kernel) (by decide +kernel)
  have hunanswered := validates_checkArguments ["u.json"] "u.json" none
    (Submission.wrapped .drivers "\x7b\x7d") (by decide +kernel) (by decide +kernel)
  have hnothing := validates_checkArguments ["n.json"] "n.json" none "" (by decide +kernel)
    (by decide +kernel)
  have hfields := validates_checkArguments ["f.json", "--section", "drivers"] "f.json"
    (some .drivers) answeredFields (by decide +kernel) (by decide +kernel)
  obtain ⟨k, hk⟩ : ∃ k, submissionSettings.compile submissionFiles.read = .ok k :=
    ⟨match submissionSettings.compile submissionFiles.read with | .ok k => k | .error _ => default,
      by decide +kernel⟩
  have hcodes : (checkExit ["s.json"]).code = 0
      ∧ ((checkExit ["u.json"]).code ≠ 0 ∧ (checkExit ["u.json"]).output ≠ "")
      ∧ (checkExit ["n.json"]).code ≠ 0 ∧ (checkExit ["n.json"]).output = "" := by decide +kernel
  have hagree := fun file => command_agrees_with_server none (.ok "") submissionFiles
    submissionSettings (checkArguments file)
  obtain ⟨p, hp, h200⟩ := (hagree _).1 _ k hanswered hk "noon"
  obtain ⟨p', hp', h422⟩ := (hagree _).1 _ k hunanswered hk "noon"
  obtain ⟨p'', hp'', h400⟩ := (hagree _).1 _ k hnothing hk "noon"
  obtain rfl := Except.ok.inj (hp.symm.trans hp')
  obtain rfl := Except.ok.inj (hp.symm.trans hp'')
  obtain ⟨-, hsection, hwraps⟩ := hagree ["f.json", "--section", "drivers"]
  refine ⟨⟨p, hp, (h200 checkOccasion _ (asks_checkRequest _) rfl).1.mp hcodes.1,
    (h422 checkOccasion _ (asks_checkRequest _) rfl).2.1.mp hcodes.2.1,
    (h400 checkOccasion _ (asks_checkRequest _) rfl).2.2.1.mp hcodes.2.2⟩, ?_⟩
  have hobject : (JsonTree.parse? answeredFields.toList).any
      (fun t => (t.objectMembers? 1).isSome) = true := by decide +kernel
  obtain ⟨fields, hparse, hmembers⟩ := (Option.any_eq_true ..).mp hobject
  cases fields with
  | object members =>
    exact hsection _ _ _ _ _ hfields hanswered (hwraps _ _ members hparse) (by decide +kernel)
  | _ => cases hmembers

end FormOntology
