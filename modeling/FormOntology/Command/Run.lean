import FormOntology.Command.Basic
import FormOntology.Pattern.Reader
import FormOntology.Submission.Check

/-!
# Running a command

What a command does is a function of its arguments, the files and the input.  The settings come
first, then the submission if there is one, then the compile.  A command that writes a file does
so last, so one that fails before that leaves the file as it was.  Where no other library of
patterns is given, a run has the reader of `FormOntology.Pattern.Reader`.

## Main definitions

* `Exit` — how a run ends.
* `Action` — what a command leads to: an end, or a file to write and then an end.
* `Invocation.act` — what an invocation leads to.
* `Action.run`, `runArguments` — a run over a file tree.
-/

namespace FormOntology

/-- How a run ends. -/
structure Exit where
  /-- The exit code. -/
  code : Nat
  /-- What is printed. -/
  output : String := ""
  /-- The last message, if there is one. -/
  message : Option String := none
  deriving DecidableEq, Repr, Inhabited

namespace Exit

/-- The end of a run whose arguments are no invocation. -/
def usage : Exit := { code := 2 }

/-- The end of a run that fails. -/
def failure (message : String) (output : String) : Exit :=
  { code := 1, output := output, message := some ("Error: " ++ message) }

end Exit

/-- What a command leads to. -/
inductive Action where
  /-- The end. -/
  | finish (e : Exit)
  /-- A text is written to a file; one of two ends follows. -/
  | write (path text : String) (written failed : Exit)
  deriving Repr, Inhabited

/-! ### The commands -/

/-- A JSON value on one line or several, as it is printed. -/
def Json.line (compact : Bool) (j : Json) : String :=
  String.ofList ((if compact then j.compact else j.pretty) ++ ['\n'])

namespace Compilation

/-- What `compile` leads to: the program's `cmd_compile`. -/
def write (c : Compilation) (out : Option String) (strict compact : Bool) : Action :=
  let count := c.diagnostics.length
  if strict && 0 < count then
    .finish <| .failure
      ("compile produced " ++ toString count
        ++ " diagnostic(s) (--strict); run `quoteform check` for details") ""
  else
    let text := c.schema.toJson.line compact
    match out with
    | none => .finish { code := 0, output := text }
    | some path =>
      let done := "wrote " ++ path ++ " (" ++ toString c.schema.fieldCount ++ " fields, "
        ++ toString count ++ " diagnostics)"
      .write path text { code := 0, message := some done }
        (.failure ("failed to write " ++ path) "")

/-- The lines that tell what a compile found. -/
def summary (c : Compilation) : List String :=
  let heading (s : SectionSchema) : String :=
    "  → " ++ s.title ++ ": " ++ toString s.fields.length ++ " fields"
  let verdict := if c.diagnostics.isEmpty then "ok" else "done"
  c.schema.sectionList.map heading
  ++ c.diagnostics.map (fun d => "warning: " ++ d.text)
  ++ [verdict ++ " " ++ toString c.documents.length ++ " documents, "
      ++ toString c.schema.fieldCount ++ " fields, "
      ++ toString c.diagnostics.length ++ " diagnostics"]

/-- What `check` leads to: the program's `cmd_check`. -/
def tell (c : Compilation) (deny json : Bool) : Exit :=
  let count := c.diagnostics.length
  let output :=
    if json then (Json.array (c.diagnostics.map Diagnostic.toJson)).line false
    else String.join (c.summary.map (· ++ "\n"))
  if deny && 0 < count then
    .failure (toString count ++ " diagnostic(s) with --deny-diagnostics") output
  else { code := 0, output := output }

variable [PatternLibrary]

/-- What `validate` leads to: the program's `cmd_validate`. -/
def judge (c : Compilation) (sub : Submission) : Exit :=
  let report := c.schema.check sub
  let output := report.toJson.line false
  if report.valid then
    { code := 0, output := output, message := some ("valid submission for " ++ sub.place.name) }
  else
    .failure
      ("submission for " ++ sub.place.name ++ " has " ++ toString report.errors.length
        ++ " error(s)") output

end Compilation

/-! ### Invocations -/

variable [PatternLibrary]

/-- The compile that settings describe, or the message of why it fails. -/
def Settings.compile (s : Settings) (read : FileReader) : Except String Compilation :=
  match Compiler.ofSettings s.compiler with
  | .error e => .error e.message
  | .ok compiler =>
    match compiler.compile read with
    | .error _ => .error ("failed to compile ontology in " ++ s.compiler.root)
    | .ok c => .ok c

namespace Invocation

/-- The text of a submission: that of a file, or the input. -/
def inputText (read : FileReader) (stdin : Except TextFault String) (input : String) :
    Except TextFault String :=
  if input = "-" then stdin else read.text input

/-- The submission to check, or the message of why there is none. -/
def submission (read : FileReader) (stdin : Except TextFault String) (input : String)
    (place : Option FormSection) : Except String Submission :=
  match inputText read stdin input with
  | .error _ =>
    .error (if input = "-" then "failed to read submission from stdin"
      else "failed to read " ++ input)
  | .ok text =>
    match place with
    | none =>
      match Submission.parse? text with
      | some sub => .ok sub
      | none =>
        .error "submission must be \x7b\"section\": ..., \"fields\": \x7b...\x7d\x7d"
    | some place =>
      match Submission.parseFields? place text with
      | some sub => .ok sub
      | none => .error "submission must be a JSON object"

/-- What the command leads to under settings, or the message of why it fails. -/
def perform (read : FileReader) (stdin : Except TextFault String) (s : Settings) :
    Command → Except String Action
  | .compile out strict compact => do return (← s.compile read).write out strict compact
  | .check deny json => do return .finish ((← s.compile read).tell deny json)
  | .validate input place => do
    let sub ← submission read stdin input place
    return .finish ((← s.compile read).judge sub)

/-- What an invocation leads to. -/
def act (i : Invocation) (read : FileReader) (stdin : Except TextFault String) : Action :=
  match Settings.resolve read i.config i.overrides with
  | .error e => .finish (.failure e.message "")
  | .ok s =>
    match perform read stdin s i.command with
    | .error message => .finish (.failure message "")
    | .ok action => action

end Invocation

/-! ### Runs -/

/-- The end of an action over a file tree, and the tree after it. -/
def Action.run (t : FileTree) : Action → Exit × FileTree
  | finish e => (e, t)
  | write path text written failed =>
    match t.write? path text.toUTF8 with
    | some t => (written, t)
    | none => (failed, t)

/-- The end of a run over a file tree, and the tree after it. -/
def runArguments (environment : Option String) (arguments : List String)
    (stdin : Except TextFault String) (t : FileTree) : Exit × FileTree :=
  match Invocation.parse? environment arguments with
  | none => (.usage, t)
  | some i => (i.act t.read stdin).run t

end FormOntology
