import FormOntology.Command.Arguments
import FormOntology.Schema.Section
import FormOntology.Settings.Resolve

/-!
# Commands

A command is a word, with options of its own and options that every command has.  The latter may
stand in front of the word or behind it; what stands behind it counts.

## Main definitions

* `Command` — the commands with their options.
* `Invocation`, `Invocation.parse?` — a command with the options that every command has.
-/

namespace FormOntology

/-- A command. -/
inductive Command where
  /-- Writes the schema, to a file or to the output. -/
  | compile (out : Option String) (strict compact : Bool)
  /-- Tells what is wrong with the documents. -/
  | check (deny json : Bool)
  /-- Checks a submission; `-` stands for the input. -/
  | validate (input : String) (place : Option FormSection)
  deriving DecidableEq, Repr, Inhabited

/-- A command with the options that every command has. -/
structure Invocation where
  /-- The file of settings. -/
  config : Option String
  /-- What replaces settings. -/
  overrides : Overrides
  /-- The command. -/
  command : Command
  deriving DecidableEq, Repr, Inhabited

namespace Invocation

/-- The options that every command has. -/
def commonOptions : List OptionSpec :=
  [{ long := "config" }, { long := "ontology-dir" }, { long := "document", many := true },
   { long := "prefix", many := true },
   { long := "verbose", short := some 'v', hasValue := false }]

/-- The options of a command besides the common ones. -/
def ownOptions? (word : String) : Option (List OptionSpec) :=
  if word = "compile" then
    some [{ long := "out", short := some 'o' }, { long := "strict", hasValue := false },
      { long := "compact", hasValue := false }]
  else if word = "check" then
    some [{ long := "deny-diagnostics", hasValue := false }, { long := "json", hasValue := false }]
  else if word = "validate" then some [{ long := "section" }]
  else none

/-- The options whose values are paths, which are never empty. -/
def pathOptions : List String := ["config", "ontology-dir", "document", "out"]

/-- Whether the paths among the options are paths. -/
def hasPaths (a : Arguments) : Bool :=
  a.options.all fun o => !pathOptions.contains o.1 || !o.2.isEmpty

/-- The command of a word with its arguments. -/
def command? (word : String) (a : Arguments) : Option Command :=
  if word = "compile" then
    if a.words.isEmpty then
      some (.compile (a.value? "out") (a.has "strict") (a.has "compact"))
    else none
  else if word = "check" then
    if a.words.isEmpty then some (.check (a.has "deny-diagnostics") (a.has "json")) else none
  else if word = "validate" then
    match a.words with
    | [input] =>
      if input.isEmpty then none
      else
        match a.value? "section" with
        | none => some (.validate input none)
        | some name =>
          match FormSection.parse name with
          | .ok place => some (.validate input (some place))
          | .error _ => none
    | _ => none
  else none

/-- The values of a common option: those behind the word of the command, or else those in front
of it. -/
def commonValues (front behind : Arguments) (name : String) : List String :=
  if behind.has name then behind.values name else front.values name

/-- Whether the directory that the environment names is a path where it is asked for, which is
wherever no option names one. -/
def environmentFits (environment : Option String) (a : Arguments) : Bool :=
  a.has "ontology-dir" || environment ≠ some ""

/-- The invocation of a list of arguments, none if they are no invocation.  The environment may
name the directory of the documents, which an option replaces. -/
def parse? (environment : Option String) (arguments : List String) : Option Invocation := do
  let front ← Arguments.read? commonOptions true arguments
  match front.words with
  | [] => none
  | word :: rest =>
    let behind ← Arguments.read? (commonOptions ++ (← ownOptions? word)) false rest
    let command ← command? word behind
    if [front, behind].all fun a => hasPaths a && environmentFits environment a then
      let values := commonValues front behind
      some
        { config := (values "config").head?
          overrides :=
            { root := (values "ontology-dir").head?.or environment
              documents := values "document"
              namespaces := values "prefix" }
          command := command }
    else none

end Invocation

end FormOntology
