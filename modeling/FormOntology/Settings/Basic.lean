import FormOntology.Json.Value
import FormOntology.Schema.Compiler
import FormOntology.Settings.Address

/-!
# Settings

What a compile and a server depend on, as it is kept in a JSON file.  Every setting has a default,
a name that is not known is an error, and so is a setting that is given twice.

## Main definitions

* `CompilerSettings`, `ServerSettings`, `Settings` — the settings and their defaults.
* `CompilerSettings.ofTree?`, `Settings.ofTree?` — the settings of a JSON text.
* `SettingsFault`, `CompilerSettings.check` — settings that nothing can be compiled by.
* `Compiler.ofSettings` — the compiler that settings describe.
-/

namespace FormOntology

/-- The settings of a compile. -/
structure CompilerSettings where
  /-- The directory of the documents. -/
  root : String := "ontology"
  /-- The documents, in the order they are combined. -/
  documents : List String :=
    ["AI_Driver_Details.ttl", "AI_Vehicle_Details.ttl", "AI_Claims_History.ttl", "user_ux.ttl",
     "user_documents.ttl"]
  /-- The accepted namespace names, as given. -/
  namespaces : List String := Vocabulary.defaultNames
  /-- Rules added to the standard table. -/
  rules : List ClassRule := []
  deriving DecidableEq, Repr, Inhabited

/-- The settings of a server. -/
structure ServerSettings where
  /-- Where it listens. -/
  listen : SocketAddress := .v4 [127, 0, 0, 1] 8080
  /-- The seconds between two looks at the documents. -/
  watchSeconds : Nat := 2
  /-- The seconds that a compile may take; zero for any number of them. -/
  timeoutSeconds : Nat := 30
  deriving DecidableEq, Repr, Inhabited

/-- All settings. -/
structure Settings where
  /-- The settings of a compile. -/
  compiler : CompilerSettings := {}
  /-- The settings of a server. -/
  server : ServerSettings := {}
  deriving DecidableEq, Repr, Inhabited

namespace ServerSettings

/-- The seconds between two looks at the documents, at least one. -/
def watchInterval (s : ServerSettings) : Nat := max s.watchSeconds 1

/-- The seconds that a compile may take, if there is a limit. -/
def timeout? (s : ServerSettings) : Option Nat :=
  if 0 < s.timeoutSeconds then some s.timeoutSeconds else none

end ServerSettings

/-! ### Reading -/

/-- The rule of a tree; other members than its fields are passed over. -/
def ClassRule.ofTree? (t : JsonTree) : Option ClassRule := do
  let fields ← t.record? ["class", "sections"] true
  let className ← (fields.lookup "class").bind JsonTree.string?
  let sections ← (fields.lookup "sections").bind (JsonTree.list? FormSection.ofTree?)
  return ⟨className, sections⟩

/-- The compile settings of a tree. -/
def CompilerSettings.ofTree? (t : JsonTree) : Option CompilerSettings := do
  let fields ← t.record? ["ontology_dir", "documents", "accepted_prefixes", "extra_classes"] false
  let default : CompilerSettings := {}
  let strings := JsonTree.list? JsonTree.string?
  return {
    root := ← JsonTree.fieldOr fields "ontology_dir" JsonTree.string? default.root
    documents := ← JsonTree.fieldOr fields "documents" strings default.documents
    namespaces := ← JsonTree.fieldOr fields "accepted_prefixes" strings default.namespaces
    rules := ← JsonTree.fieldOr fields "extra_classes" (JsonTree.list? ClassRule.ofTree?) [] }

/-- The server settings of a tree. -/
def ServerSettings.ofTree? (t : JsonTree) : Option ServerSettings := do
  let fields ← t.record? ["listen", "watch_interval_secs", "compile_timeout_secs"] false
  let default : ServerSettings := {}
  let address (t : JsonTree) := t.string?.bind SocketAddress.parse?
  let natural := JsonTree.natural?
  return {
    listen := ← JsonTree.fieldOr fields "listen" address default.listen
    watchSeconds := ← JsonTree.fieldOr fields "watch_interval_secs" natural default.watchSeconds
    timeoutSeconds :=
      ← JsonTree.fieldOr fields "compile_timeout_secs" natural default.timeoutSeconds }

/-- The settings of a tree. -/
def Settings.ofTree? (t : JsonTree) : Option Settings := do
  let fields ← t.record? ["compiler", "serve"] false
  return {
    compiler := ← JsonTree.fieldOr fields "compiler" CompilerSettings.ofTree? {}
    server := ← JsonTree.fieldOr fields "serve" ServerSettings.ofTree? {} }

/-! ### JSON -/

/-- A rule as a JSON value. -/
def ClassRule.toJson (r : ClassRule) : Json :=
  .object
    [("class", .string r.className), ("sections", .array (r.sections.map fun s => .string s.name))]

/-- Compile settings as a JSON value. -/
def CompilerSettings.toJson (s : CompilerSettings) : Json :=
  .object
    [("ontology_dir", .string s.root), ("documents", .array (s.documents.map .string)),
     ("accepted_prefixes", .array (s.namespaces.map .string)),
     ("extra_classes", .array (s.rules.map ClassRule.toJson))]

/-- Server settings as a JSON value. -/
def ServerSettings.toJson (s : ServerSettings) : Json :=
  .object
    [("listen", .string s.listen.text), ("watch_interval_secs", .nat s.watchSeconds),
     ("compile_timeout_secs", .nat s.timeoutSeconds)]

/-- Settings as a JSON value. -/
def Settings.toJson (s : Settings) : Json :=
  .object [("compiler", s.compiler.toJson), ("serve", s.server.toJson)]

/-! ### Compilers -/

/-- Why nothing can be compiled by settings. -/
inductive SettingsFault where
  /-- There are no documents. -/
  | noDocuments
  /-- The namespace names make no vocabulary. -/
  | vocabulary (e : VocabularyError)
  deriving DecidableEq, Repr, Inhabited

/-- The text of a fault. -/
def SettingsFault.message : SettingsFault → String
  | noDocuments => "config lists no ontology documents"
  | vocabulary e => e.message

namespace CompilerSettings

/-- The vocabulary of the accepted namespace names. -/
def vocabulary (s : CompilerSettings) : Except SettingsFault Vocabulary :=
  (Vocabulary.ofNames s.namespaces).mapError .vocabulary

/-- The documents. -/
def sources (s : CompilerSettings) : SourceSet := ⟨s.root, s.documents⟩

/-- The standard table with the added rules. -/
def table (s : CompilerSettings) : ClassTable := ClassTable.standard.addAll s.rules

/-- Whether there is something to compile: the program's `CompilerConfig::validate`. -/
def check (s : CompilerSettings) : Except SettingsFault Unit :=
  if s.documents.isEmpty then .error .noDocuments else s.vocabulary.map fun _ => ()

end CompilerSettings

/-- The compiler that settings describe. -/
def Compiler.ofSettings (s : CompilerSettings) : Except SettingsFault Compiler :=
  match s.check with
  | .error e => .error e
  | .ok _ => s.vocabulary.map fun v => ⟨s.sources, v, s.table⟩

end FormOntology
