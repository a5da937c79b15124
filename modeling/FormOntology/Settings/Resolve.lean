import FormOntology.FileTree
import FormOntology.Settings.Basic

/-!
# Settings in effect

The settings in effect are those of a file, or the defaults if there is no file, with some of them
replaced.  A list replaces the one in the file only if it is not empty.

## Main definitions

* `LoadFault`, `CompilerSettings.load`, `Settings.load` — settings from a file.
* `Overrides`, `Overrides.apply` — what replaces settings.
* `Settings.resolve` — the settings in effect, if something can be compiled by them.
-/

namespace FormOntology

/-- Why settings cannot be loaded from a file. -/
inductive LoadFault where
  /-- The text of the file cannot be read. -/
  | unreadable (path : String) (fault : TextFault)
  /-- The text of the file is no settings. -/
  | malformed (path : String)
  deriving DecidableEq, Repr, Inhabited

/-- The text of a fault, without what made the file unreadable. -/
def LoadFault.message : LoadFault → String
  | unreadable path _ => "failed to read config " ++ path
  | malformed path => "failed to parse config " ++ path

/-- The settings in a file, as `ofTree?` finds them in its JSON text. -/
def loadSettings {α : Type} (ofTree? : JsonTree → Option α) (read : FileReader) (path : String) :
    Except LoadFault α :=
  match read.text path with
  | .error fault => .error (.unreadable path fault)
  | .ok text =>
    match (JsonTree.parse? text.toList).bind ofTree? with
    | some settings => .ok settings
    | none => .error (.malformed path)

/-- The compile settings in a file. -/
def CompilerSettings.load : FileReader → String → Except LoadFault CompilerSettings :=
  loadSettings ofTree?

/-- The settings in a file. -/
def Settings.load : FileReader → String → Except LoadFault Settings := loadSettings ofTree?

/-- What replaces settings. -/
structure Overrides where
  /-- The directory of the documents. -/
  root : Option String := none
  /-- The documents, if any. -/
  documents : List String := []
  /-- The accepted namespace names, if any. -/
  namespaces : List String := []
  deriving DecidableEq, Repr, Inhabited

/-- Settings with some of them replaced. -/
def Overrides.apply (o : Overrides) (s : Settings) : Settings :=
  let c := s.compiler
  { s with
    compiler :=
      { c with
        root := o.root.getD c.root
        documents := if o.documents.isEmpty then c.documents else o.documents
        namespaces := if o.namespaces.isEmpty then c.namespaces else o.namespaces } }

/-- Why there are no settings in effect. -/
inductive ResolveFault where
  /-- They cannot be loaded. -/
  | load (fault : LoadFault)
  /-- Nothing can be compiled by them. -/
  | invalid (fault : SettingsFault)
  deriving DecidableEq, Repr, Inhabited

/-- The text of a fault. -/
def ResolveFault.message : ResolveFault → String
  | load fault => fault.message
  | invalid _ => "invalid compiler configuration"

/-- The settings in effect: the program's `AppConfig::resolve`. -/
def Settings.resolve (read : FileReader) (path : Option String) (o : Overrides) :
    Except ResolveFault Settings := do
  let loaded ←
    match path with
    | none => .ok {}
    | some path => (Settings.load read path).mapError .load
  let settings := o.apply loaded
  settings.compiler.check.mapError .invalid
  return settings

end FormOntology
