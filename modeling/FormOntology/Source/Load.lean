import FormOntology.FileTree
import FormOntology.Source.Basic

/-!
# Loading sources

The documents of a source set are read in the configured order; the first that cannot be read ends
the load.  A loaded document has the name it was configured under, an error has the path it was
looked up at.

## Main definitions

* `SourceSet`, `SourceSet.paths` — documents below a root directory, and their paths.
* `SourceError` — why a load fails.
* `SourceSet.load` — all documents, combined.
-/

namespace FormOntology

/-- The path of `path` seen from the directory `root`; an absolute path is its own. -/
def joinPath (root path : String) : String :=
  if path.startsWith "/" then path
  else if root.isEmpty || root.endsWith "/" then root ++ path
  else root ++ "/" ++ path

/-- Documents below a root directory. -/
structure SourceSet where
  /-- The root directory. -/
  root : String
  /-- The documents, in the order they are combined. -/
  documents : List String
  deriving DecidableEq, Repr, Inhabited

/-- Why the documents cannot be loaded. -/
inductive SourceError where
  /-- There is none. -/
  | noDocuments
  /-- One cannot be read. -/
  | unreadable (path : String) (fault : ReadFault)
  /-- The bytes of one are no UTF-8. -/
  | notUtf8 (path : String)
  deriving DecidableEq, Repr, Inhabited

/-- The text of an error. -/
def SourceError.message : SourceError → String
  | noDocuments => "no ontology documents configured"
  | unreadable path fault => "failed to read ontology document " ++ path ++ ": " ++ fault.message
  | notUtf8 path => "ontology document " ++ path ++ " is not valid UTF-8"

namespace SourceSet

/-- The paths of the documents. -/
def paths (s : SourceSet) : List String := s.documents.map (joinPath s.root)

/-- One document, read from its path. -/
def loadDocument (read : FileReader) (s : SourceSet) (name : String) :
    Except SourceError Document :=
  let path := joinPath s.root name
  match read path with
  | .error fault => .error (.unreadable path fault)
  | .ok bytes =>
    match String.fromUTF8? bytes with
    | none => .error (.notUtf8 path)
    | some content => .ok ⟨name, content⟩

/-- All documents, combined in order: the program's `load_sources`. -/
def load (read : FileReader) (s : SourceSet) : Except SourceError Combined :=
  if s.documents.isEmpty then .error .noDocuments
  else (s.documents.mapM (s.loadDocument read)).map Combined.ofDocuments

end SourceSet

end FormOntology
