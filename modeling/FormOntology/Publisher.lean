import FormOntology.Schema.Compiler

/-!
# Publishing

A publisher holds the schema that is in use.  A reload compiles the documents anew and publishes
the result under the next version; one that fails or is cancelled changes nothing.  What was taken
from a publisher earlier is a value and stays as it is.

## Main definitions

* `Published` — a published schema.
* `Publisher` — a compiler and what it published last.
* `Publisher.attempt`, `Publisher.reload` — a reload: what it gives and what it leaves behind.
* `Publisher.sourcesChanged` — whether the documents are others than at the last reload.
-/

namespace FormOntology

/-- A published schema. -/
structure Published where
  /-- The number of reloads so far. -/
  version : Nat
  /-- The time of the last reload, as the clock told it. -/
  compiledAt : Option String
  /-- The schema, its diagnostics and its documents. -/
  compilation : Compilation
  deriving DecidableEq, Repr, Inhabited

namespace Published

/-- What is published before the first reload. -/
def initial : Published := ⟨0, none, ⟨.empty, [], []⟩⟩

/-- The digests of the documents. -/
def digests (p : Published) : List Digest := p.compilation.documents.map (·.digest)

end Published

/-- A compiler and what it published last. -/
structure Publisher where
  /-- The compiler. -/
  compiler : Compiler
  /-- What is published. -/
  current : Published
  deriving DecidableEq, Repr, Inhabited

/-- Why a reload publishes nothing. -/
inductive ReloadError where
  /-- The documents cannot be loaded. -/
  | source (e : SourceError)
  /-- It was cancelled before the compile had ended. -/
  | cancelled
  deriving DecidableEq, Repr, Inhabited

/-- The text of an error. -/
def ReloadError.message : ReloadError → String
  | source e => e.message
  | cancelled => "reload was cancelled before publishing"

namespace Publisher

/-- A publisher that never reloaded. -/
def ofCompiler (c : Compiler) : Publisher := ⟨c, .initial⟩

/-- Whether the documents are others than those of the last reload: the program's
`SchemaPublisher::sources_changed`. -/
def sourcesChanged (p : Publisher) (read : FileReader) : Except SourceError Bool :=
  (p.compiler.sourceDigests read).map fun digests => digests != p.current.digests

variable [PatternLibrary]

/-- What a reload at the time `now` publishes: the program's `reload_unless_cancelled`, with what
its one test of the flag found. -/
def attempt (p : Publisher) (read : FileReader) (now : String) (cancelled : Bool) :
    Except ReloadError Published :=
  match p.compiler.compile read with
  | .error e => .error (.source e)
  | .ok c => if cancelled then .error .cancelled else .ok ⟨p.current.version + 1, some now, c⟩

/-- The publisher after a reload. -/
def reload (p : Publisher) (read : FileReader) (now : String) (cancelled : Bool) : Publisher :=
  match p.attempt read now cancelled with
  | .error _ => p
  | .ok published => { p with current := published }

end Publisher

end FormOntology
