import FormOntology.Schema.Assembly
import FormOntology.Source.Load

/-!
# Compilation

From documents to a schema: the documents are loaded and combined, their declarations are read, and
the schema is assembled.  Only a document that cannot be loaded ends a compile.

## Main definitions

* `Compiler` — what a compile depends on besides the documents.
* `Compilation` — what it gives.
* `Compiler.compileSource`, `Compiler.compile` — the compile of a combined source and of files.
* `Compiler.sourceDigests` — the digests of the documents as they are now.
-/

namespace FormOntology

/-- What a compile depends on besides the documents. -/
structure Compiler where
  /-- The documents. -/
  sources : SourceSet
  /-- The accepted namespace names. -/
  vocabulary : Vocabulary
  /-- The sections of the classes. -/
  table : ClassTable
  deriving DecidableEq, Repr, Inhabited

/-- What a compile gives. -/
structure Compilation where
  /-- The schema. -/
  schema : Schema
  /-- The diagnostics: first those of reading, then those of assembly. -/
  diagnostics : List Diagnostic
  /-- The documents, in the order they were combined. -/
  documents : List DocumentSpan
  deriving DecidableEq, Repr, Inhabited

namespace Compiler

/-- The digests of the documents: the program's `Compiler::source_digests`. -/
def sourceDigests (c : Compiler) (read : FileReader) : Except SourceError (List Digest) :=
  (c.sources.load read).map fun s => s.documents.map (·.digest)

variable [PatternLibrary]

/-- The compile of a combined source: the program's `Compiler::compile_source`. -/
def compileSource (c : Compiler) (s : Combined) : Compilation :=
  let declarations := s.declarations c.vocabulary
  let (schema, diagnostics) := assemble c.table (declarations.map (·.1))
  ⟨schema, declarations.flatMap (·.2) ++ diagnostics, s.documents⟩

/-- The compile of the documents. -/
def compile (c : Compiler) (read : FileReader) : Except SourceError Compilation :=
  (c.sources.load read).map c.compileSource

end Compiler

end FormOntology
