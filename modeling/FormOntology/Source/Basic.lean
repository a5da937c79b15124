import FormOntology.Digest
import FormOntology.Span
import FormOntology.Text.Offset

/-!
# Combined sources

Several documents are read as one text.  A line feed is put between two documents unless the text
so far ends in one, so the last token of a document never runs into the first of the next.  Each
document keeps its span, and an offset of the combined text can be told as a line of a document.

## Main definitions

* `Location` — a line of a document.
* `Document`, `DocumentSpan` — a document, and what a combined source remembers of it.
* `Combined`, `Combined.push`, `Combined.ofDocuments` — combined sources.
* `Combined.locate` — the location of an offset.
-/

namespace FormOntology

open Text

/-- A line of a document, counted from one. -/
structure Location where
  /-- The name of the document. -/
  document : String
  /-- The line. -/
  line : Nat
  deriving DecidableEq, Repr, Inhabited

/-- How a location is written. -/
def Location.text (l : Location) : String := l.document ++ ":" ++ toString l.line

/-- A document: its name and its content. -/
structure Document where
  /-- The name. -/
  name : String
  /-- The content. -/
  content : String
  deriving DecidableEq, Repr, Inhabited

/-- What a combined source remembers of a document. -/
structure DocumentSpan where
  /-- The name of the document. -/
  path : String
  /-- Where its content stands in the combined text. -/
  span : Span
  /-- The digest of its content. -/
  digest : Digest
  deriving DecidableEq, Repr, Inhabited

/-- Documents put together into one text. -/
structure Combined where
  /-- The combined text. -/
  text : List Char
  /-- The documents, in order. -/
  documents : List DocumentSpan
  deriving DecidableEq, Repr, Inhabited

namespace Combined

/-- The source without documents. -/
def empty : Combined := ⟨[], []⟩

/-- What is put between a text and the next document. -/
def separator (text : List Char) : List Char :=
  match text.getLast? with
  | none => []
  | some c => if c = '\n' then [] else ['\n']

/-- A source with one more document. -/
def push (s : Combined) (d : Document) : Combined :=
  let before := s.text ++ separator s.text
  let content := d.content.toList
  { text := before ++ content
    documents := s.documents ++
      [⟨d.name, ⟨size before, size before + size content⟩, Digest.ofString d.content⟩] }

/-- The source of a list of documents: the program's `CombinedSource::from_documents`. -/
def ofDocuments (documents : List Document) : Combined := documents.foldl push empty

@[simp] theorem ofDocuments_nil : ofDocuments [] = empty := rfl

theorem ofDocuments_concat (ds : List Document) (d : Document) :
    ofDocuments (ds ++ [d]) = (ofDocuments ds).push d := by
  simp [ofDocuments]

/-- The document that an offset belongs to: the last that begins at or before it. -/
def documentAt? (s : Combined) (offset : Nat) : Option DocumentSpan :=
  (s.documents.reverse.find? (·.span.start ≤ offset)).or s.documents.head?

/-- The location of an offset: the program's `CombinedSource::locate`.  An offset behind the end of
its document counts as that end. -/
def locate (s : Combined) (offset : Nat) : Location :=
  match s.documentAt? offset with
  | none => ⟨"<memory>", 1⟩
  | some d =>
    let stop := max (min offset d.span.stop) d.span.start
    ⟨d.path, lineFeeds (takeBytes (stop - d.span.start) (dropBytes d.span.start s.text)) + 1⟩

end Combined

end FormOntology
