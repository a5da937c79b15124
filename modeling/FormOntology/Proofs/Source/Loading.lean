import FormOntology.Proofs.Except
import FormOntology.Proofs.Source.Documents
import FormOntology.Proofs.Text.Bytes
import FormOntology.Schema.Compiler

/-!
# Loading documents

A load gives a source exactly if there are documents and each of them can be read.  Otherwise it
gives the error of the first document that cannot be read, whatever comes after it; that error has
the path of the document, while a loaded document has the name it was configured under.  The
compile of a source and the digests of its documents are taken from the same load.

## Main definitions

* `SourceError.Blames` — the errors of a path that has no text.

## Main results

* `SourceSet.load_eq_ok_iff` — a load by the documents that are read.
* `SourceSet.load_eq_error_iff` — a load that fails, by the first document that does.
* `Compiler.sourceDigests_eq` — the digests of the documents are those of their compile.
* `load_all_or_first_fault` — **a load gives all documents, or the error of the first that fails.**
-/

namespace FormOntology

/-- The errors of a path that has no text. -/
inductive SourceError.Blames (read : FileReader) (path : String) : SourceError → Prop where
  /-- Nothing can be read there. -/
  | unreadable {fault : ReadFault} (h : read path = .error fault) :
    Blames read path (.unreadable path fault)
  /-- What is read there encodes no text. -/
  | notUtf8 {bytes : ByteArray} (h : read path = .ok bytes)
    (hbytes : ∀ text : String, bytes ≠ text.toUTF8) : Blames read path (.notUtf8 path)

namespace SourceSet

variable {s : SourceSet} {read : FileReader}

/-! ### One document -/

/-- A document is read exactly if its path has the encoding of a text. -/
theorem loadDocument_eq_ok_iff {name : String} {d : Document} : s.loadDocument read name = .ok d
    ↔ d.name = name ∧ read (joinPath s.root name) = .ok d.content.toUTF8 := by
  rw [loadDocument]
  constructor
  · intro h
    split at h
    · cases h
    · next bytes hread =>
      split at h
      · cases h
      · next content hcontent =>
        cases h
        exact ⟨rfl, by rw [hread, Text.fromUTF8?_eq_some_iff.mp hcontent]⟩
  · rintro ⟨rfl, hread⟩
    simp only [hread, Text.fromUTF8?_eq_some_iff.mpr rfl]

theorem exists_loadDocument_eq_ok_iff {name : String} : (∃ d, s.loadDocument read name = .ok d)
    ↔ ∃ text : String, read (joinPath s.root name) = .ok text.toUTF8 := by
  simp only [loadDocument_eq_ok_iff]
  exact ⟨fun ⟨d, _, h⟩ => ⟨d.content, h⟩, fun ⟨text, h⟩ => ⟨⟨name, text⟩, rfl, h⟩⟩

/-- A document is not read exactly if its path has no text. -/
theorem loadDocument_eq_error_iff {name : String} {e : SourceError} :
    s.loadDocument read name = .error e ↔ e.Blames read (joinPath s.root name) := by
  rw [loadDocument]
  constructor
  · intro h
    split at h
    · next fault hread =>
      cases h
      exact .unreadable hread
    · next bytes hread =>
      split at h
      · next hnone =>
        cases h
        refine .notUtf8 hread fun text hbytes => ?_
        rw [Text.fromUTF8?_eq_some_iff.mpr hbytes] at hnone
        cases hnone
      · cases h
  · rintro (hread | ⟨hread, hbytes⟩)
    · simp only [hread]
    · have hnone : String.fromUTF8? _ = none := Option.eq_none_iff_forall_ne_some.mpr fun text h =>
        hbytes text (Text.fromUTF8?_eq_some_iff.mp h)
      simp only [hread, hnone]

/-! ### All documents -/

/-- **A load gives a source exactly if there are documents and each of them can be read.** -/
theorem load_eq_ok_iff {c : Combined} : s.load read = .ok c ↔ s.documents ≠ [] ∧ ∃ ds,
    List.Forall₂ (fun name d => s.loadDocument read name = .ok d) s.documents ds
      ∧ Combined.ofDocuments ds = c := by
  rw [load]
  split
  · next h => simp [List.isEmpty_iff.mp h]
  · next h =>
    rw [map_eq_ok]
    simp only [mapM_eq_ok_iff, ne_eq, List.isEmpty_iff.not.mp h, not_false_eq_true, true_and]

theorem exists_load_eq_ok (hne : s.documents ≠ [])
    (h : ∀ name ∈ s.documents, ∃ d, s.loadDocument read name = .ok d) :
    ∃ c, s.load read = .ok c := by
  obtain ⟨ds, hds⟩ := exists_mapM_eq_ok h
  exact ⟨_, load_eq_ok_iff.mpr ⟨hne, ds, mapM_eq_ok_iff.mp hds, rfl⟩⟩

/-- A loaded source has a document. -/
theorem documents_ne_nil_of_load {c : Combined} (h : s.load read = .ok c) : c.documents ≠ [] := by
  obtain ⟨hne, ds, hds, rfl⟩ := load_eq_ok_iff.mp h
  rw [ne_eq, ← List.length_eq_zero_iff, Combined.length_documents_ofDocuments, ← hds.length_eq,
    List.length_eq_zero_iff]
  exact hne

/-- **A load fails exactly if there are no documents or one of them cannot be read, and then with
the error of the first such.** -/
theorem load_eq_error_iff {e : SourceError} : s.load read = .error e
    ↔ s.documents = [] ∧ e = .noDocuments ∨ ∃ before name after,
      s.documents = before ++ name :: after
        ∧ (∀ n ∈ before, ∃ d, s.loadDocument read n = .ok d)
        ∧ s.loadDocument read name = .error e := by
  rw [load]
  split
  · next h => simp [List.isEmpty_iff.mp h, eq_comm]
  · next h =>
    rw [map_eq_error, mapM_eq_error_iff]
    simp only [List.isEmpty_iff.not.mp h, false_and, false_or]

/-! ### Names and paths -/

/-- The names and the texts of documents that are read stand in the order of their paths. -/
theorem forall₂_loadDocument_iff {names : List String} {ds : List Document} :
    List.Forall₂ (fun name d => s.loadDocument read name = .ok d) names ds ↔ ∃ texts,
      List.Forall₂ (fun path (text : String) => read path = .ok text.toUTF8)
        (names.map (joinPath s.root)) texts ∧ ds = List.zipWith Document.mk names texts := by
  induction names generalizing ds with
  | nil => simp
  | cons name names ih =>
    simp only [List.forall₂_cons_left_iff, List.map_cons, ih]
    constructor
    · rintro ⟨d, ds, hd, ⟨texts, htexts, rfl⟩, rfl⟩
      obtain ⟨rfl, hread⟩ := loadDocument_eq_ok_iff.mp hd
      exact ⟨d.content :: texts, ⟨_, _, hread, htexts, rfl⟩, rfl⟩
    · rintro ⟨_, ⟨text, texts, hread, htexts, rfl⟩, rfl⟩
      exact ⟨⟨name, text⟩, _, loadDocument_eq_ok_iff.mpr ⟨rfl, hread⟩, ⟨texts, htexts, rfl⟩, rfl⟩

/-- The first document that is not read is the first of the paths that has no text. -/
theorem exists_first_fault_iff {e : SourceError} : (∃ before name after,
      s.documents = before ++ name :: after ∧ (∀ n ∈ before, ∃ d, s.loadDocument read n = .ok d)
        ∧ s.loadDocument read name = .error e)
    ↔ ∃ before path after, s.paths = before ++ path :: after
      ∧ (∀ p ∈ before, ∃ text : String, read p = .ok text.toUTF8) ∧ e.Blames read path := by
  simp only [exists_loadDocument_eq_ok_iff, loadDocument_eq_error_iff, paths]
  constructor
  · rintro ⟨before, name, after, h, hbefore, hname⟩
    exact ⟨before.map (joinPath s.root), _, after.map (joinPath s.root), by simp [h],
      List.forall_mem_map.mpr hbefore, hname⟩
  · rintro ⟨_, _, _, h, hbefore, hpath⟩
    obtain ⟨before, rest, hdocuments, rfl, hrest⟩ := List.map_eq_append_iff.mp h
    obtain ⟨name, after, rfl, rfl, -⟩ := List.map_eq_cons_iff.mp hrest
    exact ⟨before, name, after, hdocuments,
      fun n hn => hbefore _ (List.mem_map_of_mem hn), hpath⟩

end SourceSet

/-! ### What is made of a load -/

section Library

variable [PatternLibrary]

/-- The digests of the documents are those of their compile. -/
theorem Compiler.sourceDigests_eq (c : Compiler) (read : FileReader) :
    c.sourceDigests read = (c.compile read).map fun k => k.documents.map (·.digest) := by
  rw [sourceDigests, compile]
  cases c.sources.load read <;> rfl

/-- **A load gives all documents, or the error of the first that fails.**  It gives a source exactly
if there are documents and every path has a text; the source is then that of the configured names
with these texts, in the configured order.  Otherwise the error is that there are no documents, or
that of the first path without a text, which it names, whatever stands behind it.  A compile fails
exactly with the errors of the load, and so do the digests of the documents. -/
theorem load_all_or_first_fault (s : SourceSet) (read : FileReader) :
    ((∃ c, s.load read = .ok c)
        ↔ s.documents ≠ [] ∧ ∀ path ∈ s.paths, ∃ text : String, read path = .ok text.toUTF8)
      ∧ (∀ c, s.load read = .ok c ↔ s.documents ≠ [] ∧ ∃ texts,
        List.Forall₂ (fun path (text : String) => read path = .ok text.toUTF8) s.paths texts
          ∧ c = Combined.ofDocuments (List.zipWith Document.mk s.documents texts))
      ∧ (∀ e, s.load read = .error e ↔ s.documents = [] ∧ e = .noDocuments
        ∨ ∃ before path after, s.paths = before ++ path :: after
          ∧ (∀ p ∈ before, ∃ text : String, read p = .ok text.toUTF8) ∧ e.Blames read path)
      ∧ ∀ vocabulary table e,
        ((Compiler.mk s vocabulary table).compile read = .error e ↔ s.load read = .error e)
          ∧ ((Compiler.mk s vocabulary table).sourceDigests read = .error e
            ↔ s.load read = .error e) := by
  refine ⟨⟨?_, ?_⟩, fun c => ?_, fun e => ?_, fun vocabulary table e => ⟨?_, ?_⟩⟩
  · rintro ⟨c, hc⟩
    obtain ⟨hne, ds, hds, -⟩ := SourceSet.load_eq_ok_iff.mp hc
    exact ⟨hne, List.forall_mem_map.mpr fun name hname =>
      SourceSet.exists_loadDocument_eq_ok_iff.mp
        (exists_of_mapM_eq_ok (mapM_eq_ok_iff.mpr hds) name hname)⟩
  · rintro ⟨hne, h⟩
    exact SourceSet.exists_load_eq_ok hne fun name hname =>
      SourceSet.exists_loadDocument_eq_ok_iff.mpr (h _ (List.mem_map_of_mem hname))
  · rw [SourceSet.load_eq_ok_iff]
    simp only [SourceSet.forall₂_loadDocument_iff]
    refine and_congr_right fun _ => ⟨?_, ?_⟩
    · rintro ⟨_, ⟨texts, htexts, rfl⟩, rfl⟩
      exact ⟨texts, htexts, rfl⟩
    · rintro ⟨texts, htexts, rfl⟩
      exact ⟨_, ⟨texts, htexts, rfl⟩, rfl⟩
  · rw [SourceSet.load_eq_error_iff, SourceSet.exists_first_fault_iff]
  · exact map_eq_error
  · exact map_eq_error

end Library

end FormOntology
