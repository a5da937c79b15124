import FormOntology.Proofs.Digest.Edits
import FormOntology.Proofs.Publisher.History

/-!
# Edits that a publisher sees

The documents are compared by their digests, one by one and in order.  A document in which one byte
became another has another digest, so the documents count as others than at the last reload,
whatever became of the rest.

## Main results

* `Compiler.digests_ne_of_edit` — an edit of one byte of a document changes the digests.
* `Site.edit_detected` — **an edit of one byte is always detected.**
-/

namespace FormOntology

/-! ### The digests of documents -/

/-- The digest of one document. -/
def SourceSet.digest (read : FileReader) (s : SourceSet) (name : String) :
    Except SourceError Digest :=
  (s.loadDocument read name).map fun d => Digest.ofString d.content

/-- The digest of a document is that of its bytes. -/
theorem SourceSet.eq_of_digest_eq_ok {read : FileReader} {s : SourceSet} {name : String}
    {d : Digest} (hd : s.digest read name = .ok d) {bytes : List UInt8}
    (h : read (joinPath s.root name) = .ok bytes.toByteArray) : d = Digest.ofBytes bytes := by
  obtain ⟨document, hdocument, rfl⟩ := map_eq_ok.mp hd
  obtain ⟨-, hread⟩ := loadDocument_eq_ok_iff.mp hdocument
  have hbytes : document.content.toUTF8 = bytes.toByteArray :=
    Except.ok.inj (hread.symm.trans h)
  rw [Digest.ofString, hbytes, List.data_toByteArray]

theorem Combined.digests_ofDocuments (ds : List Document) :
    (ofDocuments ds).documents.map (·.digest) = ds.map fun d => Digest.ofString d.content := by
  induction ds using List.reverseRecOn with
  | nil => rfl
  | append_singleton ds d ih =>
    rw [ofDocuments_concat, push, List.map_append, ih, List.map_append]
    rfl

/-- The digests of the documents are taken one by one. -/
theorem Compiler.mapM_digest {c : Compiler} {read : FileReader} {digests : List Digest}
    (h : c.sourceDigests read = .ok digests) :
    c.sources.documents.mapM (c.sources.digest read) = .ok digests := by
  obtain ⟨source, hload, rfl⟩ := map_eq_ok.mp h
  obtain ⟨-, ds, hds, rfl⟩ := SourceSet.load_eq_ok_iff.mp hload
  rw [Combined.digests_ofDocuments, mapM_eq_ok_iff, List.forall₂_map_right_iff]
  exact hds.imp fun name d hd => map_eq_ok.mpr ⟨d, hd, rfl⟩

/-- An edit of one byte of a document changes the digests. -/
theorem Compiler.digests_ne_of_edit {c : Compiler} {read read' : FileReader}
    {digests digests' : List Digest} (h : c.sourceDigests read = .ok digests)
    (h' : c.sourceDigests read' = .ok digests') {name : String}
    (hname : name ∈ c.sources.documents) {u v : List UInt8} {a b : UInt8} (hne : a ≠ b)
    (hold : read (joinPath c.sources.root name) = .ok (u ++ a :: v).toByteArray)
    (hnew : read' (joinPath c.sources.root name) = .ok (u ++ b :: v).toByteArray) :
    digests ≠ digests' := by
  rintro rfl
  obtain ⟨d, hd⟩ := exists_of_mapM_eq_ok (mapM_digest h) name hname
  have hsame := eq_of_mapM_eq_ok (mapM_digest h) (mapM_digest h') name hname
  have ha : d = Digest.ofBytes (u ++ a :: v) := SourceSet.eq_of_digest_eq_ok hd hold
  have hb : d = Digest.ofBytes (u ++ b :: v) :=
    SourceSet.eq_of_digest_eq_ok (hsame.symm.trans hd) hnew
  exact hne (Digest.ofBytes_edit_inj.mp (ha.symm.trans hb))

namespace Site

/-- **An edit of one byte is always detected.**  Byte strings in which one byte differs have digests
that are written differently.  So when one byte of a document is another than at the last reload
that published, and all documents can be read, the documents count as others. -/
theorem edit_detected [PatternLibrary] :
    (∀ (u v : List UInt8) (a b : UInt8), a ≠ b →
        (Digest.ofBytes (u ++ a :: v)).text ≠ (Digest.ofBytes (u ++ b :: v)).text)
      ∧ ∀ (start : Site) (es before : List Event) (now : String), LastReload start es before now →
        let sources := start.publisher.compiler.sources
        ∀ name ∈ sources.documents, ∀ (u v : List UInt8) (a b : UInt8), a ≠ b →
          (start.run before).files.read (joinPath sources.root name)
            = .ok (u ++ a :: v).toByteArray →
          (start.run es).files.read (joinPath sources.root name)
            = .ok (u ++ b :: v).toByteArray →
          (∀ path ∈ sources.paths,
            ∃ text : String, (start.run es).files.read path = .ok text.toUTF8) →
          (start.run es).answer .compare = .compared (.ok true) := by
  constructor
  · intro u v a b hne h
    exact hne (Digest.ofBytes_edit_inj.mp (Digest.text_injective h))
  · intro start es before now hl sources name hname u v a b hne hold hnew htext
    obtain ⟨digests, hdigests, -⟩ := exists_sourceDigests (List.ne_nil_of_mem hname) fun n hn =>
      SourceSet.exists_loadDocument_eq_ok_iff.mpr (htext _ (List.mem_map_of_mem hn))
    have hne' := Compiler.digests_ne_of_edit (sourceDigests_of_lastReload hl) hdigests hname hne
      hold hnew
    rw [← compiler_run start es] at hdigests
    rw [answer, sourcesChanged_of_sourceDigests hdigests, bne_iff_ne.mpr hne'.symm]

/-- The compiler of two documents in a directory. -/
def twoDocumentCompiler : Compiler := ⟨⟨"kb", ["a.ttl", "b.ttl"]⟩, .standard, .standard⟩

/-- The bytes of `# café` in front of the last one. -/
def frontOfAccent : List UInt8 := [0x23, 0x20, 0x63, 0x61, 0x66, 0xC3]

/-- Two documents are written and reloaded, and an accent in the second is turned round. -/
def turnedAccent : List Event :=
  [.write "kb/a.ttl" "ex:a a owl:DatatypeProperty .".toUTF8,
    .write "kb/b.ttl" (frontOfAccent ++ 0xA9 :: [0x0A]).toByteArray, .reload "noon" false, .take,
    .write "kb/b.ttl" (frontOfAccent ++ 0xA8 :: [0x0A]).toByteArray]

/-- The second byte of one character is another one, and the documents count as others. -/
theorem turnedAccent_detected :
    LastReload ⟨.empty, .ofCompiler twoDocumentCompiler⟩ turnedAccent (turnedAccent.take 2) "noon"
      ∧ (run ⟨.empty, .ofCompiler twoDocumentCompiler⟩ turnedAccent).answer .compare
        = .compared (.ok true)
      ∧ (Digest.ofBytes (frontOfAccent ++ 0xA9 :: [0x0A])).text
        ≠ (Digest.ofBytes (frontOfAccent ++ 0xA8 :: [0x0A])).text := by
  have hl : LastReload ⟨.empty, .ofCompiler twoDocumentCompiler⟩ turnedAccent
      (turnedAccent.take 2) "noon" := by
    refine ⟨by decide +kernel, turnedAccent.drop 3, rfl, fun a ha => ?_⟩
    rcases List.mem_pair.mp ha with rfl | rfl <;> rfl
  refine ⟨hl, edit_detected.2 _ _ _ _ hl "b.ttl" (by decide) frontOfAccent [0x0A] 0xA9 0xA8
    (by decide) (by decide +kernel) (by decide +kernel) fun path hpath => ?_,
    edit_detected.1 _ _ _ _ (by decide)⟩
  rcases List.mem_pair.mp hpath with rfl | rfl
  · exact ⟨"ex:a a owl:DatatypeProperty .", by decide +kernel⟩
  · exact ⟨"# cafè\n", by decide +kernel⟩

end Site

end FormOntology
