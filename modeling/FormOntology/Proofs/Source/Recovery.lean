import FormOntology.Proofs.Source.Documents

/-!
# Documents are recovered from a combined source

A combined source is one text, and its spans tell where each document stands in it.  What is put
between two documents depends on the text so far, an empty document begins where the next one
does, and an offset is told by the last document that begins at or before it.  Whatever the
documents are, each can be cut out of the text again, and each offset in it is told as one of its
own lines.

## Main definitions

* `Text.HasAt` — whether a part of a text stands at a span.
* `Combined.placedFrom` — the spans of documents behind others.
* `Combined.Keeps` — what a source keeps of a document.

## Main results

* `Combined.documents_ofDocuments_append` — documents are placed one behind the other.
* `Combined.recover_ofDocuments` — **each document is kept in order, with at most a line feed
  between it and the next.**
-/

namespace FormOntology

open Text

/-- Whether a part of a text stands at a span of it. -/
def Text.HasAt (text : List Char) (span : Span) (part : List Char) : Prop :=
  ∃ before behind, text = before ++ (part ++ behind) ∧ size before = span.start
    ∧ size before + size part = span.stop

namespace Combined

/-- What a source keeps of a document. -/
structure Keeps (s : Combined) (d : Document) (r : DocumentSpan) : Prop where
  /-- It has the name of the document. -/
  path : r.path = d.name
  /-- It has the digest of the content. -/
  digest : r.digest = Digest.ofString d.content
  /-- The content stands at the span. -/
  content : HasAt s.text r.span d.content.toList
  /-- An offset in the content is told as a line of the document: one more than the line feeds in
  front of it. -/
  locate : ∀ before behind, d.content.toList = before ++ behind → behind ≠ [] →
    s.locate (r.span.start + size before) = ⟨d.name, lineFeeds before + 1⟩

/-- The spans of documents that are put behind others. -/
def placedFrom (pre : List Document) : List Document → List DocumentSpan
  | [] => []
  | d :: ds => ⟨d.name, place pre d, Digest.ofString d.content⟩ :: placedFrom (pre ++ [d]) ds

/-! ### The places of documents -/

/-- **Documents are placed one behind the other.** -/
theorem documents_ofDocuments_append (pre ds : List Document) :
    (ofDocuments (pre ++ ds)).documents = (ofDocuments pre).documents ++ placedFrom pre ds := by
  induction ds generalizing pre with
  | nil => rw [List.append_nil, placedFrom, List.append_nil]
  | cons d ds ih =>
    have hpre : (ofDocuments (pre ++ [d])).documents
        = (ofDocuments pre).documents ++ [⟨d.name, place pre d, Digest.ofString d.content⟩] := by
      rw [ofDocuments_concat]
      rfl
    rw [List.append_cons, ih, hpre, List.append_assoc, List.singleton_append, placedFrom]

/-- What stands in front of the next document: what stood in front of the last one, its content
and what separates the two. -/
theorem front_concat (pre : List Document) (d : Document) : front (pre ++ [d])
    = front pre ++ (d.content.toList ++ separator (ofDocuments (pre ++ [d])).text) := by
  have htext : (ofDocuments (pre ++ [d])).text = front pre ++ d.content.toList := by
    rw [ofDocuments_concat]
    rfl
  rw [front, htext, List.append_assoc]

/-- A separator is nothing or a line feed. -/
theorem separator_eq_nil_or (text : List Char) : separator text = [] ∨ separator text = ['\n'] := by
  unfold separator
  split
  · exact .inl rfl
  · split
    · exact .inl rfl
    · exact .inr rfl

/-- A document ends in front of the place of the next one. -/
theorem stop_place_le (pre : List Document) (d : Document) :
    (place pre d).stop ≤ size (front (pre ++ [d])) := by
  rw [front_concat, size_append, size_append]
  simp only [place]
  omega

/-- Documents are placed behind what stands in front of the first of them. -/
theorem size_front_le_of_mem_placedFrom {pre ds : List Document} {r : DocumentSpan}
    (h : r ∈ placedFrom pre ds) : size (front pre) ≤ r.span.start := by
  induction ds generalizing pre with
  | nil => cases h
  | cons d ds ih =>
    rcases List.mem_cons.mp h with rfl | h
    · exact Nat.le_refl _
    · have hnext := ih h
      have hstop := stop_place_le pre d
      simp only [place] at hstop
      omega

/-- The spans of documents are in order, and no two of them overlap. -/
theorem pairwise_placedFrom (pre ds : List Document) :
    (placedFrom pre ds).Pairwise fun r r' => r.span.stop ≤ r'.span.start := by
  induction ds generalizing pre with
  | nil => exact .nil
  | cons d ds ih =>
    refine .cons (fun r hr => ?_) (ih _)
    exact Nat.le_trans (stop_place_le pre d) (size_front_le_of_mem_placedFrom hr)

/-! ### What is kept -/

/-- A source keeps each of its documents. -/
theorem keeps_ofDocuments (pre : List Document) (d : Document) (post : List Document) :
    (ofDocuments (pre ++ d :: post)).Keeps d
      ⟨d.name, place pre d, Digest.ofString d.content⟩ where
  path := rfl
  digest := rfl
  content := by
    obtain ⟨after, -, htext, -⟩ := exists_text_ofDocuments pre d post
    exact ⟨front pre, after, htext, rfl, rfl⟩
  locate := by
    intro before behind hcontent hbehind
    have hpos := size_pos hbehind
    have hlt : size before < size d.content.toList := by
      rw [hcontent, size_append]
      omega
    have hlocate := locate_of_document pre d post hlt
    rw [hcontent, takeBytes_size_append] at hlocate
    exact hlocate

theorem forall₂_keeps (pre ds : List Document) :
    List.Forall₂ (ofDocuments (pre ++ ds)).Keeps ds (placedFrom pre ds) := by
  induction ds generalizing pre with
  | nil => exact .nil
  | cons d ds ih =>
    have htail := ih (pre ++ [d])
    rw [← List.append_cons] at htail
    exact .cons (keeps_ofDocuments pre d ds) htail

/-- What separates two documents stands between their spans. -/
theorem hasAt_between (pre : List Document) (d e : Document) (post : List Document) :
    HasAt (ofDocuments (pre ++ d :: e :: post)).text
      ⟨(place pre d).stop, (place (pre ++ [d]) e).start⟩
      (separator (ofDocuments (pre ++ [d])).text) := by
  obtain ⟨after, -, htext, -⟩ := exists_text_ofDocuments (pre ++ [d]) e post
  rw [← List.append_cons] at htext
  refine ⟨front pre ++ d.content.toList, e.content.toList ++ after, ?_, ?_, ?_⟩
  · rw [htext, front_concat]
    simp only [List.append_assoc]
  · rw [size_append, place]
  · simp only [place, front_concat, size_append]
    omega

/-- Between two documents stands nothing or a line feed. -/
theorem isChain_placedFrom (pre ds : List Document) :
    (placedFrom pre ds).IsChain fun r r' => ∃ gap, (gap = [] ∨ gap = ['\n'])
      ∧ HasAt (ofDocuments (pre ++ ds)).text ⟨r.span.stop, r'.span.start⟩ gap := by
  induction ds generalizing pre with
  | nil => exact .nil
  | cons d ds ih =>
    have htail := ih (pre ++ [d])
    rw [← List.append_cons] at htail
    cases ds with
    | nil => exact .singleton _
    | cons e post =>
      exact .cons_cons ⟨_, separator_eq_nil_or _, hasAt_between pre d e post⟩ htail

/-- **Each document is kept**: its name, its digest, its content at its span, and its lines.  The
spans are in order and no two overlap, and between two consecutive ones stands nothing or a line
feed. -/
theorem recover_ofDocuments (ds : List Document) :
    List.Forall₂ (ofDocuments ds).Keeps ds (ofDocuments ds).documents
      ∧ (ofDocuments ds).documents.Pairwise (fun r r' => r.span.stop ≤ r'.span.start)
      ∧ (ofDocuments ds).documents.IsChain fun r r' => ∃ gap, (gap = [] ∨ gap = ['\n'])
        ∧ HasAt (ofDocuments ds).text ⟨r.span.stop, r'.span.start⟩ gap := by
  have hdocuments : (ofDocuments ds).documents = placedFrom [] ds :=
    documents_ofDocuments_append [] ds
  rw [hdocuments]
  exact ⟨forall₂_keeps [] ds, pairwise_placedFrom [] ds, isChain_placedFrom [] ds⟩

/-- An empty document begins where the next one does, behind the line feed that is put there. -/
example : (ofDocuments [⟨"a", ""⟩, ⟨"b", "é"⟩, ⟨"a", ""⟩, ⟨"b", "é\n"⟩, ⟨"c", "x"⟩]).documents.map
    (·.span) = [⟨0, 0⟩, ⟨0, 2⟩, ⟨3, 3⟩, ⟨3, 6⟩, ⟨6, 7⟩] := by decide +kernel

end Combined

end FormOntology
