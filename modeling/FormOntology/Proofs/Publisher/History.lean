import FormOntology.Proofs.Settings.Layers
import FormOntology.Proofs.Source.Loading
import FormOntology.Publisher.Run

/-!
# The history of a publisher

What a publisher holds is told by the last of its reloads that published: it is the compile of the
files as they were then, and its version counts the reloads that published so far.  Nothing else
that happens changes it: files that are written and removed, reloads that fail or are cancelled,
questions.

## Main definitions

* `Site.Answer.publishes` — whether an answer says that a reload published.
* `Site.LastReload` — the last reload of a run that published.

## Main results

* `Site.step_cases` — an event publishes the next version, or leaves the publisher as it is.
* `Site.version_run` — the version counts the reloads that published.
* `Site.current_of_lastReload` — what is published is the compile of the files at that reload.
* `Site.publisher_history` — **what a run makes of a publisher, and what it answers.**
-/

namespace FormOntology

section Library

variable [PatternLibrary]

/-! ### One reload -/

namespace Publisher

/-- A reload publishes exactly if the compile succeeds and it is not cancelled. -/
theorem attempt_eq_ok_iff {p : Publisher} {read : FileReader} {now : String} {cancelled : Bool}
    {q : Published} : p.attempt read now cancelled = .ok q ↔ cancelled = false
      ∧ ∃ k, p.compiler.compile read = .ok k ∧ q = ⟨p.current.version + 1, some now, k⟩ := by
  rw [attempt]
  cases p.compiler.compile read with
  | error e => simp
  | ok k => cases cancelled <;> simp [eq_comm]

/-- A reload that publishes nothing leaves the publisher as it is. -/
theorem reload_of_error {p : Publisher} {read : FileReader} {now : String} {cancelled : Bool}
    {e : ReloadError} (h : p.attempt read now cancelled = .error e) :
    p.reload read now cancelled = p := by
  rw [reload, h]

/-- A reload that is cancelled or cannot compile gives an error. -/
theorem exists_attempt_eq_error {p : Publisher} {read : FileReader} (now : String)
    {cancelled : Bool} (h : cancelled = true ∨ ∃ e, p.compiler.compile read = .error e) :
    ∃ e, p.attempt read now cancelled = .error e := by
  cases hattempt : p.attempt read now cancelled with
  | error e => exact ⟨e, rfl⟩
  | ok q =>
    obtain ⟨rfl, k, hk, -⟩ := attempt_eq_ok_iff.mp hattempt
    rcases h with h | ⟨e, he⟩
    · exact absurd h Bool.false_ne_true
    · rw [hk] at he
      cases he

theorem reload_of_ok {p : Publisher} {read : FileReader} {now : String} {cancelled : Bool}
    {q : Published} (h : p.attempt read now cancelled = .ok q) :
    p.reload read now cancelled = { p with current := q } := by
  rw [reload, h]

end Publisher

namespace Site

/-- Whether an answer says that a reload published. -/
def Answer.publishes : Answer → Bool
  | reloaded (.ok _) => true
  | _ => false

/-! ### One event -/

/-- An event is a reload that publishes the compile of the files under the next version, or the
publisher stays as it is. -/
theorem step_cases (s : Site) (e : Event) :
    (∃ now k, e = .reload now false ∧ s.publisher.compiler.compile s.files.read = .ok k
        ∧ (s.answer e).publishes = true
        ∧ (s.step e).publisher
          = { s.publisher with current := ⟨s.publisher.current.version + 1, some now, k⟩ })
      ∨ ((s.answer e).publishes = false ∧ (s.step e).publisher = s.publisher) := by
  cases e with
  | write path bytes => exact .inr ⟨rfl, publisher_step_write s path bytes⟩
  | remove path => exact .inr ⟨rfl, rfl⟩
  | take => exact .inr ⟨rfl, rfl⟩
  | compare => exact .inr ⟨rfl, rfl⟩
  | reload now cancelled =>
    rw [publisher_step_reload, answer]
    cases h : s.publisher.attempt s.files.read now cancelled with
    | error e => exact .inr ⟨rfl, Publisher.reload_of_error h⟩
    | ok q =>
      obtain ⟨rfl, k, hk, rfl⟩ := Publisher.attempt_eq_ok_iff.mp h
      exact .inl ⟨now, k, rfl, hk, rfl, Publisher.reload_of_ok h⟩

@[simp] theorem compiler_step (s : Site) (e : Event) :
    (s.step e).publisher.compiler = s.publisher.compiler := by
  rcases s.step_cases e with ⟨now, k, -, -, -, h⟩ | ⟨-, h⟩ <;> rw [h]

/-! ### Runs -/

@[simp] theorem compiler_run (s : Site) (es : List Event) :
    (s.run es).publisher.compiler = s.publisher.compiler := by
  induction es generalizing s with
  | nil => rfl
  | cons e es ih => rw [run_cons, ih, compiler_step]

/-- **The version counts the reloads that published.** -/
theorem version_run (s : Site) (es : List Event) : (s.run es).publisher.current.version
    = s.publisher.current.version + (s.answers es).countP Answer.publishes := by
  induction es generalizing s with
  | nil => rfl
  | cons e es ih =>
    rw [run_cons, ih, answers_cons, List.countP_cons]
    rcases s.step_cases e with ⟨now, k, -, -, hpub, h⟩ | ⟨hpub, h⟩
    · rw [h, hpub, if_pos rfl]
      simp only
      omega
    · rw [h, hpub, if_neg Bool.false_ne_true]
      omega

/-- A run without a reload that publishes leaves the publisher as it is. -/
theorem publisher_run_of_quiet {s : Site} {es : List Event}
    (h : ∀ a ∈ s.answers es, a.publishes = false) : (s.run es).publisher = s.publisher := by
  induction es generalizing s with
  | nil => rfl
  | cons e es ih =>
    rw [answers_cons, List.forall_mem_cons] at h
    rw [run_cons, ih h.2]
    rcases s.step_cases e with ⟨now, k, -, -, hpub, -⟩ | ⟨-, hstep⟩
    · rw [h.1] at hpub
      exact absurd hpub Bool.false_ne_true
    · exact hstep

/-- The last reload of a run that published: what happened before it, and its time. -/
structure LastReload (start : Site) (es before : List Event) (now : String) : Prop where
  /-- The reload published. -/
  published : ((start.run before).answer (.reload now false)).publishes = true
  /-- No reload behind it did. -/
  last : ∃ behind, es = before ++ .reload now false :: behind
    ∧ ∀ a ∈ ((start.run before).step (.reload now false)).answers behind, a.publishes = false

theorem LastReload.countP_pos {start : Site} {es before : List Event} {now : String}
    (h : LastReload start es before now) : 0 < (start.answers es).countP Answer.publishes := by
  obtain ⟨hpub, behind, rfl, -⟩ := h
  rw [List.countP_pos_iff, answers_append, answers_cons]
  exact ⟨_, List.mem_append_right _ (List.mem_cons_self ..), hpub⟩

/-- A run has a last reload that published, or none that did. -/
theorem exists_lastReload_or (start : Site) (es : List Event) :
    (∃ before now, LastReload start es before now)
      ∨ ∀ a ∈ start.answers es, a.publishes = false := by
  induction es generalizing start with
  | nil => exact .inr (by simp)
  | cons e es ih =>
    rcases ih (start.step e) with ⟨before, now, hpub, behind, rfl, hquiet⟩ | hquiet
    · exact .inl ⟨e :: before, now, hpub, behind, rfl, hquiet⟩
    · -- no later reload published, so the first event is the last one that did, if it did
      rcases start.step_cases e with ⟨now, k, rfl, -, hpub, -⟩ | ⟨hpub, -⟩
      · exact .inl ⟨[], now, hpub, es, rfl, hquiet⟩
      · exact .inr (List.forall_mem_cons.mpr ⟨hpub, hquiet⟩)

/-- **What is published is the compile of the files at the last reload that published.** -/
theorem current_of_lastReload {start : Site} {es before : List Event} {now : String}
    (h : LastReload start es before now) :
    ∃ k, start.publisher.compiler.compile (start.run before).files.read = .ok k
      ∧ (start.run es).publisher.current
        = ⟨(start.run es).publisher.current.version, some now, k⟩ := by
  obtain ⟨hpub, behind, rfl, hquiet⟩ := h
  rw [run_append, run_cons, publisher_run_of_quiet hquiet]
  rcases (start.run before).step_cases (.reload now false) with
    ⟨now', k, hnow, hk, -, hstep⟩ | ⟨hnot, -⟩
  · cases hnow
    rw [compiler_run] at hk
    exact ⟨k, hk, by rw [hstep]⟩
  · rw [hnot] at hpub
    exact absurd hpub Bool.false_ne_true

/-- The published digests are those of the documents at the last reload that published. -/
theorem sourceDigests_of_lastReload {start : Site} {es before : List Event} {now : String}
    (h : LastReload start es before now) :
    start.publisher.compiler.sourceDigests (start.run before).files.read
      = .ok (start.run es).publisher.current.digests := by
  obtain ⟨k, hk, hcurrent⟩ := current_of_lastReload h
  rw [Compiler.sourceDigests_eq, hk, hcurrent]
  rfl

/-- A snapshot is what was published when it was taken. -/
theorem getElem?_answers_take (s : Site) (before behind : List Event) :
    (s.answers (before ++ .take :: behind))[before.length]?
      = some (.taken (s.run before).publisher.current) := by
  rw [answers_append, List.getElem?_append_right (Nat.le_of_eq (length_answers s before)),
    length_answers, Nat.sub_self, answers_cons, List.getElem?_cons_zero]
  rfl

/-! ### Comparing the documents -/

omit [PatternLibrary] in
/-- Documents that are not the last ones compiled are others than before, and if nothing was
compiled any are. -/
theorem sourcesChanged_of_sourceDigests {p : Publisher} {read : FileReader}
    {digests : List Digest} (h : p.compiler.sourceDigests read = .ok digests) :
    p.sourcesChanged read = .ok (digests != p.current.digests) := by
  rw [Publisher.sourcesChanged, h]
  rfl

omit [PatternLibrary] in
/-- There are digests, and no empty list of them, if every document can be read. -/
theorem exists_sourceDigests {c : Compiler} {read : FileReader} (hne : c.sources.documents ≠ [])
    (h : ∀ name ∈ c.sources.documents, ∃ d, c.sources.loadDocument read name = .ok d) :
    ∃ digests, c.sourceDigests read = .ok digests ∧ digests ≠ [] := by
  obtain ⟨source, hload⟩ := SourceSet.exists_load_eq_ok hne h
  refine ⟨_, map_eq_ok.mpr ⟨source, hload, rfl⟩, ?_⟩
  rw [ne_eq, List.map_eq_nil_iff]
  exact SourceSet.documents_ne_nil_of_load hload

/-- The documents are the same exactly if there was a reload and their digests are those of the
last one. -/
theorem sourcesChanged_run {start : Site} {c : Compiler} (hstart : start.publisher = .ofCompiler c)
    (hne : c.sources.documents ≠ []) (es : List Event)
    (h : ∀ name ∈ c.sources.documents,
      ∃ d, c.sources.loadDocument (start.run es).files.read name = .ok d) :
    ∃ b, (start.run es).publisher.sourcesChanged (start.run es).files.read = .ok b
      ∧ (b = false ↔ ∃ before now, LastReload start es before now
        ∧ c.sourceDigests (start.run es).files.read
          = c.sourceDigests (start.run before).files.read) := by
  have hc : start.publisher.compiler = c := by rw [hstart]; rfl
  obtain ⟨digests, hdigests, hnil⟩ := exists_sourceDigests hne h
  refine ⟨_, sourcesChanged_of_sourceDigests (by rw [compiler_run, hc, hdigests]), ?_⟩
  rw [bne_eq_false_iff_eq, hdigests]
  have hlast : ∀ before now, LastReload start es before now →
      c.sourceDigests (start.run before).files.read
        = .ok (start.run es).publisher.current.digests := fun before now hl =>
    hc ▸ sourceDigests_of_lastReload hl
  constructor
  · intro hsame
    rcases exists_lastReload_or start es with ⟨before, now, hl⟩ | hquiet
    · exact ⟨before, now, hl, by rw [hlast before now hl, hsame]⟩
    · -- nothing was compiled, so no digest is published
      rw [publisher_run_of_quiet hquiet, hstart] at hsame
      exact absurd hsame hnil
  · rintro ⟨before, now, hl, heq⟩
    rw [hlast before now hl] at heq
    exact Except.ok.inj heq

omit [PatternLibrary] in
/-- A compiler of settings has documents. -/
theorem documents_ne_nil_of_ofSettings {settings : CompilerSettings} {c : Compiler}
    (h : Compiler.ofSettings settings = .ok c) : c.sources.documents ≠ [] := by
  obtain ⟨hne, v, -, rfl⟩ := Compiler.ofSettings_eq_ok_iff.mp h
  exact hne

/-- **What a run makes of a publisher, and what it answers.**  The version counts the reloads that
published, and there is a time exactly if there was one.  What is published is the compile of the
files at the last of them, and before the first the form of five sections without a field.  A
reload that fails or is cancelled changes nothing.  What was taken is what was published then,
whatever happens later.  The documents count as the same exactly if there was a reload and they
have the digests that they had at the last one. -/
theorem publisher_history {settings : CompilerSettings} {c : Compiler}
    (hc : Compiler.ofSettings settings = .ok c) {start : Site}
    (hstart : start.publisher = .ofCompiler c) (es : List Event) :
    (start.run es).publisher.current.version = (start.answers es).countP Answer.publishes
      ∧ ((start.run es).publisher.current.compiledAt.isSome = true
        ↔ 0 < (start.run es).publisher.current.version)
      ∧ ((start.run es).publisher.current.version = 0 →
        (start.run es).publisher.current.compilation = ⟨.ofFields fun _ => [], [], []⟩)
      ∧ (0 < (start.run es).publisher.current.version →
        ∃ before now, LastReload start es before now
          ∧ c.compile (start.run before).files.read
            = .ok (start.run es).publisher.current.compilation)
      ∧ (∀ now cancelled,
        (cancelled = true ∨ ∃ e, c.compile (start.run es).files.read = .error e) →
          (∃ e, (start.run es).answer (.reload now cancelled) = .reloaded (.error e))
            ∧ (start.run (es ++ [.reload now cancelled])).publisher.current
              = (start.run es).publisher.current)
      ∧ (∀ later, (start.answers (es ++ .take :: later))[es.length]?
        = some (.taken (start.run es).publisher.current))
      ∧ ((∀ name ∈ c.sources.documents,
          ∃ d, c.sources.loadDocument (start.run es).files.read name = .ok d) →
        ∃ b, (start.run es).answer .compare = .compared (.ok b)
          ∧ (b = false ↔ 0 < (start.run es).publisher.current.version
            ∧ ∃ before now, LastReload start es before now
              ∧ c.sourceDigests (start.run es).files.read
                = c.sourceDigests (start.run before).files.read)) := by
  have hcompiler : start.publisher.compiler = c := by rw [hstart]; rfl
  have hversion : (start.run es).publisher.current.version
      = (start.answers es).countP Answer.publishes := by
    rw [version_run, hstart]
    exact Nat.zero_add _
  -- there was a reload that published, or the publisher is as it was at the start
  have hcases : (0 < (start.run es).publisher.current.version ∧ ∃ before now k,
      LastReload start es before now ∧ c.compile (start.run before).files.read = .ok k
        ∧ (start.run es).publisher.current
          = ⟨(start.run es).publisher.current.version, some now, k⟩)
      ∨ (start.run es).publisher = .ofCompiler c := by
    rcases exists_lastReload_or start es with ⟨before, now, hl⟩ | hquiet
    · obtain ⟨k, hk, hcurrent⟩ := current_of_lastReload hl
      rw [hcompiler] at hk
      exact .inl ⟨hversion ▸ hl.countP_pos, before, now, k, hl, hk, hcurrent⟩
    · exact .inr ((publisher_run_of_quiet hquiet).trans hstart)
  refine ⟨hversion, ?_, ?_, ?_, ?_, fun later => getElem?_answers_take start es later, ?_⟩
  · rcases hcases with ⟨hpos, before, now, k, -, -, hcurrent⟩ | hinitial
    · rw [hcurrent]
      exact ⟨fun _ => hpos, fun _ => rfl⟩
    · rw [hinitial]
      exact ⟨fun h => absurd h Bool.false_ne_true, fun h => absurd h (Nat.lt_irrefl 0)⟩
  · intro hzero
    rcases hcases with ⟨hpos, -⟩ | hinitial
    · omega
    · rw [hinitial]
      rfl
  · intro hpos
    rcases hcases with ⟨-, before, now, k, hl, hk, hcurrent⟩ | hinitial
    · exact ⟨before, now, hl, by rw [hk, hcurrent]⟩
    · rw [hinitial] at hpos
      exact absurd hpos (Nat.lt_irrefl 0)
  · intro now cancelled h
    have herror : ∃ e, (start.run es).publisher.attempt (start.run es).files.read now cancelled
        = .error e := by
      apply Publisher.exists_attempt_eq_error
      rwa [compiler_run, hcompiler]
    obtain ⟨e, he⟩ := herror
    refine ⟨⟨e, by rw [answer, he]⟩, ?_⟩
    rw [run_append, run_cons, run_nil, publisher_step_reload, Publisher.reload_of_error he]
  · intro hread
    obtain ⟨b, hb, hiff⟩ := sourcesChanged_run hstart (documents_ne_nil_of_ofSettings hc) es hread
    refine ⟨b, by rw [answer, hb], ?_⟩
    rw [hiff]
    constructor
    · rintro ⟨before, now, hl, heq⟩
      exact ⟨hversion ▸ hl.countP_pos, before, now, hl, heq⟩
    · exact fun h => h.2

end Site

end Library

namespace Site

/-- Settings with one document. -/
def oneDocument : CompilerSettings := { root := "", documents := ["a.ttl"] }

/-- The compiler of these settings. -/
def oneDocumentCompiler : Compiler := ⟨oneDocument.sources, .standard, oneDocument.table⟩

/-- A reload, one that fails since the document was removed, and one that is cancelled. -/
def threeReloads : List Event :=
  [.write "a.ttl" "ex:a a owl:DatatypeProperty .".toUTF8, .reload "noon" false, .remove "a.ttl",
    .reload "one" false, .write "a.ttl" "".toUTF8, .reload "two" true]

/-- Of three reloads one published; what it published is there when the document has changed. -/
theorem threeReloads_history :
    Compiler.ofSettings oneDocument = .ok oneDocumentCompiler
      ∧ (run ⟨.empty, .ofCompiler oneDocumentCompiler⟩ threeReloads).publisher.current.version = 1
      ∧ (∃ before now,
        LastReload ⟨.empty, .ofCompiler oneDocumentCompiler⟩ threeReloads before now)
      ∧ ∃ b, (run ⟨.empty, .ofCompiler oneDocumentCompiler⟩ threeReloads).answer .compare
        = .compared (.ok b) := by
  have hc : Compiler.ofSettings oneDocument = .ok oneDocumentCompiler := by decide +kernel
  have hstart : (Site.mk .empty (.ofCompiler oneDocumentCompiler)).publisher
    = .ofCompiler oneDocumentCompiler := rfl
  obtain ⟨hversion, -, -, hlast, -, -, hcompare⟩ := publisher_history hc hstart threeReloads
  have hone : (run ⟨.empty, .ofCompiler oneDocumentCompiler⟩
      threeReloads).publisher.current.version = 1 := hversion.trans (by decide +kernel)
  obtain ⟨before, now, hl, -⟩ := hlast (by rw [hone]; exact Nat.one_pos)
  obtain ⟨b, hb, -⟩ := hcompare (by
    intro name hname
    obtain rfl := List.mem_singleton.mp hname
    exact ⟨⟨"a.ttl", ""⟩, by decide +kernel⟩)
  exact ⟨hc, hone, ⟨before, now, hl⟩, b, hb⟩

end Site

end FormOntology
