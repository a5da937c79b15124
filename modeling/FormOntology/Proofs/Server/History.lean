import FormOntology.Proofs.Json.Members
import FormOntology.Proofs.Publisher.History
import FormOntology.Proofs.Schema.Fingerprint
import FormOntology.Server.Run

/-!
# The history of a server

A request for a reload reloads, every other one leaves the publisher as it is, and all routes answer
from the one schema that is published.  So what was seen of a server, its answers, tells the version
that it holds, but for the compiles that were given up and published late.  A reload that is given
up has its answer before that, and the answer is an error.

## Main definitions

* `Server.reloaded` — whether a request was for a reload that was answered with 200.
* `Server.publishesLate`, `Server.publishedLate` — what is published late, at one event and in a
  run.
* `Server.Answers` — the answers of a server that holds a published schema.

## Main results

* `Diagnostic.toJson_inj` — a diagnostic is given away by its JSON value.
* `Publisher.respond_cases`, `Publisher.respondReload_cases` — what a request can come to.
* `startServer_eq_ok_iff` — a server starts with the first version.
* `Server.version_run` — the version counts the reloads that were answered with 200 and what was
  published late.
* `Server.publishedLate_le` — nothing is published late unless a compile is given up too late.
* `Server.server_history` — **what a server answers, whatever it was asked before.**
-/

namespace FormOntology

/-! ### Diagnostics as JSON values -/

namespace Diagnostic

theorem member?_kind_toJson (d : Diagnostic) :
    d.toJson.member? "kind" = some (.string d.defect.kind) := by
  rcases d with ⟨defect, property, location⟩
  cases defect <;> simp [toJson]

theorem member?_property_toJson (d : Diagnostic) :
    d.toJson.member? "property" = some (.string d.property) := by
  rcases d with ⟨defect, property, location⟩
  cases defect <;> simp [toJson]

theorem member?_location_toJson (d : Diagnostic) :
    d.toJson.member? "location" = some d.location.toJson := by
  rcases d with ⟨defect, property, location⟩
  cases defect <;> simp [toJson]

/-- A diagnostic is given away by its JSON value. -/
theorem toJson_inj {d e : Diagnostic} (h : d.toJson = e.toJson) : d = e := by
  have hmember : ∀ name, d.toJson.member? name = e.toJson.member? name := fun name => by rw [h]
  have hkind : d.defect.kind = e.defect.kind := by
    simpa [member?_kind_toJson] using hmember "kind"
  have hproperty : d.property = e.property := by
    simpa [member?_property_toJson] using hmember "property"
  have hlocation : d.location = e.location :=
    Location.toJson_inj (by simpa [member?_location_toJson] using hmember "location")
  have hdefect : d.defect = e.defect := by
    rcases d with ⟨defect, property, location⟩
    rcases e with ⟨defect', property', location'⟩
    -- defects of two kinds have two names, and those of one kind tell what they hold
    cases defect <;> cases defect' <;> try (simp [Defect.kind] at hkind; done)
    case missingLabel.missingLabel => rfl
    case missingDomain.missingDomain => rfl
    case truncatedBlock.truncatedBlock => rfl
    case unrecognizedRange.unrecognizedRange =>
      exact congrArg Defect.unrecognizedRange (by simpa [toJson] using hmember "range")
    case duplicateProperty.duplicateProperty =>
      exact congrArg Defect.duplicateProperty
        (Location.toJson_inj (by simpa [toJson] using hmember "first_declared_at"))
    case invalidPattern.invalidPattern =>
      exact congrArg₂ Defect.invalidPattern (by simpa [toJson] using hmember "pattern")
        (by simpa [toJson] using hmember "message")
    case unknownFormType.unknownFormType =>
      exact congrArg Defect.unknownFormType (by simpa [toJson] using hmember "form_type")
    case unknownClass.unknownClass =>
      exact congrArg Defect.unknownClass (by simpa [toJson] using hmember "class")
  cases d
  cases e
  simp_all

end Diagnostic

/-! ### One request -/

theorem Route.ofPath?_path (route : Route) : ofPath? route.path = some route := by
  cases route <;> decide

/-- A request is for one route only. -/
theorem Request.asks_unique {r : Request} {a b : Route} (ha : r.asks a = true)
    (hb : r.asks b = true) : a = b := by
  simp only [asks, Bool.and_eq_true, beq_iff_eq] at ha hb
  rw [← Option.some_inj, ← Route.ofPath?_path a, ← ha.2, hb.2, Route.ofPath?_path]

section Library

variable [PatternLibrary]

namespace Publisher

variable {p : Publisher} {o : Occasion} {r : Request}

theorem respond_of_asks {route : Route} (h : r.asks route = true) :
    p.respond o r = p.follow o r.body route := by
  simp only [Request.asks, Bool.and_eq_true, beq_iff_eq] at h
  simp [respond, h.2, Route.ofPath?_path, h.1]

/-- A request is for one route, or it is refused and leaves the publisher as it is. -/
theorem respond_cases (p : Publisher) (o : Occasion) (r : Request) :
    (∃ route, r.asks route = true ∧ p.respond o r = p.follow o r.body route)
      ∨ (∀ route, r.asks route = false) ∧ (p.respond o r).1 = p := by
  by_cases h : ∃ route, r.asks route = true
  · obtain ⟨route, hroute⟩ := h
    exact .inl ⟨route, hroute, respond_of_asks hroute⟩
  · refine .inr ⟨fun route => Bool.eq_false_iff.mpr fun hroute => h ⟨route, hroute⟩, ?_⟩
    rw [respond]
    split
    · rfl
    · next route hpath =>
      have hfound : r.path = route.path := by
        rw [Route.ofPath?, List.find?_eq_some_iff_append] at hpath
        exact (beq_iff_eq.mp hpath.1).symm
      split
      · rfl
      · next hmethod =>
        exact absurd ⟨route, by simp [Request.asks, hfound, not_not.mp hmethod]⟩ h

/-- No request but one for a reload changes the publisher. -/
theorem respond_fst_of_not_reload (h : r.asks .reload = false) : (p.respond o r).1 = p := by
  rcases p.respond_cases o r with ⟨route, hroute, hrespond⟩ | ⟨-, hsame⟩
  · rw [hrespond]
    cases route with
    | reload => rw [h] at hroute; cases hroute
    | _ => rfl
  · exact hsame

/-- A reload that is done in time publishes its compile and is answered with 200.  One that cannot
compile or is overdue changes nothing and is answered with 500. -/
theorem respondReload_cases (p : Publisher) (o : Occasion) :
    (∃ k, o.overdue = none ∧ p.compiler.compile o.read = .ok k
        ∧ (p.respondReload o).2.status = 200
        ∧ (p.respondReload o).1
          = { p with current := ⟨p.current.version + 1, some o.now, k⟩ })
      ∨ ((o.overdue.isSome = true ∨ ∃ e, p.compiler.compile o.read = .error e)
        ∧ (p.respondReload o).2.status = 500 ∧ (p.respondReload o).1 = p) := by
  cases hlimit : o.overdue with
  | some limit => exact .inr ⟨.inl rfl, by simp [respondReload, hlimit, Response.timedOut,
      Response.failure]⟩
  | none =>
    cases hk : p.compiler.compile o.read with
    | error e =>
      exact .inr ⟨.inr ⟨e, rfl⟩, by simp [respondReload, reload, attempt, hlimit, hk,
        Response.failure]⟩
    | ok k => exact .inl ⟨k, rfl, rfl, by simp [respondReload, reload, attempt, hlimit, hk]⟩

/-- The version counts the reloads that are answered with 200. -/
theorem version_respond (p : Publisher) (o : Occasion) (r : Request) :
    (p.respond o r).1.current.version
      = p.current.version + (r.asks .reload && (p.respond o r).2.status == 200).toNat := by
  cases hr : r.asks .reload with
  | false =>
    rw [respond_fst_of_not_reload hr]
    rfl
  | true =>
    rw [respond_of_asks hr, follow]
    rcases p.respondReload_cases o with ⟨k, -, -, hstatus, hp⟩ | ⟨-, hstatus, hp⟩
    · rw [hstatus, hp]
      rfl
    · rw [hstatus, hp]
      rfl

/-- Only a reload that is answered with 200 changes the publisher. -/
theorem respond_fst_of_not_ok (h : (r.asks .reload && (p.respond o r).2.status == 200) = false) :
    (p.respond o r).1 = p := by
  cases hr : r.asks .reload with
  | false => exact respond_fst_of_not_reload hr
  | true =>
    rw [respond_of_asks hr, follow] at h ⊢
    rcases p.respondReload_cases o with ⟨k, -, -, hstatus, -⟩ | ⟨-, -, hp⟩
    · simp [hr, hstatus] at h
    · exact hp

/-- An overdue reload is answered with an error and changes nothing. -/
theorem respond_of_overdue {limit : Nat} (h : r.asks .reload = true) (ho : o.overdue = some limit) :
    p.respond o r = (p, .timedOut limit) := by
  rw [respond_of_asks h, follow, respondReload, ho]

end Publisher

/-! ### Starting -/

/-- A server starts with the first version, the compile of its files. -/
theorem startServer_eq_ok_iff {settings : CompilerSettings} {read : FileReader} {now : String}
    {p : Publisher} : startServer settings read now = .ok p ↔
      ∃ c k, Compiler.ofSettings settings = .ok c ∧ c.compile read = .ok k
        ∧ p = ⟨c, ⟨1, some now, k⟩⟩ := by
  simp only [startServer, bind_eq_ok, mapError_eq_ok, Publisher.attempt_eq_ok_iff]
  constructor
  · rintro ⟨c, hc, q, ⟨-, k, hk, rfl⟩, hp⟩
    cases hp
    exact ⟨c, k, hc, hk, rfl⟩
  · rintro ⟨c, k, hc, hk, rfl⟩
    exact ⟨c, hc, _, ⟨trivial, k, hk, rfl⟩, rfl⟩

end Library

namespace Server

/-- Whether a request was for a reload that was answered with 200. -/
def reloaded (x : Request × Response) : Bool := x.1.asks .reload && x.2.status == 200

theorem countP_toList {α : Type} (p : α → Bool) (o : Option α) :
    o.toList.countP p = (o.any p).toNat := by
  cases o with
  | none => rfl
  | some a => cases h : p a <;> simp [h]

/-! ### What is published late -/

/-- Whether an event waits for the compile that was given up. -/
def settles (s : Server) : Event → Bool
  | .request r _ ending => s.waits r ending
  | .settle _ => true
  | _ => false

/-- Whether a compile that was given up is published at an event. -/
def publishesLate (s : Server) (e : Event) : Bool := s.belated.isSome && s.settles e

section Settle

variable (s : Server) (r : Request) (now : String) (ending : Ending)

theorem version_awaited : (s.awaited r now ending).publisher.current.version
    = s.publisher.current.version + (s.publishesLate (.request r now ending)).toNat := by
  rw [awaited_eq, publishesLate, settles]
  cases s.waits r ending with
  | true => rw [if_pos rfl, version_settle, Bool.and_true]
  | false => rw [if_neg Bool.false_ne_true, Bool.and_false]; rfl

variable {s r now ending}

theorem awaited_of_not_publishesLate (h : s.publishesLate (.request r now ending) = false) :
    s.awaited r now ending = s := by
  rw [awaited_eq]
  split
  · next hwaits =>
    rw [publishesLate, settles, hwaits, Bool.and_true] at h
    exact settle_of_none now (Option.isNone_iff_eq_none.mp (by simpa using h))
  · rfl

/-- No request but one for a reload waits. -/
theorem awaited_of_not_reload (h : r.asks .reload = false) : s.awaited r now ending = s := by
  simp [awaited_eq, waits, h]

end Settle

/-! ### One event -/

section Library

variable [PatternLibrary] (s : Server) (e : Event)

@[simp] theorem settings_step : (s.step e).settings = s.settings := by
  cases e <;> simp [step]

@[simp] theorem foreign?_step : (s.step e).foreign? = s.foreign? := by
  cases e <;> simp [step]

@[simp] theorem givesUpLate_step : (s.step e).givesUpLate = s.givesUpLate := by
  funext e'
  cases e' <;> simp [givesUpLate, overdue]

/-- An event raises the version by one if a compile that was given up is published, and by one more
if it is a reload that is answered with 200. -/
theorem version_step : (s.step e).publisher.current.version
    = s.publisher.current.version + ((s.exchange? e).any reloaded).toNat
      + (s.publishesLate e).toNat := by
  cases e with
  | write path bytes => simp [step, exchange?, publishesLate, settles]
  | remove path => simp [step, exchange?, publishesLate, settles]
  | settle now => simp [step, exchange?, publishesLate, settles, version_settle]
  | request r now ending =>
    rw [Nat.add_right_comm, ← version_awaited]
    exact Publisher.version_respond ..

/-- Only a reload that is answered with 200 and what is published late change the publisher. -/
theorem publisher_step_of_quiet {s : Server} {e : Event}
    (h : (s.exchange? e).any reloaded = false) (hlate : s.publishesLate e = false) :
    (s.step e).publisher = s.publisher := by
  cases e with
  | write path bytes => rw [step]
  | remove path => rw [step]
  | settle now =>
    rw [publishesLate, settles, Bool.and_true] at hlate
    rw [step, settle_of_none now (Option.isNone_iff_eq_none.mp (by simpa using hlate))]
  | request r now ending =>
    simp only [exchange?, Option.any_some, reloaded, reply, awaited_of_not_publishesLate hlate] at h
    simp only [step, awaited_of_not_publishesLate hlate]
    exact Publisher.respond_fst_of_not_ok h

/-- A compile that is still to be published was given up too late. -/
theorem belated_step (h : s.givesUpLate e = false) :
    (s.step e).belated = if s.settles e then none else s.belated := by
  cases e with
  | write path bytes => simp [step, settles]
  | remove path => simp [step, settles]
  | settle now => exact belated_settle s now
  | request r now ending =>
    rw [step, settles]
    simp only [h, Bool.false_eq_true, if_false, awaited_eq]
    split
    · exact belated_settle s now
    · rfl

/-- What is published late was given up too late before. -/
theorem publishesLate_step_le : (s.publishesLate e).toNat + (s.step e).belated.isSome.toNat
    ≤ s.belated.isSome.toNat + (s.givesUpLate e).toNat := by
  cases hlate : s.givesUpLate e with
  | true =>
    have hpublishes : (s.publishesLate e).toNat ≤ s.belated.isSome.toNat := by
      rw [publishesLate]
      cases s.belated.isSome <;> simp [Bool.toNat_le]
    exact Nat.add_le_add hpublishes (Bool.toNat_le _)
  | false =>
    rw [belated_step s e hlate, publishesLate]
    cases s.settles e <;> simp

/-! ### Runs -/

variable (es : List Event)

@[simp] theorem foreign?_run : (s.run es).foreign? = s.foreign? := by
  induction es generalizing s with
  | nil => rfl
  | cons e es ih => rw [run_cons, ih, foreign?_step]

@[simp] theorem settings_run : (s.run es).settings = s.settings := by
  induction es generalizing s with
  | nil => rfl
  | cons e es ih => rw [run_cons, ih, settings_step]

/-- How often a compile that was given up is published. -/
def publishedLate (s : Server) : List Event → Nat
  | [] => 0
  | e :: es => (s.publishesLate e).toNat + (s.step e).publishedLate es

/-- **The version counts the reloads that were answered with 200, and what was published late.** -/
theorem version_run : (s.run es).publisher.current.version
    = s.publisher.current.version + (s.exchanges es).countP reloaded + s.publishedLate es := by
  induction es generalizing s with
  | nil => rfl
  | cons e es ih =>
    rw [run_cons, ih, version_step, exchanges, List.countP_append, countP_toList, publishedLate]
    omega

/-- What is published late, and what is still to be, was given up too late. -/
theorem publishedLate_add_le : s.publishedLate es + (s.run es).belated.isSome.toNat
    ≤ s.belated.isSome.toNat + es.countP s.givesUpLate := by
  induction es generalizing s with
  | nil => exact Nat.le_of_eq (Nat.add_comm ..)
  | cons e es ih =>
    have hstep := publishesLate_step_le s e
    have hrest := ih (s.step e)
    rw [givesUpLate_step] at hrest
    have hcount : (e :: es).countP s.givesUpLate
        = es.countP s.givesUpLate + (s.givesUpLate e).toNat := by
      rw [List.countP_cons]
      cases s.givesUpLate e <;> rfl
    rw [run_cons, publishedLate, hcount]
    omega

/-- Nothing is published late unless a compile is given up too late. -/
theorem publishedLate_le {s : Server} (h : s.belated = none) :
    s.publishedLate es ≤ es.countP s.givesUpLate := by
  have hle := publishedLate_add_le s es
  rw [h] at hle
  exact Nat.le_trans (Nat.le_add_right ..) (Nat.le_trans hle (Nat.le_of_eq (Nat.zero_add _)))

/-- A run without a reload that is answered with 200, in which nothing is published late, leaves the
publisher as it is. -/
theorem publisher_run_of_quiet {s : Server} {es : List Event}
    (h : ∀ x ∈ s.exchanges es, reloaded x = false) (hlate : s.publishedLate es = 0) :
    (s.run es).publisher = s.publisher := by
  induction es generalizing s with
  | nil => rfl
  | cons e es ih =>
    rw [exchanges, List.forall_mem_append] at h
    rw [publishedLate, Nat.add_eq_zero_iff, Bool.toNat_eq_zero] at hlate
    have hexchange : (s.exchange? e).any reloaded = false := by
      rw [Option.any_eq_false]
      exact fun x hx => h.1 x (Option.mem_toList.mpr hx)
    rw [run_cons, ih h.2 hlate.2, publisher_step_of_quiet hexchange hlate.1]

/-! ### Answers after any run -/

/-- A request that is not for a reload is answered from what is published. -/
theorem reply_of_asks {s : Server} {r : Request} {route : Route} (h : r.asks route = true)
    (hroute : route ≠ .reload) (now : String) (ending : Ending) :
    s.reply r now ending = (s.publisher.follow (s.occasion now ending) r.body route).2 := by
  have hreload : r.asks .reload = false :=
    Bool.eq_false_iff.mpr fun hr => hroute (Request.asks_unique h hr)
  rw [reply, awaited_of_not_reload hreload, Publisher.respond_of_asks h]

/-- A reload is answered with 200 or with 500. -/
theorem status_reply_of_reload {s : Server} {r : Request} (h : r.asks .reload = true)
    (now : String) (ending : Ending) :
    (s.reply r now ending).status = 200 ∨ (s.reply r now ending).status = 500 := by
  rw [reply, Publisher.respond_of_asks h, Publisher.follow]
  rcases (s.awaited r now ending).publisher.respondReload_cases (s.occasion now ending) with
    ⟨k, -, -, hstatus, -⟩ | ⟨-, hstatus, -⟩
  · exact .inl hstatus
  · exact .inr hstatus

/-- The answers of a server that holds a published schema and reads what is no UTF-8 by
`foreign?`. -/
structure Answers (s : Server) (p : Published) (foreign? : ByteArray → Option Submission) :
    Prop where
  /-- The schema is sent with its version. -/
  ontology : ∀ r now ending, r.asks .ontology = true →
    s.reply r now ending = ⟨200, .json p.toJson⟩
      ∧ p.toJson.member? "version" = some (.nat p.version)
      ∧ ∀ schema : Schema, p.toJson.member? "schema" = some schema.toJson
        ↔ schema = p.compilation.schema
  /-- The diagnostics are sent with the version and their number. -/
  diagnostics : ∀ r now ending, r.asks .diagnostics = true →
    ∃ j, s.reply r now ending = ⟨200, .json j⟩
      ∧ j.member? "version" = some (.nat p.version)
      ∧ j.member? "count" = some (.nat p.compilation.diagnostics.length)
      ∧ ∀ ds : List Diagnostic, j.member? "diagnostics" = some (.array (ds.map Diagnostic.toJson))
        ↔ ds = p.compilation.diagnostics
  /-- A body without a submission is refused, and a submission is checked. -/
  validate : ∀ r now ending, r.asks .validate = true →
    ((s.reply r now ending).status = 400 ↔ Submission.ofBody? foreign? r.body = none)
      ∧ ∀ sub, Submission.ofBody? foreign? r.body = some sub →
        (s.reply r now ending).body = .json (p.compilation.schema.check sub).toJson
          ∧ ((s.reply r now ending).status = 200
            ↔ (p.compilation.schema.check sub).valid = true)
          ∧ ((s.reply r now ending).status = 422
            ↔ (p.compilation.schema.check sub).valid = false)

/-- A server answers from what its publisher holds. -/
theorem answers_current (s : Server) : s.Answers s.publisher.current s.foreign? where
  ontology r now ending hr := by
    refine ⟨reply_of_asks hr (by decide) now ending, ?_⟩
    simp only [Published.toJson, Json.member?_object, Json.lookup_member]
    refine ⟨rfl, fun schema => ⟨fun h => ?_, fun h => by rw [h]; rfl⟩⟩
    exact (Schema.toJson_inj (by simpa using h)).symm
  diagnostics r now ending hr := by
    refine ⟨_, reply_of_asks hr (by decide) now ending, ?_⟩
    simp only [Published.diagnosticsJson, Json.member?_object, Json.lookup_member]
    refine ⟨rfl, rfl, fun ds => ⟨fun h => ?_, fun h => by rw [h]; rfl⟩⟩
    exact (eq_of_map_eq (fun _ _ _ _ => Diagnostic.toJson_inj) (by simpa using h)).symm
  validate r now ending hr := by
    have hreply : s.reply r now ending
        = s.publisher.judge (Submission.ofBody? s.foreign? r.body) :=
      reply_of_asks hr (by decide) now ending
    rw [hreply]
    cases Submission.ofBody? s.foreign? r.body with
    | none => simp [Publisher.judge, Response.failure]
    | some sub =>
      cases hvalid : (s.publisher.current.compilation.schema.check sub).valid <;>
        simp [Publisher.judge, hvalid]

section GivenUp

variable {s : Server} {r : Request} {limit : Nat} {k : Compilation}

theorem respond_occasion {ending : Ending} (h : r.asks .reload = true)
    (hlimit : s.overdue ending = some limit) (p : Publisher) (now : String) :
    p.respond (s.occasion now ending) r = (p, .timedOut limit) :=
  Publisher.respond_of_overdue h hlimit

/-- A reload that is given up is answered with an error. -/
theorem reply_of_overdue {ending : Ending} (h : r.asks .reload = true)
    (hlimit : s.overdue ending = some limit) (now : String) :
    s.reply r now ending = .timedOut limit := by
  rw [reply, respond_occasion h hlimit]

/-- A reload that is given up in time changes nothing. -/
theorem publisher_step_of_cancelled (h : r.asks .reload = true)
    (hlimit : s.overdue .cancelled = some limit) (now : String) :
    (s.step (.request r now .cancelled)).publisher = s.publisher := by
  have hawaited : s.awaited r now .cancelled = s := by simp [awaited_eq, waits, h, hlimit]
  rw [step]
  simp only [respond_occasion h hlimit, hawaited]

/-- The compile of a reload that is given up too late is published behind the answer, under the next
version. -/
theorem current_settle_of_late (h : r.asks .reload = true) (hlimit : s.overdue .late = some limit)
    (hk : s.publisher.compiler.compile s.files.read = .ok k) (now later : String) :
    ((s.step (.request r now .late)).settle later).publisher.current
      = ⟨s.publisher.current.version + s.belated.isSome.toNat + 1, some later, k⟩ := by
  have hawaited : s.awaited r now .late = s.settle now := by simp [awaited_eq, waits, h]
  have hgives : s.givesUpLate (.request r now .late) = true := by simp [givesUpLate, h, hlimit]
  have hbelated : (s.step (.request r now .late)).belated = some k := by
    rw [step]
    simp only [hgives, if_true, hawaited, compiler_settle, hk, Except.toOption]
  have hpublisher : (s.step (.request r now .late)).publisher = (s.settle now).publisher := by
    rw [step]
    simp only [respond_occasion h hlimit, hawaited]
  rw [settle_of_some later hbelated, hpublisher, version_settle]

end GivenUp

/-- **What a server answers, whatever it was asked before and however its files changed.**  The
version is one more than the number of reloads that were answered with 200 and of the compiles that
were published late, and nothing is published late unless a compile is given up too late.  All
answers are from what is published.  A reload is answered with 200 or with 500.  Nothing but a
reload that is answered with 200 and a compile that is published late changes what is published, so
the answers with it are the same until then.  A reload that is given up is answered with 500; if it
is given up too late its compile is published all the same. -/
theorem server_history {settings : CompilerSettings} {s : Server} {start : String}
    (hstart : startServer settings s.files.read start = .ok s.publisher)
    (hidle : s.belated = none) (es : List Event) :
    (s.run es).publisher.current.version
        = 1 + (s.exchanges es).countP reloaded + s.publishedLate es
      ∧ s.publishedLate es ≤ es.countP s.givesUpLate
      ∧ (s.run es).Answers (s.run es).publisher.current s.foreign?
      ∧ (∀ r now ending, r.asks .reload = true →
        ((s.run es).reply r now ending).status = 200
          ∨ ((s.run es).reply r now ending).status = 500)
      ∧ (∀ e, ((s.run es).exchange? e).any reloaded = false → (s.run es).publishesLate e = false →
        (s.run (es ++ [e])).publisher = (s.run es).publisher)
      ∧ (∀ later, (∀ x ∈ (s.run es).exchanges later, reloaded x = false) →
        (s.run es).publishedLate later = 0 →
          ∀ r r' now now' ending ending', r.asks .ontology = true → r'.asks .ontology = true →
            (s.run (es ++ later)).reply r' now' ending' = (s.run es).reply r now ending)
      ∧ ∀ r limit k now later, r.asks .reload = true → s.settings.timeout? = some limit →
        (s.run es).publisher.compiler.compile (s.run es).files.read = .ok k →
          (s.run es).reply r now .cancelled = .timedOut limit
            ∧ (s.run es).reply r now .late = .timedOut limit
            ∧ (s.run (es ++ [.request r now .cancelled])).publisher = (s.run es).publisher
            ∧ (s.run (es ++ [.request r now .late, .settle later])).publisher.current
              = ⟨(s.run es).publisher.current.version + (s.run es).belated.isSome.toNat + 1,
                some later, k⟩ := by
  refine ⟨?_, publishedLate_le es hidle, foreign?_run s es ▸ answers_current _,
    fun r now ending hr => status_reply_of_reload hr now ending, fun e he hlate => ?_,
    fun later hlater hlate r r' now now' ending ending' hr hr' => ?_,
    fun r limit k now later hr hlimit hk => ?_⟩
  · obtain ⟨c, k, -, -, hp⟩ := startServer_eq_ok_iff.mp hstart
    rw [version_run, hp]
  · rw [run_append, run_cons, run_nil]
    exact publisher_step_of_quiet he hlate
  · rw [((answers_current _).ontology r' now' ending' hr').1,
      ((answers_current _).ontology r now ending hr).1, run_append,
      publisher_run_of_quiet hlater hlate]
  · have hcancelled : (s.run es).overdue .cancelled = some limit := by
      rw [overdue, settings_run, hlimit]
      rfl
    have hlate : (s.run es).overdue .late = some limit := by
      rw [overdue, settings_run, hlimit]
      rfl
    rw [run_append, run_append]
    exact ⟨reply_of_overdue hr hcancelled now, reply_of_overdue hr hlate now,
      publisher_step_of_cancelled hr hcancelled now, current_settle_of_late hr hlate hk now later⟩

end Library

/-- A document with one question that must be answered. -/
def nameDocument : ByteArray :=
  ("ex:name a owl:DatatypeProperty ; rdfs:label \"Name\" ; rdfs:domain ex:Driver ; " ++
    "ex:isRequired true .").toUTF8

/-- A server that started with this document. -/
def oneDocumentServer : Server :=
  let files := FileTree.empty.put "a.ttl" nameDocument
  ⟨files, ⟨Site.oneDocumentCompiler, ⟨1, some "noon",
      match Site.oneDocumentCompiler.compile files.read with | .ok k => k | .error _ => default⟩⟩,
    {}, fun _ => none, none⟩

/-- A request for a route. -/
def requestFor (route : Route) (body : String) : Request :=
  ⟨route.method, route.path, body.toUTF8⟩

/-- A reload that fails since the document was removed, one that does not, and one that is given up
too late, so that its compile is published behind the answer. -/
def reloadsOfServer : List Event :=
  [.remove "a.ttl", .request (requestFor .reload "") "one" .inTime, .write "a.ttl" nameDocument,
    .request (requestFor .reload "") "two" .inTime,
    .request (requestFor .reload "") "three" .late, .settle "four"]

/-- The body of a submission that answers the question. -/
def answered : String := "\x7b\"section\":\"drivers\",\"fields\":\x7b\"name\":\"Ann\"\x7d\x7d"

/-- The body of a submission that does not. -/
def unanswered : String := "\x7b\"section\":\"drivers\",\"fields\":\x7b\x7d\x7d"

/-- The server after these events. -/
def lateServer : Server := oneDocumentServer.run reloadsOfServer

/-- Of three reloads one is answered with 200, but the version is three, since the last one was
published all the same; submissions are checked against the question. -/
theorem oneDocumentServer_history :
    startServer Site.oneDocument oneDocumentServer.files.read "noon"
        = .ok oneDocumentServer.publisher
      ∧ oneDocumentServer.belated = none
      ∧ (oneDocumentServer.exchanges reloadsOfServer).map (·.2.status) = [500, 200, 500]
      ∧ lateServer.publisher.current.version = 3
      ∧ (∃ j, lateServer.reply (requestFor .ontology "") "five" .inTime = ⟨200, .json j⟩
        ∧ j.member? "version" = some (.nat 3))
      ∧ (lateServer.reply (requestFor .validate answered) "six" .inTime).status = 200
      ∧ (lateServer.reply (requestFor .validate unanswered) "six" .inTime).status = 422
      ∧ (lateServer.reply (requestFor .validate "") "six" .inTime).status = 400 := by
  have hstart : startServer Site.oneDocument oneDocumentServer.files.read "noon"
      = .ok oneDocumentServer.publisher := by decide +kernel
  have hstatus : (oneDocumentServer.exchanges reloadsOfServer).map (·.2.status)
      = [500, 200, 500] := by decide +kernel
  obtain ⟨hversion, -, hanswers, -⟩ :
      _ ∧ _ ∧ lateServer.Answers lateServer.publisher.current oneDocumentServer.foreign? ∧ _ :=
    server_history hstart rfl reloadsOfServer
  have hthree : lateServer.publisher.current.version = 3 := hversion.trans (by decide +kernel)
  have hontology := hanswers.ontology (requestFor .ontology "") "five" .inTime (by decide)
  have hvalidate := fun body => hanswers.validate (requestFor .validate body) "six" .inTime
  have hanswered : (Submission.ofBody? oneDocumentServer.foreign?
      (requestFor .validate answered).body).any
      (fun sub => (lateServer.publisher.current.compilation.schema.check sub).valid) = true := by
    decide +kernel
  have hunanswered : (Submission.ofBody? oneDocumentServer.foreign?
      (requestFor .validate unanswered).body).any
      (fun sub => !(lateServer.publisher.current.compilation.schema.check sub).valid) = true := by
    decide +kernel
  obtain ⟨sub, hsub, hvalid⟩ := (Option.any_eq_true ..).mp hanswered
  obtain ⟨sub', hsub', hfaulty⟩ := (Option.any_eq_true ..).mp hunanswered
  have hnothing : Submission.ofBody? oneDocumentServer.foreign?
      (requestFor .validate "").body = none := by
    decide +kernel
  refine ⟨hstart, rfl, hstatus, hthree, ⟨_, hontology.1, ?_⟩, ?_, ?_, ?_⟩
  · rw [hontology.2.1]
    exact congrArg (some ∘ Json.nat) hthree
  · exact ((hvalidate answered (by decide)).2 sub hsub).2.1.mpr hvalid
  · exact ((hvalidate unanswered (by decide)).2 sub' hsub').2.2.mpr (by simpa using hfaulty)
  · exact (hvalidate "" (by decide)).1.mpr hnothing

end Server

end FormOntology
