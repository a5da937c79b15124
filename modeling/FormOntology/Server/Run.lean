import FormOntology.Server

/-!
# A server over changing files

Files are written and removed while a server answers requests.  A run is a list of such events;
what it leads to is a server, and what can be seen of it are the requests with their answers.

The compile of a reload may take longer than the settings allow.  Then the request is answered and
the compile is given up.  A compile looks once whether it was given up, before it publishes: one
that finds that it was publishes nothing, but one that had looked before publishes late.  As only
one reload publishes at a time, the next one waits for it.  Reloads that a signal starts, or that
the watch over the documents starts, are not among the events.

## Main definitions

* `Server` — a server with the files that it reads.
* `Server.Ending`, `Server.Event` — how a compile ends, and what happens.
* `Server.settle` — a compile that was given up publishes.
* `Server.step`, `Server.run` — what events lead to.
* `Server.reply`, `Server.exchanges` — the answer to a request, and the requests of a run with
  their answers.
-/

namespace FormOntology

/-- A server with the files that it reads. -/
structure Server where
  /-- The files. -/
  files : FileTree
  /-- The publisher. -/
  publisher : Publisher
  /-- The settings. -/
  settings : ServerSettings
  /-- The submission that a body is read as that is no UTF-8. -/
  foreign? : ByteArray → Option Submission
  /-- What a compile that was given up is still to publish. -/
  belated : Option Compilation
  deriving Inhabited

namespace Server

/-- How the compile of a reload ends, if there is a limit on its time. -/
inductive Ending where
  /-- It ends in time. -/
  | inTime
  /-- It is given up and finds so before it publishes. -/
  | cancelled
  /-- It is given up when it has looked for that already. -/
  | late
  deriving DecidableEq, Repr, Inhabited

/-- What can happen. -/
inductive Event where
  /-- A file is written. -/
  | write (path : String) (bytes : ByteArray)
  /-- A file is removed, if there is one. -/
  | remove (path : String)
  /-- A request comes in at the time `now`; if it is for a reload, its compile ends so. -/
  | request (r : Request) (now : String) (ending : Ending)
  /-- A compile that was given up publishes at the time `now`, if there is one that still does. -/
  | settle (now : String)
  deriving Inhabited

/-- The seconds that a compile may take, if one that ends so takes longer. -/
def overdue (s : Server) (ending : Ending) : Option Nat :=
  if ending = .inTime then none else s.settings.timeout?

/-- The server when what was given up is published. -/
def settle (s : Server) (now : String) : Server :=
  match s.belated with
  | none => s
  | some k =>
    { s with
      publisher := { s.publisher with current := ⟨s.publisher.current.version + 1, some now, k⟩ }
      belated := none }

/-- Whether a request is for a reload whose compile gets to its end, for which it waits until no
other is at work. -/
def waits (s : Server) (r : Request) (ending : Ending) : Bool :=
  r.asks .reload && !((s.overdue ending).isSome && ending = .cancelled)

/-- The server when a request has waited. -/
def awaited (s : Server) (r : Request) (now : String) (ending : Ending) : Server :=
  if s.waits r ending then s.settle now else s

/-- What a request meets with besides the publisher. -/
def occasion (s : Server) (now : String) (ending : Ending) : Occasion :=
  ⟨s.files.read, now, s.overdue ending, s.foreign?⟩

/-- Whether an event is a reload whose compile is given up too late. -/
def givesUpLate (s : Server) : Event → Bool
  | .request r _ ending => r.asks .reload && (s.overdue ending).isSome && ending = .late
  | _ => false

/-! ### What waiting leaves alone -/

section Settle

variable (s : Server) (r : Request) (now : String) (ending : Ending)

theorem settle_of_none {s : Server} (h : s.belated = none) : s.settle now = s := by
  rw [settle, h]

theorem settle_of_some {s : Server} {k : Compilation} (h : s.belated = some k) :
    s.settle now = { s with
      publisher :=
        { s.publisher with current := ⟨s.publisher.current.version + 1, some now, k⟩ }
      belated := none } := by
  rw [settle, h]

@[simp] theorem files_settle : (s.settle now).files = s.files := by
  rw [settle]
  split <;> rfl

@[simp] theorem settings_settle : (s.settle now).settings = s.settings := by
  rw [settle]
  split <;> rfl

@[simp] theorem foreign?_settle : (s.settle now).foreign? = s.foreign? := by
  rw [settle]
  split <;> rfl

@[simp] theorem compiler_settle : (s.settle now).publisher.compiler = s.publisher.compiler := by
  rw [settle]
  split <;> rfl

@[simp] theorem belated_settle : (s.settle now).belated = none := by
  cases h : s.belated with
  | none => rw [settle_of_none now h, h]
  | some k => rw [settle_of_some now h]

theorem version_settle : (s.settle now).publisher.current.version
    = s.publisher.current.version + s.belated.isSome.toNat := by
  cases h : s.belated with
  | none => rw [settle_of_none now h]; rfl
  | some k => rw [settle_of_some now h]; rfl

/-- A request waits until nothing is to be published late, or comes at once. -/
theorem awaited_eq : s.awaited r now ending = if s.waits r ending then s.settle now else s := rfl

@[simp] theorem files_awaited : (s.awaited r now ending).files = s.files := by
  rw [awaited_eq]
  split <;> simp

@[simp] theorem settings_awaited : (s.awaited r now ending).settings = s.settings := by
  rw [awaited_eq]
  split <;> simp

@[simp] theorem foreign?_awaited : (s.awaited r now ending).foreign? = s.foreign? := by
  rw [awaited_eq]
  split <;> simp

@[simp] theorem compiler_awaited :
    (s.awaited r now ending).publisher.compiler = s.publisher.compiler := by
  rw [awaited_eq]
  split <;> simp

end Settle

/-! ### Events -/

variable [PatternLibrary]

/-- The answer to a request. -/
def reply (s : Server) (r : Request) (now : String) (ending : Ending) : Response :=
  ((s.awaited r now ending).publisher.respond (s.occasion now ending) r).2

/-- What an event leads to. -/
def step (s : Server) : Event → Server
  | .write path bytes => { s with files := s.files.put path bytes }
  | .remove path => { s with files := (s.files.remove? path).getD s.files }
  | .request r now ending =>
    let t := s.awaited r now ending
    { t with
      publisher := (t.publisher.respond (s.occasion now ending) r).1
      belated :=
        if s.givesUpLate (.request r now ending) then
          (t.publisher.compiler.compile s.files.read).toOption
        else t.belated }
  | .settle now => s.settle now

/-- What a list of events leads to. -/
def run (s : Server) (events : List Event) : Server := events.foldl step s

@[simp] theorem run_nil (s : Server) : s.run [] = s := rfl

@[simp] theorem run_cons (s : Server) (e : Event) (es : List Event) :
    s.run (e :: es) = (s.step e).run es := rfl

theorem run_append (s : Server) (es fs : List Event) : s.run (es ++ fs) = (s.run es).run fs :=
  List.foldl_append

/-! ### What can be seen -/

/-- The request that an event is, with its answer. -/
def exchange? (s : Server) : Event → Option (Request × Response)
  | .request r now ending => some (r, s.reply r now ending)
  | _ => none

/-- The requests of a list of events, with their answers. -/
def exchanges (s : Server) : List Event → List (Request × Response)
  | [] => []
  | e :: es => (s.exchange? e).toList ++ (s.step e).exchanges es

end Server

end FormOntology
