import FormOntology.Publisher
import FormOntology.Settings.Basic
import FormOntology.Submission.Check

/-!
# The server

The server answers requests for the published schema, checks submissions against it and reloads it.
It does not start before a first reload has gone well, so there always is a published schema.

## Main definitions

* `Request`, `Response` — requests and answers.
* `Route`, `Request.asks` — the routes, and whether a request is for one.
* `Submission.ofBody?` — the submission in the body of a request.
* `Publisher.follow`, `Publisher.respond` — the answer to a request, and the publisher after it.
* `StartFault`, `startServer` — the publisher of a server that starts.
-/

namespace FormOntology

/-! ### What is sent -/

/-- A document as a JSON value: its name and its digest. -/
def DocumentSpan.toJson (d : DocumentSpan) : Json :=
  .object [("path", .string d.path), ("digest", .string d.digest.text)]

namespace Published

/-- A published schema as a JSON value. -/
def toJson (p : Published) : Json :=
  .object
    [("version", .nat p.version),
     ("compiled_at", match p.compiledAt with | none => .null | some time => .string time),
     ("schema", p.compilation.schema.toJson),
     ("diagnostics", .array (p.compilation.diagnostics.map Diagnostic.toJson)),
     ("sources", .array (p.compilation.documents.map DocumentSpan.toJson))]

/-- The diagnostics of a published schema as a JSON value: the program's `DiagnosticsPayload`. -/
def diagnosticsJson (p : Published) : Json :=
  .object
    [("version", .nat p.version), ("count", .nat p.compilation.diagnostics.length),
     ("diagnostics", .array (p.compilation.diagnostics.map Diagnostic.toJson))]

/-- What is told of a reload as a JSON value: the program's `ReloadPayload`. -/
def reloadJson (p : Published) : Json :=
  .object
    [("version", .nat p.version),
     ("fingerprint", .string p.compilation.schema.fingerprint.text),
     ("fields", .nat p.compilation.schema.fieldCount),
     ("diagnostics", .nat p.compilation.diagnostics.length)]

end Published

/-- The text of an error and of what caused it. -/
def SourceError.chain (e : SourceError) : String :=
  match e with
  | .unreadable _ fault => e.message ++ ": " ++ fault.message
  | _ => e.message

/-- The text of an error and of what caused it. -/
def ReloadError.chain (e : ReloadError) : String :=
  match e with
  | .source e => e.chain
  | .cancelled => e.message

/-! ### Requests -/

/-- A request. -/
structure Request where
  /-- The method. -/
  method : String
  /-- The path, with a query if there is one. -/
  target : String
  /-- The body. -/
  body : ByteArray
  deriving Inhabited

/-- The path of a request, without the query. -/
def Request.path (r : Request) : String :=
  String.ofList (r.target.toList.takeWhile fun c => c ≠ '?' ∧ c ≠ '#')

/-- The body of an answer. -/
inductive Body where
  /-- Plain text. -/
  | plain (text : String)
  /-- A JSON value. -/
  | json (value : Json)
  deriving Inhabited

namespace Body

/-- The content type. -/
def contentType : Body → String
  | plain _ => "text/plain; charset=utf-8"
  | json _ => "application/json"

/-- What is sent. -/
def text : Body → String
  | plain text => text
  | json value => String.ofList value.compact

end Body

/-- An answer. -/
structure Response where
  /-- The status. -/
  status : Nat
  /-- The body. -/
  body : Body
  deriving Inhabited

namespace Response

/-- What is sent as the body; an answer to `HEAD` has none. -/
def payload (a : Response) (r : Request) : String := if r.method = "HEAD" then "" else a.body.text

/-- An answer that reports an error. -/
def failure (status : Nat) (message : String) : Response :=
  ⟨status, .json (.object [("error", .string message)])⟩

/-- The answer to a reload whose compile is given up. -/
def timedOut (limit : Nat) : Response :=
  failure 500 ("schema compile timed out after " ++ toString limit ++ "s")

end Response

/-- What a path leads to. -/
inductive Route where
  /-- Whether the server is alive. -/
  | health
  /-- The published schema. -/
  | ontology
  /-- Its diagnostics. -/
  | diagnostics
  /-- The check of a submission. -/
  | validate
  /-- A reload. -/
  | reload
  deriving DecidableEq, Repr, Inhabited

namespace Route

/-- The path of a route. -/
def path : Route → String
  | health => "/healthz"
  | ontology => "/api/ontology"
  | diagnostics => "/api/diagnostics"
  | validate => "/api/validate"
  | reload => "/admin/reload"

/-- The method of a route. -/
def method : Route → String
  | validate => "POST"
  | reload => "POST"
  | _ => "GET"

/-- The routes. -/
def all : List Route := [health, ontology, diagnostics, validate, reload]

/-- The route of a path. -/
def ofPath? (path : String) : Option Route := all.find? (·.path == path)

end Route

/-- Whether a request is for a route, by its method and its path. -/
def Request.asks (r : Request) (route : Route) : Bool :=
  r.method == route.method && r.path == route.path

/-! ### Answers -/

/-- What a request meets with besides the publisher. -/
structure Occasion where
  /-- The files. -/
  read : FileReader
  /-- The time. -/
  now : String
  /-- The seconds that a compile may take, if the compile of a reload is not done by then. -/
  overdue : Option Nat
  /-- The submission that a body is read as that is no UTF-8.  There can be one if all that is
  none stands in members that nobody asks for. -/
  foreign? : ByteArray → Option Submission

/-- The submission in the body of a request. -/
def Submission.ofBody? (foreign? : ByteArray → Option Submission) (body : ByteArray) :
    Option Submission :=
  match decodeText body with
  | .ok text => parse? text
  | .error _ => foreign? body

namespace Publisher

variable [PatternLibrary]

/-- The answer to a request with a submission. -/
def judge (p : Publisher) (sub : Option Submission) : Response :=
  match sub with
  | none => .failure 400 "invalid submission"
  | some sub =>
    let report := p.current.compilation.schema.check sub
    ⟨if report.valid then 200 else 422, .json report.toJson⟩

/-- The answer to a request for a reload, and the publisher when it is given: the program's
`reload_now`.  A compile that is overdue is given up: the answer does not wait for what becomes of
it. -/
def respondReload (p : Publisher) (o : Occasion) : Publisher × Response :=
  match o.overdue with
  | some limit => (p, .timedOut limit)
  | none =>
    (p.reload o.read o.now false,
     match p.attempt o.read o.now false with
     | .ok published => ⟨200, .json published.reloadJson⟩
     | .error e => .failure 500 e.chain)

/-- The answer of a route to a request with its method, and the publisher after it. -/
def follow (p : Publisher) (o : Occasion) (body : ByteArray) : Route → Publisher × Response
  | .health => (p, ⟨200, .plain "ok\n"⟩)
  | .ontology => (p, ⟨200, .json p.current.toJson⟩)
  | .diagnostics => (p, ⟨200, .json p.current.diagnosticsJson⟩)
  | .validate => (p, p.judge (Submission.ofBody? o.foreign? body))
  | .reload => p.respondReload o

/-- The answer to a request, and the publisher after it: the program's `handle_request`. -/
def respond (p : Publisher) (o : Occasion) (r : Request) : Publisher × Response :=
  match Route.ofPath? r.path with
  | none => (p, .failure 404 "not found")
  | some route =>
    if r.method ≠ route.method then (p, .failure 405 "method not allowed")
    else p.follow o r.body route

end Publisher

/-! ### Starting -/

/-- Why a server does not start. -/
inductive StartFault where
  /-- Nothing can be compiled by the settings. -/
  | settings (fault : SettingsFault)
  /-- The first reload failed. -/
  | reload (e : ReloadError)
  deriving DecidableEq, Repr, Inhabited

/-- The text of a fault and of what caused it. -/
def StartFault.chain : StartFault → String
  | settings fault => fault.message
  | reload e => "serve: initial schema compile failed: " ++ e.chain

/-- The publisher of a server that starts at the time `now`. -/
def startServer [PatternLibrary] (s : CompilerSettings) (read : FileReader) (now : String) :
    Except StartFault Publisher := do
  let compiler ← (Compiler.ofSettings s).mapError .settings
  let p := Publisher.ofCompiler compiler
  let published ← (p.attempt read now false).mapError .reload
  return { p with current := published }

end FormOntology
