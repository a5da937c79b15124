import FormOntology.Publisher

/-!
# A publisher over changing files

Documents are written and removed while a publisher reloads now and then and is asked what it
holds.  A run is a list of such events; what it leads to is a file tree and a publisher, and what it
gives is an answer to every event.

## Main definitions

* `Site` — files and a publisher that reads them.
* `Site.Event`, `Site.step`, `Site.run` — what happens, and what it leads to.
* `Site.Answer`, `Site.answer`, `Site.answers` — what it gives.
-/

namespace FormOntology

/-- Files and a publisher that reads them. -/
structure Site where
  /-- The files. -/
  files : FileTree
  /-- The publisher. -/
  publisher : Publisher
  deriving Inhabited

namespace Site

/-- What can happen. -/
inductive Event where
  /-- A file is written. -/
  | write (path : String) (bytes : ByteArray)
  /-- A file is removed, if there is one. -/
  | remove (path : String)
  /-- The publisher reloads at the time `now`. -/
  | reload (now : String) (cancelled : Bool)
  /-- What is published is taken. -/
  | take
  /-- It is asked whether the documents are others than those of the last reload. -/
  | compare
  deriving Inhabited

variable [PatternLibrary]

/-- What an event leads to. -/
def step (s : Site) : Event → Site
  | .write path bytes => { s with files := s.files.put path bytes }
  | .remove path => { s with files := (s.files.remove? path).getD s.files }
  | .reload now cancelled => { s with publisher := s.publisher.reload s.files.read now cancelled }
  | .take => s
  | .compare => s

@[simp] theorem publisher_step_write (s : Site) (path : String) (bytes : ByteArray) :
    (s.step (.write path bytes)).publisher = s.publisher := by rw [step]

@[simp] theorem publisher_step_reload (s : Site) (now : String) (cancelled : Bool) :
    (s.step (.reload now cancelled)).publisher
      = s.publisher.reload s.files.read now cancelled := rfl

/-- What a list of events leads to. -/
def run (s : Site) (events : List Event) : Site := events.foldl step s

@[simp] theorem run_nil (s : Site) : s.run [] = s := rfl

@[simp] theorem run_cons (s : Site) (e : Event) (es : List Event) :
    s.run (e :: es) = (s.step e).run es := rfl

theorem run_append (s : Site) (es fs : List Event) : s.run (es ++ fs) = (s.run es).run fs :=
  List.foldl_append

/-! ### Answers -/

/-- What an event gives. -/
inductive Answer where
  /-- Nothing, when the files changed. -/
  | done
  /-- What a reload published, or why it published nothing. -/
  | reloaded (result : Except ReloadError Published)
  /-- What is published. -/
  | taken (p : Published)
  /-- Whether the documents are others, or why they cannot be compared. -/
  | compared (result : Except SourceError Bool)
  deriving Inhabited

/-- What an event gives. -/
def answer (s : Site) : Event → Answer
  | .write _ _ => .done
  | .remove _ => .done
  | .reload now cancelled => .reloaded (s.publisher.attempt s.files.read now cancelled)
  | .take => .taken s.publisher.current
  | .compare => .compared (s.publisher.sourcesChanged s.files.read)

/-- What a list of events gives, event by event. -/
def answers (s : Site) : List Event → List Answer
  | [] => []
  | e :: es => s.answer e :: (s.step e).answers es

@[simp] theorem answers_nil (s : Site) : s.answers [] = [] := rfl

@[simp] theorem answers_cons (s : Site) (e : Event) (es : List Event) :
    s.answers (e :: es) = s.answer e :: (s.step e).answers es := rfl

@[simp] theorem length_answers (s : Site) (es : List Event) :
    (s.answers es).length = es.length := by
  induction es generalizing s with
  | nil => rfl
  | cons e es ih => rw [answers_cons, List.length_cons, ih, List.length_cons]

theorem answers_append (s : Site) (es fs : List Event) :
    s.answers (es ++ fs) = s.answers es ++ (s.run es).answers fs := by
  induction es generalizing s with
  | nil => rfl
  | cons e es ih =>
    rw [List.cons_append, answers_cons, ih, answers_cons, run_cons, List.cons_append]

end Site

end FormOntology
