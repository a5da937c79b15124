import FormOntology.Command.Run

/-!
# The command line program

Reads the files that an invocation looks at, runs it, and does what it leads to.
-/

namespace FormOntology

/-- What a failed system call says of a path. -/
def readFault : IO.Error → ReadFault
  | .noFileOrDirectory _ _ _ => .notFound
  | .inappropriateType _ _ _ => .isDirectory
  | _ => .notDirectory

/-- The files at some paths, as they are now. -/
def readFiles (paths : List String) : IO (List (String × Except ReadFault ByteArray)) :=
  paths.mapM fun (path : String) => do
    try return (path, .ok (← IO.FS.readBinFile path))
    catch e => return (path, .error (readFault e))

/-- A reader of files that were read before. -/
def readerOf (files : List (String × Except ReadFault ByteArray)) : FileReader := fun path =>
  (files.lookup path).getD (.error .notFound)

/-- All bytes of a stream behind those already read. -/
partial def readAll (stream : IO.FS.Stream) (bytes : ByteArray) : IO ByteArray := do
  let more ← stream.read 65536
  if more.isEmpty then return bytes else readAll stream (bytes ++ more)

/-- Prints how a run ends. -/
def report (e : Exit) : IO UInt32 := do
  IO.print e.output
  for message in e.message do
    IO.eprintln message
  return e.code.toUInt32

/-- Does what an action says. -/
def perform : Action → IO UInt32
  | .finish e => report e
  | .write path text written failed => do
    let ok ← try IO.FS.writeFile path text; pure true catch _ => pure false
    report (if ok then written else failed)

/-- Runs a list of arguments. -/
def runProgram (arguments : List String) : IO UInt32 := do
  match Invocation.parse? (← IO.getEnv "QUOTEFORM_ONTOLOGY_DIR") arguments with
  | none => report .usage
  | some i =>
    let configFiles ← readFiles i.config.toList
    let documents :=
      match Settings.resolve (readerOf configFiles) i.config i.overrides with
      | .ok s => s.compiler.sources.paths
      | .error _ => []
    let inputs :=
      match i.command with
      | .validate input _ => [input]
      | _ => []
    let files := configFiles ++ (← readFiles (inputs ++ documents))
    let stdin ← if inputs.contains "-" then readAll (← IO.getStdin) ByteArray.empty
      else pure ByteArray.empty
    perform (i.act (readerOf files) (decodeText stdin))

end FormOntology

def main (arguments : List String) : IO UInt32 := FormOntology.runProgram arguments
