/-!
# File trees

A file tree is what stands below one directory: files with their bytes, and directories.  Paths
are texts; `.`, `..`, doubled slashes and a slash at the end are resolved against the tree.  What
lies outside of the tree has directories only.

## Main definitions

* `FileTree` — the files and directories, by their names from the top.
* `ReadFault` — why a path cannot be read.
* `FileTree.read`, `FileTree.write?`, `FileTree.remove?` — the operations on paths.
* `FileTree.put`, `FileTree.mkdir` — a file or a directory with all the directories above it.
* `FileReader` — reading as a function of the path, which is all that most of the library needs.
* `FileReader.text` — reading a file of text.
-/

namespace FormOntology

/-- Why a path cannot be read. -/
inductive ReadFault where
  /-- Nothing has this path. -/
  | notFound
  /-- A file stands where the path needs a directory. -/
  | notDirectory
  /-- The path leads to a directory. -/
  | isDirectory
  deriving DecidableEq, Repr, Inhabited

/-- The text of a fault. -/
def ReadFault.message : ReadFault → String
  | notFound => "No such file or directory (os error 2)"
  | notDirectory => "Not a directory (os error 20)"
  | isDirectory => "Is a directory (os error 21)"

/-- Reading a file by its path. -/
abbrev FileReader := String → Except ReadFault ByteArray

/-- Why the text of a file cannot be read. -/
inductive TextFault where
  /-- The file cannot be read. -/
  | unreadable (fault : ReadFault)
  /-- Its bytes are no UTF-8. -/
  | notUtf8
  deriving DecidableEq, Repr, Inhabited

/-- The text of a fault. -/
def TextFault.message : TextFault → String
  | unreadable fault => fault.message
  | notUtf8 => "stream did not contain valid UTF-8"

/-- The text that bytes encode. -/
def decodeText (bytes : ByteArray) : Except TextFault String :=
  match String.fromUTF8? bytes with
  | some text => .ok text
  | none => .error .notUtf8

/-- The text of the file at a path. -/
def FileReader.text (read : FileReader) (path : String) : Except TextFault String :=
  match read path with
  | .error fault => .error (.unreadable fault)
  | .ok bytes => decodeText bytes

/-- A file or a directory. -/
inductive FileNode where
  /-- A file and its bytes. -/
  | file (bytes : ByteArray)
  /-- A directory. -/
  | directory
  deriving Inhabited

/-- Files and directories by the names that lead to them. -/
structure FileTree where
  /-- The nodes; each path of names stands at most once. -/
  nodes : List (List String × FileNode)
  deriving Inhabited

namespace FileTree

/-- The tree without a file. -/
def empty : FileTree := ⟨[]⟩

/-- The node at a path of names; no names lead to the top directory. -/
def node? (t : FileTree) (names : List String) : Option FileNode :=
  if names.isEmpty then some .directory else t.nodes.lookup names

/-- A tree with the node at a path of names replaced or added. -/
def set (t : FileTree) (names : List String) (n : FileNode) : FileTree :=
  ⟨t.nodes.filter (·.1 ≠ names) ++ [(names, n)]⟩

/-- A tree without the node at a path of names. -/
def erase (t : FileTree) (names : List String) : FileTree := ⟨t.nodes.filter (·.1 ≠ names)⟩

/-! ### Paths -/

/-- The parts of a path between its slashes. -/
def parts (path : String) : List String :=
  ((path.toList.splitOn '/').map String.ofList)

/-- Where a path leads. -/
inductive Place where
  /-- To the node with these names. -/
  | inside (names : List String)
  /-- To a directory above the tree. -/
  | outside
  deriving DecidableEq, Repr

/-- Follows the parts of a path from a place; only the last part may be missing or a file. -/
def walk (t : FileTree) : Place → List String → Except ReadFault Place
  | p, [] => .ok p
  | .outside, s :: rest =>
    if s = "" ∨ s = "." ∨ s = ".." then walk t .outside rest else .error .notFound
  | .inside names, s :: rest =>
    match t.node? names with
    | none => .error .notFound
    | some (.file _) => .error .notDirectory
    | some .directory =>
      if s = "" ∨ s = "." then walk t (.inside names) rest
      else if s = ".." then
        walk t (if names.isEmpty then .outside else .inside names.dropLast) rest
      else walk t (.inside (names ++ [s])) rest

/-- The place that a path leads to. -/
def resolve (t : FileTree) (path : String) : Except ReadFault Place :=
  if path.isEmpty then .error .notFound
  else if path.startsWith "/" then t.walk .outside (parts path)
  else t.walk (.inside []) (parts path)

/-! ### Operations -/

/-- The bytes of the file at a path. -/
def read (t : FileTree) : FileReader := fun path => do
  match ← t.resolve path with
  | .outside => .error .isDirectory
  | .inside names =>
    match t.node? names with
    | none => .error .notFound
    | some .directory => .error .isDirectory
    | some (.file bytes) => .ok bytes

/-- The tree after the file at a path was written, if the path leads to a file or to a free name
in a directory. -/
def write? (t : FileTree) (path : String) (bytes : ByteArray) : Option FileTree :=
  match t.resolve path with
  | .ok (.inside names) =>
    match t.node? names with
    | some .directory => none
    | some (.file _) => some (t.set names (.file bytes))
    | none =>
      match t.node? names.dropLast, (parts path).getLast? with
      | some .directory, some s => if s = "" then none else some (t.set names (.file bytes))
      | _, _ => none
  | _ => none

/-- The tree after the file at a path was removed, if there is one. -/
def remove? (t : FileTree) (path : String) : Option FileTree :=
  match t.resolve path with
  | .ok (.inside names) =>
    match t.node? names with
    | some (.file _) => some (t.erase names)
    | _ => none
  | _ => none

/-- The names of a path, where each part is a name or says nothing. -/
def names (path : String) : List String := (parts path).filter fun s => s ≠ "" ∧ s ≠ "."

/-- A tree with a directory and those above it. -/
def mkdir (t : FileTree) (path : String) : FileTree :=
  let go (acc : FileTree × List String) (s : String) : FileTree × List String :=
    let here := acc.2 ++ [s]
    match acc.1.node? here with
    | some _ => (acc.1, here)
    | none => (acc.1.set here .directory, here)
  ((names path).foldl go (t, [])).1

/-- A tree with a file and the directories above it. -/
def put (t : FileTree) (path : String) (bytes : ByteArray) : FileTree :=
  let above := String.intercalate "/" (names path).dropLast
  (t.mkdir above).set (names path) (.file bytes)

end FileTree

end FormOntology
