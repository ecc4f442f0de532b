import ScenarioServer.Text.Position

/-!
# Files and paths

What the program knows of files, paths as texts, and two file systems: a tree held in memory, and
the answers to what has been looked at before.
-/

namespace ScenarioServer

/-!
## The file system as the program sees it

Everything the program learns about files goes through a `FileSystem`: the text of a file, whether a
path is a regular file, and the absolute form of a path. It is a plain value, so whatever reads files
is a function of it.
-/

inductive FileError where
  | notFound
  | isDirectory
  | notDirectory
  | nameTooLong
  | zeroInName
  | notText
  /-- Any other failure, with the number and the words of the operating system. -/
  | other (code : Nat) (text : String)
deriving Repr, DecidableEq

def FileError.message : FileError → String
  | .notFound => "No such file or directory (os error 2)"
  | .isDirectory => "Is a directory (os error 21)"
  | .notDirectory => "Not a directory (os error 20)"
  | .nameTooLong => "File name too long (os error 36)"
  | .zeroInName => "file name contained an unexpected NUL byte"
  | .notText => "stream did not contain valid UTF-8"
  | .other code text => s!"{text} (os error {code})"

def FileError.ofCode (code : Nat) (text : String) : FileError :=
  match code with
  | 2 => .notFound
  | 20 => .notDirectory
  | 21 => .isDirectory
  | 36 => .nameTooLong
  | _ => .other code text

def textOfBytes (bytes : ByteArray) : Except FileError String :=
  match String.fromUTF8? bytes with
  | some text => .ok text
  | none => .error .notText

structure FileSystem where
  read : String → Except FileError String
  /-- Whether a path leads to a regular file. -/
  isFile : String → Bool
  /-- The absolute path without dots and links that a path leads to. -/
  resolve : String → Except FileError String

def FileSystem.empty : FileSystem where
  read _ := .error .notFound
  isFile _ := false
  resolve _ := .error .notFound

/-!
## File paths

A path is a text in which slashes separate names. Paths are kept as they were written: joining and
taking the parent keep doubled slashes and dots inside. Two paths name the same place if they agree
in `PathParts`, where doubled and trailing slashes and dots between names do not count.
-/

namespace Path

def isAbsolute (path : String) : Bool := path.toList.head? = some '/'

/-- The texts between the slashes of a path. -/
def pieces (path : String) : List (List Char) := Text.splitWhere (· = '/') path.toList

/-- A path below another one. An absolute path stands for itself. -/
def join (base path : String) : String :=
  if isAbsolute path then path
  else if base = "" || base.toList.getLast? = some '/' then base ++ path
  else base ++ "/" ++ path

/-- Drops trailing slashes and trailing dot names from a path that is given in reverse. The root
stays. -/
def trimReversed : List Char → List Char
  | '/' :: rest => if rest.isEmpty then ['/'] else trimReversed rest
  | '.' :: '/' :: rest => trimReversed ('/' :: rest)
  | path => path

/-- The path without its last name. The root and the empty path have no parent; the parent of a
single name is the empty path. -/
def parent? (path : String) : Option String :=
  match trimReversed path.toList.reverse with
  | [] => none
  | ['/'] => none
  | trimmed => some (String.ofList (trimReversed (trimmed.dropWhile (· ≠ '/'))).reverse)

/-- A path as it counts in comparisons: whether it is absolute, and its names. -/
structure PathParts where
  absolute : Bool
  names : List (List Char)
deriving Repr, DecidableEq

/-- The parts of a path. Empty names and dots do not count, except a dot that a relative path
starts with. -/
def parts (path : String) : PathParts :=
  let names := pieces path
  let counted (name : List Char) : Bool := name ≠ [] && name ≠ ['.']
  { absolute := isAbsolute path
    names := (if names.head? = some ['.'] then [['.']] else []) ++ names.filter counted }

/-- Whether two paths name the same place without a look at any file. -/
def same (a b : String) : Bool := parts a = parts b

end Path

/-!
## File trees

A tree of directories and files held in memory, and the `FileSystem` that answers from it. A path is
followed name by name: every name but the last has to lead to a directory, a double dot leads to the
parent, and a trailing slash demands a directory at the end.
-/

/-- A file with its bytes, or a directory with its named entries. -/
inductive FileTree where
  | file (bytes : ByteArray)
  | directory (entries : List (String × FileTree))

namespace FileTree

/-- The entries of a directory; a file has none. -/
def entries : FileTree → List (String × FileTree)
  | .file _ => []
  | .directory entries => entries

def find? (tree : FileTree) (names : List String) : Option FileTree :=
  match names with
  | [] => some tree
  | name :: names => (tree.entries.lookup name).bind fun below => below.find? names

/-- Puts a subtree at a list of names, making the directories on the way. -/
def insert (tree : FileTree) (names : List String) (node : FileTree) : FileTree :=
  match names with
  | [] => node
  | name :: names =>
    let below := ((tree.entries.lookup name).getD (.directory [])).insert names node
    .directory (tree.entries.filter (·.1 ≠ name) ++ [(name, below)])

def erase (tree : FileTree) (names : List String) : FileTree :=
  match names with
  | [] => tree
  | [name] => .directory (tree.entries.filter (·.1 ≠ name))
  | name :: names =>
    match tree.entries.lookup name with
    | none => tree
    | some below => .directory (tree.entries.filter (·.1 ≠ name) ++ [(name, below.erase names)])

/-! ### Following a path -/

/-- The longest name and the longest path, in bytes. -/
def maxNameBytes : Nat := 255

/-- The bytes that a path has to stay below. -/
def pathBytesLimit : Nat := 4096

/-- Goes one name further from the directory at `here`, whose names are held last first. -/
def follow (tree : FileTree) (here : List String) (name : String) : Except FileError (List String) :=
  match tree.find? here.reverse with
  | some (.directory entries) =>
    if name = "." then .ok here
    else if name = ".." then .ok (here.drop 1)
    else if name.utf8ByteSize > maxNameBytes then .error .nameTooLong
    else if (entries.lookup name).isSome then .ok (name :: here)
    else .error .notFound
  | some (.file _) => .error .notDirectory
  | none => .error .notFound

/-- The names on the way from the root that a path leads to, last first. `home` is the directory that
relative paths start from. -/
def locate (tree : FileTree) (home : List String) (path : String) : Except FileError (List String) :=
  if path.toList.contains (Char.ofNat 0) then .error .zeroInName
  else if path = "" then .error .notFound
  else if path.utf8ByteSize ≥ pathBytesLimit then .error .nameTooLong
  else
    let names := ((Path.pieces path).filter (· ≠ [])).map String.ofList
    let names := if path.toList.getLast? = some '/' then names ++ ["."] else names
    names.foldlM (follow tree) (if Path.isAbsolute path then [] else home.reverse)

def read (tree : FileTree) (home : List String) (path : String) : Except FileError String := do
  let place ← tree.locate home path
  match tree.find? place.reverse with
  | some (.file bytes) => textOfBytes bytes
  | some (.directory _) => .error .isDirectory
  | none => .error .notFound

def isFile (tree : FileTree) (home : List String) (path : String) : Bool :=
  match tree.locate home path with
  | .ok place =>
    match tree.find? place.reverse with
    | some (.file _) => true
    | _ => false
  | .error _ => false

def resolve (tree : FileTree) (home : List String) (path : String) : Except FileError String :=
  (tree.locate home path).map fun place => "/" ++ String.intercalate "/" place.reverse

/-- The file system that a tree holds, with relative paths starting from `home`. -/
def fileSystem (tree : FileTree) (home : List String) : FileSystem where
  read := tree.read home
  isFile := tree.isFile home
  resolve := tree.resolve home

end FileTree

/-!
## Snapshots of files

What has been seen at a number of paths, and the `FileSystem` that answers from it. A path that has
not been looked at counts as missing, so a snapshot serves a task that looks at no other paths.
-/

/-- What was found at a path: the bytes of a file, and the absolute form of the path. -/
structure Sighting where
  path : String
  content : Except FileError ByteArray
  resolved : Except FileError String

namespace Sighting

def find? (sightings : List Sighting) (path : String) : Option Sighting :=
  sightings.find? (·.path = path)

def isFile (sighting : Sighting) : Bool :=
  match sighting.content with
  | .ok _ => true
  | .error _ => false

end Sighting

/-- The file system that sightings describe. -/
def FileSystem.ofSightings (sightings : List Sighting) : FileSystem where
  read path :=
    match Sighting.find? sightings path with
    | some sighting => sighting.content.bind textOfBytes
    | none => .error .notFound
  isFile path := (Sighting.find? sightings path).any Sighting.isFile
  resolve path :=
    match Sighting.find? sightings path with
    | some sighting => sighting.resolved
    | none => .error .notFound

end ScenarioServer
