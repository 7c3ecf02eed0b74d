/-
# Files in memory

A tree of directories and files, each known by its place: the names from the root on.  Its
operations fail as those of a real file system do.
-/
import EntityLayout.Files.Basic

namespace EntityLayout

/-! ## 1. Places -/

/-- The place of a file or directory: the names from the root on. -/
abbrev Place := List String

/-- Files and directories, and the directory that relative paths start from.  The root is
always there. -/
structure FileTree where
  directories : List Place
  files : List (Place × String)
  home : Place
  deriving DecidableEq

namespace FileTree

/-- Whether a directory is at the place. -/
def hasDirectory (t : FileTree) (place : Place) : Bool :=
  place.isEmpty || t.directories.contains place

/-- The content of the file at the place. -/
def content? (t : FileTree) (place : Place) : Option String := t.files.lookup place

/-- Goes on from a place along the pieces of a path.  Every place that is left behind has to
be a directory; the last one need not be there. -/
def follow (t : FileTree) : Place → List String → Except FileFault Place
  | place, [] => .ok place
  | place, piece :: rest =>
    if t.hasDirectory place then
      if piece = "." then follow t place rest
      else if piece = ".." then follow t place.dropLast rest
      else follow t (place ++ [piece]) rest
    else if (t.content? place).isSome then .error .notDirectory
    else .error .notFound

/-- The place that a path leads to.  A slash at the end asks for a directory. -/
def placeOf (t : FileTree) (path : String) : Except FileFault Place :=
  if path.isEmpty then .error .notFound
  else
    let slash := path.toList.getLast? = some '/'
    t.follow (if FilePath.isAbsolute path then [] else t.home)
      (FilePath.pieces path ++ if slash then ["."] else [])

/-! ## 2. Operations -/

/-- Whether there is a directory at the end of a path. -/
def isDirectory (t : FileTree) (path : String) : Bool :=
  match t.placeOf path with
  | .ok place => t.hasDirectory place
  | .error _ => false

/-- Whether there is a file or directory at the end of a path. -/
def isThere (t : FileTree) (path : String) : Bool :=
  match t.placeOf path with
  | .ok place => t.hasDirectory place || (t.content? place).isSome
  | .error _ => false

/-- The content of the file at the end of a path. -/
def read (t : FileTree) (path : String) : Except FileFault String := do
  let place ← t.placeOf path
  if t.hasDirectory place then throw .isDirectory
  match t.content? place with
  | some text => pure text
  | none => throw .notFound

/-- Makes a directory. -/
def makeDirectory (t : FileTree) (path : String) : Except FileFault FileTree := do
  let place ← t.placeOf path
  if t.hasDirectory place || (t.content? place).isSome then throw .alreadyThere
  if t.hasDirectory place.dropLast then
    pure { t with directories := t.directories ++ [place] }
  else throw .notFound

/-- Puts a file at a place. -/
def putFile (place : Place) (text : String) : List (Place × String) → List (Place × String)
  | [] => [(place, text)]
  | (p, old) :: rest =>
    if p = place then (place, text) :: rest else (p, old) :: putFile place text rest

/-- Writes a file. -/
def write (t : FileTree) (path text : String) : Except FileFault FileTree := do
  let place ← t.placeOf path
  if t.hasDirectory place then throw .isDirectory
  if t.hasDirectory place.dropLast then
    pure { t with files := putFile place text t.files }
  else throw .notFound

/-! ## 3. Trees as file systems -/

/-- Adds a file with the directories around it. -/
def withFile (t : FileTree) (place : Place) (text : String) : FileTree :=
  let around := (List.range place.length).map fun n => place.take n
  { t with
    directories := t.directories ++ around.filter fun p => !t.hasDirectory p
    files := putFile place text t.files }

/-- The tree with nothing but an empty home directory. -/
def start (home : Place) : FileTree :=
  ⟨(List.range home.length).map fun n => home.take (n + 1), [], home⟩

/-- Keeps the tree that an operation leaves, or the old one if it fails. -/
def commit (t : FileTree) : Except FileFault FileTree → Except FileFault Unit × FileTree
  | .ok t' => (.ok (), t')
  | .error fault => (.error fault, t)

/-- The operations on a tree. -/
def fileSystem : FileSystem (StateM FileTree) where
  isThere path := do return (← get).isThere path
  isDirectory path := do return (← get).isDirectory path
  read path := do return (← get).read path
  makeDirectory path := modifyGet fun t => t.commit (t.makeDirectory path)
  write path text := modifyGet fun t => t.commit (t.write path text)

end FileTree

end EntityLayout
