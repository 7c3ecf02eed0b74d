/-
# File systems

What a program asks of a file system.  The operations are given for any monad, so that a
program runs on the files of a machine and on files in memory alike.

* `FileSystem` has the operations.
* `FileSystem.makeDirectories` makes a directory with those around it.
-/

namespace EntityLayout

/-- Why a file operation fails. -/
inductive FileFault where
  | notFound
  | alreadyThere
  | notDirectory
  | isDirectory
  /-- any other reason, in words -/
  | other (reason : String)
  deriving DecidableEq, Repr

/-- The wording of a fault, with its number. -/
def FileFault.message : FileFault → String
  | .notFound => "No such file or directory (os error 2)"
  | .alreadyThere => "File exists (os error 17)"
  | .notDirectory => "Not a directory (os error 20)"
  | .isDirectory => "Is a directory (os error 21)"
  | .other reason => reason

/-! ## 1. Operations -/

/-- The operations of a file system, on paths as they are written. -/
structure FileSystem (m : Type → Type) where
  /-- whether there is a file or directory -/
  isThere : String → m Bool
  isDirectory : String → m Bool
  read : String → m (Except FileFault String)
  /-- makes one directory, inside one that is there -/
  makeDirectory : String → m (Except FileFault Unit)
  /-- writes a file, in place of the one that is there -/
  write : String → String → m (Except FileFault Unit)

namespace FilePath

/-- Whether the path starts at the root. -/
def isAbsolute (path : String) : Bool := path.toList.head? = some '/'

/-- The pieces of a text between slashes. -/
def splitAtSlashes : List Char → List (List Char)
  | [] => [[]]
  | c :: cs =>
    if c = '/' then [] :: splitAtSlashes cs else (splitAtSlashes cs).modifyHead (c :: ·)

/-- The pieces of a path between slashes, empty ones left out. -/
def pieces (path : String) : List String :=
  ((splitAtSlashes path.toList).filter fun piece => !piece.isEmpty).map String.ofList

example : pieces "/a//bc/." = ["a", "bc", "."] ∧ pieces "a" = ["a"] ∧ pieces "/" = [] := by
  decide +kernel

/-- A path made of pieces. -/
def ofPieces (absolute : Bool) (pieces : List String) : String :=
  (if absolute then "/" else "") ++ String.intercalate "/" pieces

/-- The path of a file in a directory. -/
def inside (directory file : String) : String :=
  if directory.isEmpty || directory.toList.getLast? = some '/' then directory ++ file
  else directory ++ "/" ++ file

end FilePath

namespace FileSystem

variable {m : Type → Type} [Monad m]

/-- Accepts a failure to make a directory that is there. -/
def unlessThere (fs : FileSystem m) (path : String) (fault : FileFault) :
    m (Except FileFault Unit) := do
  if ← fs.isDirectory path then pure (.ok ()) else pure (.error fault)

/-- Makes the directory given by its pieces, the innermost first, and those around it. -/
def makeFrom (fs : FileSystem m) (absolute : Bool) : List String → m (Except FileFault Unit)
  | [] => pure (.ok ())
  | piece :: outer => do
    let path := FilePath.ofPieces absolute (piece :: outer).reverse
    match ← fs.makeDirectory path with
    | .ok () => pure (.ok ())
    | .error .notFound =>
      match ← fs.makeFrom absolute outer with
      | .error fault => pure (.error fault)
      | .ok () =>
        match ← fs.makeDirectory path with
        | .ok () => pure (.ok ())
        | .error fault => fs.unlessThere path fault
    | .error fault => fs.unlessThere path fault

/-- Makes a directory and those around it, as far as they are not there. -/
def makeDirectories (fs : FileSystem m) (path : String) : m (Except FileFault Unit) :=
  fs.makeFrom (FilePath.isAbsolute path) (FilePath.pieces path).reverse

end FileSystem

end EntityLayout
