/-
# The program

Runs the command line on the files of the machine.
-/
import EntityLayout.Command.Run

namespace EntityLayout

/-- The number that the machine gives to a directory in the place of a file. -/
def directoryNumber : UInt32 := 21

/-- The fault that a failed file operation of the machine comes from. -/
def faultOf : IO.Error → FileFault
  | .noFileOrDirectory .. => .notFound
  | .alreadyExists .. => .alreadyThere
  | .inappropriateType _ number _ =>
    if number = directoryNumber then .isDirectory else .notDirectory
  | e => .other (toString e)

/-- A file operation of the machine. -/
def attempt {α : Type} (act : IO α) : IO (Except FileFault α) := do
  try
    let a ← act
    pure (.ok a)
  catch e => pure (.error (faultOf e))

/-- The files of the machine. -/
def machine : FileSystem IO where
  isThere path := do return (← attempt (IO.FS.realPath path)).isOk
  isDirectory path := do return (← attempt (IO.FS.realPath (path ++ "/."))).isOk
  read path := attempt (IO.FS.readFile path)
  makeDirectory path := attempt (IO.FS.createDir path)
  write path text := attempt (IO.FS.writeFile path text)

end EntityLayout

/-- Runs the program. -/
def main (arguments : List String) : IO UInt32 := do
  let named ← IO.getEnv "ERMAP_CONFIG"
  let outcome ← EntityLayout.Command.run EntityLayout.machine named arguments
  IO.print outcome.stdout
  IO.eprint outcome.stderr
  pure (UInt32.ofNat outcome.code)
