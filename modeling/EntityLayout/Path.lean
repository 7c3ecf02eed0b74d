/-
# Dotted paths

An attribute is identified by its path: the name of its owner and the names of the attributes
around it and of itself, in small letters and joined by dots, as in `person.name.first`.

* `below owner name`: the path of an attribute under another path.
* `localPart`: what follows the first dot, the place of the attribute below its owner.
* `rootPart`: the first name of the local part, the outermost attribute around it.
* `leaf`: the last name.
-/
import EntityLayout.Text.Case

namespace EntityLayout.Path

/-- Whether a character separates the names of a path. -/
def isDot (c : Char) : Bool := c = '.'

/-- The path of an attribute declared as `name` below `path`. -/
def below (path name : String) : String := Text.lower (path ++ "." ++ name)

/-- What follows the first dot, or everything if there is none. -/
def afterFirstDot (cs : List Char) : List Char :=
  match cs.dropWhile (!isDot ·) with
  | _ :: rest => rest
  | [] => cs

/-- The path below the owner. -/
def localPart (path : String) : String := String.ofList (afterFirstDot path.toList)

/-- The name of the outermost attribute on the path. -/
def rootPart (path : String) : String :=
  String.ofList ((afterFirstDot path.toList).takeWhile (!isDot ·))

/-- The last name of the path. -/
def leaf (path : String) : String :=
  String.ofList (path.toList.reverse.takeWhile (!isDot ·)).reverse

/-- The path with another separator. -/
def separatedBy (separator : String) (path : String) : String :=
  String.ofList (path.toList.flatMap fun c => if isDot c then separator.toList else [c])

example : localPart "person.name.first" = "name.first" ∧ rootPart "person.name.first" = "name"
    ∧ leaf "person.name.first" = "first" ∧ separatedBy "__" "name.first" = "name__first" := by
  decide +kernel
example : localPart "person" = "person" ∧ rootPart "person" = "person" ∧ leaf "a." = "" := by
  decide +kernel

end EntityLayout.Path
