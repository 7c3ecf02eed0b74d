/-
# A JSON text as far as it can be read

Readers look at a text in order and stop at the first thing that does not suit them, so what
is wrong further on does not matter.  A `Draft` is the tree of a text with the place, if
any, where it stops being JSON: inside the last item of the last item and so on, or as the
`Ending` of an array or object.  A text that is JSON throughout has the draft of its value,
`Json.draft`.
-/
import EntityLayout.Json.Token

namespace EntityLayout.Json

/-! ## 1. Drafts -/

/-- How the items of an array or the fields of an object end. -/
inductive Ending where
  /-- with the closing bracket -/
  | closed
  /-- with a flaw, behind a comma or not -/
  | torn (afterComma : Bool) (flaw : Flaw)
  deriving DecidableEq, Repr

/-- The tree of a JSON text up to its first flaw. -/
inductive Draft where
  | null
  | bool (b : Bool)
  /-- a number; one that is too large has no value -/
  | number (value : Option Number)
  /-- a text; one with an unpaired surrogate has no content -/
  | text (content : Option String)
  | array (items : List Draft) (ending : Ending)
  | object (fields : List (Option String × Draft)) (ending : Ending)
  /-- an object with something other than a text where its first name has to stand -/
  | unnamed (found : Draft)
  | flaw (f : Flaw)
  deriving Repr

mutual

/-- The draft of a value. -/
def draft : Json → Draft
  | .null => .null
  | .bool b => .bool b
  | .number n => .number (some n)
  | .text s => .text (some s)
  | .array items => .array (draftItems items) .closed
  | .object fields => .object (draftFields fields) .closed

/-- The drafts of the items of an array. -/
def draftItems : List Json → List Draft
  | [] => []
  | x :: xs => draft x :: draftItems xs

/-- The drafts of the fields of an object. -/
def draftFields : List (String × Json) → List (Option String × Draft)
  | [] => []
  | (k, v) :: fs => (some k, draft v) :: draftFields fs

end

/-! ## 2. From tokens -/

mutual

/-- The value at the front of the tokens and what follows it; nothing follows a flaw.  Every
call takes a token or passes on to one that does, so twice the number of tokens suffices as
fuel. -/
def valueWithin : Nat → List Token → Draft × List Token
  | 0, _ => (.flaw .stray, [])
  | fuel + 1, ts =>
    match ts with
    | [] => (.flaw .missing, [])
    | .null :: rest => (.null, rest)
    | .bool b :: rest => (.bool b, rest)
    | .number n :: rest => (.number n, rest)
    | .text s :: rest => (.text s, rest)
    | .flaw f :: _ => (.flaw f, [])
    | .beginArray :: .endArray :: rest => (.array [] .closed, rest)
    | .beginArray :: rest =>
      let (xs, ending, rest) := itemsWithin fuel false rest
      (.array xs ending, rest)
    | .beginObject :: .endObject :: rest => (.object [] .closed, rest)
    | .beginObject :: [] => (.object [] (.torn false .missing), [])
    | .beginObject :: .text k :: rest =>
      let (fs, ending, rest) := fieldsWithin fuel k rest
      (.object fs ending, rest)
    | .beginObject :: .flaw (.text first aside) :: _ =>
      (.object [] (.torn false (.text first aside)), [])
    | .beginObject :: rest =>
      let (found, rest) := valueWithin fuel rest
      (.unnamed found, rest)
    | _ :: _ => (.flaw .stray, [])

/-- The items of an array from the next one on, which follows a comma or not. -/
def itemsWithin : Nat → Bool → List Token → List Draft × Ending × List Token
  | 0, _, _ => ([], .torn false .stray, [])
  | fuel + 1, afterComma, ts =>
    match ts with
    | [] => ([], .torn afterComma .missing, [])
    | .endArray :: _ => ([], .torn afterComma .stray, [])
    | ts =>
      let (x, rest) := valueWithin fuel ts
      match rest with
      | .endArray :: rest => ([x], .closed, rest)
      | .comma :: rest =>
        let (xs, ending, rest) := itemsWithin fuel true rest
        (x :: xs, ending, rest)
      | [] => ([x], .torn false .missing, [])
      | _ :: _ => ([x], .torn false .stray, [])

/-- The fields of an object from the one whose name was just read. -/
def fieldsWithin :
    Nat → Option String → List Token → List (Option String × Draft) × Ending × List Token
  | 0, _, _ => ([], .torn false .stray, [])
  | fuel + 1, name, ts =>
    match ts with
    | .colon :: rest =>
      let (v, rest) := valueWithin fuel rest
      match rest with
      | .endObject :: rest => ([(name, v)], .closed, rest)
      | .comma :: .text k :: rest =>
        let (fs, ending, rest) := fieldsWithin fuel k rest
        ((name, v) :: fs, ending, rest)
      | .comma :: .flaw (.text first aside) :: _ =>
        ([(name, v)], .torn true (.text first aside), [])
      | .comma :: [] => ([(name, v)], .torn true .missing, [])
      | .comma :: _ :: _ => ([(name, v)], .torn true .stray, [])
      | [] => ([(name, v)], .torn false .missing, [])
      | _ :: _ => ([(name, v)], .torn false .stray, [])
    | [] => ([(name, .flaw .missing)], .torn false .missing, [])
    | _ :: _ => ([(name, .flaw .stray)], .torn false .stray, [])

end

/-- The draft of a text, and whether anything but blanks follows the value. -/
def parse (text : String) : Draft × Bool :=
  let ts := tokens text.toList
  let (d, rest) := valueWithin (2 * ts.length + 2) ts
  (d, !rest.isEmpty)

end EntityLayout.Json
