/-
# Readers of JSON

A reader takes a draft and gives a value or the first failure in text order.  It reads either
straight from a text, where arrays and objects may be nested 127 deep and everything it skips
must only look like JSON, or from a value that was set aside whole and is known to be sound.

* `record` reads an object with named fields, or an array of their values in order.
* `variant` reads one of several named alternatives, with or without a value.
* `tagged` reads an object whose alternative is named by one of its own fields; the rest of
  the object is set aside until that field is found.
-/
import EntityLayout.Json.Mismatch

namespace EntityLayout.Json

/-! ## 1. Scopes and failures -/

/-- Where a reader stands: in a text, with so many more levels of nesting allowed, or in a
value that was set aside. -/
inductive Scope where
  | text (levels : Nat)
  | aside
  deriving DecidableEq

/-- The levels of nesting that a text may have. -/
def nestingLimit : Nat := 127

/-- A reader of values of type `α`. -/
abbrev Reader (α : Type) := Scope → Draft → Except ReadError α

/-- Fails with a mismatch. -/
def refuse {α : Type} (m : Mismatch) : Except ReadError α := .error (.mismatch m)

/-- Fails with a cause. -/
def fail {α : Type} (c : Cause) : Except ReadError α := .error (.flawed c)

/-- Steps into an array or object. -/
def Scope.enter : Scope → Except ReadError Scope
  | .aside => .ok .aside
  | .text 0 => fail .malformed
  | .text (n + 1) => .ok (.text n)

/-- Fails because the draft is not what is wanted. -/
def reject {α : Type} (wanted : String) : Draft → Except ReadError α
  | .null => refuse (.wrongType .null wanted)
  | .bool b => refuse (.wrongType (.bool b) wanted)
  | .number (some n) => refuse (.wrongType (.number n) wanted)
  | .number none => fail .malformed
  | .text (some s) => refuse (.wrongType (.text s) wanted)
  | .text none => fail .malformed
  | .array _ _ => refuse (.wrongType .array wanted)
  | .object _ _ => refuse (.wrongType .object wanted)
  | .unnamed _ => refuse (.wrongType .object wanted)
  | .flaw f => fail f.cause

/-- The content of a text, if every surrogate in it is paired. -/
def content : Option String → Except ReadError String
  | some s => .ok s
  | none => fail .malformed

/-! ## 2. Skipping and setting aside -/

mutual

/-- Passes over a value: texts need no content and numbers no value. -/
def skip : Draft → Except ReadError Unit
  | .array items ending => do
    skipItems items
    skipEnding ending
  | .object fields ending => do
    skipFields fields
    skipEnding ending
  | .unnamed _ => fail .malformed
  | .flaw f => fail f.causeWhenSkipped
  | _ => .ok ()

/-- Passes over the items of an array. -/
def skipItems : List Draft → Except ReadError Unit
  | [] => .ok ()
  | x :: xs => do
    skip x
    skipItems xs

/-- Passes over the fields of an object. -/
def skipFields : List (Option String × Draft) → Except ReadError Unit
  | [] => .ok ()
  | (_, v) :: fs => do
    skip v
    skipFields fs

/-- Passes over the end of an array or object. -/
def skipEnding : Ending → Except ReadError Unit
  | .closed => .ok ()
  | .torn _ f => fail f.causeWhenSkipped

end

/-- The end of an array or object whose items were all read. -/
def finish : Ending → Except ReadError Unit
  | .closed => .ok ()
  | .torn _ f => fail f.cause

mutual

/-- The value of a draft that is sound throughout. -/
def settle (scope : Scope) : Draft → Except ReadError Json
  | .null => .ok .null
  | .bool b => .ok (.bool b)
  | .number (some n) => .ok (.number n)
  | .number none => fail .malformed
  | .text s => do
    let s ← content s
    pure (.text s)
  | .array items ending => do
    let scope ← scope.enter
    let items ← settleItems scope items
    finish ending
    pure (.array items)
  | .object fields ending => do
    let scope ← scope.enter
    let fields ← settleFields scope fields
    finish ending
    pure (.object fields)
  | .unnamed _ => do
    let _ ← scope.enter
    fail .malformed
  | .flaw f => fail f.cause

/-- The values of the items of an array. -/
def settleItems (scope : Scope) : List Draft → Except ReadError (List Json)
  | [] => .ok []
  | x :: xs => do
    let x ← settle scope x
    let xs ← settleItems scope xs
    pure (x :: xs)

/-- The values of the fields of an object. -/
def settleFields (scope : Scope) :
    List (Option String × Draft) → Except ReadError (List (String × Json))
  | [] => .ok []
  | (k, v) :: fs => do
    let k ← content k
    let v ← settle scope v
    let fs ← settleFields scope fs
    pure ((k, v) :: fs)

end

/-! ## 3. Scalars, options, lists -/

/-- A text. -/
def string : Reader String
  | _, .text s => content s
  | _, d => reject "a string" d

/-- A truth value. -/
def boolean : Reader Bool
  | _, .bool b => .ok b
  | _, d => reject "a boolean" d

/-- A whole number up to `greatest`; `kind` names the type in messages. -/
def natural (kind : String) (greatest : Nat) : Reader Nat
  | _, .number (some (.natural n)) =>
    if n ≤ greatest then .ok n else refuse (.wrongValue (.number (.natural n)) kind)
  | _, .number (some (.negative n)) => refuse (.wrongValue (.number (.negative n)) kind)
  | _, d => reject kind d

/-- A whole number of 16 bits. -/
def nat16 : Reader Nat := natural "u16" 0xffff

/-- A whole number of 64 bits. -/
def nat64 : Reader Nat := natural "usize" 0xffffffffffffffff

/-- A value, or `null` for none. -/
def optional {α : Type} (r : Reader α) : Reader (Option α)
  | _, .null => .ok none
  | scope, d => do
    let a ← r scope d
    pure (some a)

/-- The items of an array, each read in turn. -/
def readItems {α : Type} (r : Reader α) (scope : Scope) : List Draft → Except ReadError (List α)
  | [] => .ok []
  | x :: xs => do
    let a ← r scope x
    let as ← readItems r scope xs
    pure (a :: as)

/-- An array of values. -/
def list {α : Type} (r : Reader α) : Reader (List α)
  | scope, .array items ending => do
    let scope ← scope.enter
    let as ← readItems r scope items
    finish ending
    pure as
  | _, d => reject "a sequence" d

/-- The entries of an object, each read in turn. -/
def readEntries {α : Type} (r : Reader α) (scope : Scope) :
    List (Option String × Draft) → Except ReadError (List (String × α))
  | [] => .ok []
  | (k, v) :: fs => do
    let k ← content k
    let a ← r scope v
    let as ← readEntries r scope fs
    pure ((k, a) :: as)

/-- An object that maps names to values, as its entries in order. -/
def entries {α : Type} (r : Reader α) : Reader (List (String × α))
  | scope, .object fields ending => do
    let scope ← scope.enter
    let as ← readEntries r scope fields
    finish ending
    pure as
  | scope, .unnamed _ => do
    let _ ← scope.enter
    fail .malformed
  | _, d => reject "a map" d

/-- What follows `count` items of an array that should hold no more. -/
def finishItems (scope : Scope) (count : Nat) (rest : List Draft) (ending : Ending) :
    Except ReadError Unit :=
  match rest, scope with
  | _ :: _, .text _ => fail .malformed
  | _ :: _, .aside =>
    refuse (.wrongLength (count + rest.length)
      (Nat.repr count ++ (if count = 1 then " element in sequence" else " elements in sequence")))
  | [], _ =>
    match ending with
    | .torn true _ => fail .malformed
    | ending => finish ending

/-- An array of two values. -/
def pair {α β : Type} (ra : Reader α) (rb : Reader β) : Reader (α × β)
  | scope, .array items ending => do
    let inner ← scope.enter
    match items with
    | [] =>
      finish ending
      refuse (.wrongLength 0 "a tuple of size 2")
    | [x] =>
      let _ ← ra inner x
      finish ending
      refuse (.wrongLength 1 "a tuple of size 2")
    | x :: y :: rest =>
      let a ← ra inner x
      let b ← rb inner y
      finishItems scope 2 rest ending
      pure (a, b)
  | _, d => reject "a tuple of size 2" d

/-! ## 4. Records -/

/-- A field of a record. -/
structure Field (α : Type) where
  name : String
  read : Reader α
  /-- its value when an object does not have it -/
  ifAbsent : Option α
  /-- its value when an array is too short to have it -/
  ifShort : Option α

/-- A field that has to be there. -/
def Field.required {α : Type} (name : String) (r : Reader α) : Field α := ⟨name, r, none, none⟩

/-- A field with a value of its own when it is not there. -/
def Field.withDefault {α : Type} (name : String) (r : Reader α) (a : α) : Field α :=
  ⟨name, r, some a, some a⟩

/-- A field that may be `null` or left out. -/
def Field.optional {α : Type} (name : String) (r : Reader α) : Field (Option α) :=
  .withDefault name (Json.optional r) none

/-- A field that may be `null`, and that an object may leave out but an array may not. -/
def Field.nullable {α : Type} (name : String) (r : Reader α) : Field (Option α) :=
  ⟨name, Json.optional r, some none, none⟩

/-- The fields of a record, in the order of their declaration. -/
def Fields : List Type → Type
  | [] => Unit
  | α :: αs => Field α × Fields αs

/-- The values of a record's fields. -/
def Values : List Type → Type
  | [] => Unit
  | α :: αs => α × Values αs

/-- The values that were read so far. -/
def Slots : List Type → Type
  | [] => Unit
  | α :: αs => Option α × Slots αs

/-- No value read yet. -/
def Slots.empty : (αs : List Type) → Slots αs
  | [] => ()
  | _ :: αs => (none, Slots.empty αs)

/-- Reads a field into its slot; a field of another name is skipped. -/
def store (scope : Scope) (key : String) (d : Draft) :
    {αs : List Type} → Fields αs → Slots αs → Except ReadError (Slots αs)
  | [], _, slots => do
    match scope with
    | .text _ => skip d
    | .aside => pure ()
    pure slots
  | _ :: _, (f, fs), (a, slots) =>
    if key = f.name then
      match a with
      | some _ => refuse (.duplicateField key)
      | none => do
        let a ← f.read scope d
        pure (some a, slots)
    else do
      let slots ← store scope key d fs slots
      pure (a, slots)

/-- Reads the fields of an object in text order. -/
def storeAll {αs : List Type} (scope : Scope) (fs : Fields αs) :
    Slots αs → List (Option String × Draft) → Except ReadError (Slots αs)
  | slots, [] => .ok slots
  | slots, (k, d) :: rest => do
    let k ← content k
    let slots ← store scope k d fs slots
    storeAll scope fs slots rest

/-- The values of all fields, or the first field without one. -/
def collect : {αs : List Type} → Fields αs → Slots αs → Except ReadError (Values αs)
  | [], _, _ => .ok ()
  | _ :: _, (f, fs), (a, slots) => do
    let a ← match a, f.ifAbsent with
      | some a, _ => pure a
      | none, some a => pure a
      | none, none => refuse (.missingField f.name)
    let as ← collect fs slots
    pure (a, as)

/-- The number of fields in words. -/
def elements (n : Nat) : String :=
  Nat.repr n ++ (if n = 1 then " element" else " elements")

/-- Reads the fields from the items of an array; `index` fields were declared before. -/
def readInOrder (wanted : String) (scope : Scope) (ending : Ending) (index : Nat) :
    {αs : List Type} → Fields αs → List Draft → Except ReadError (Values αs × List Draft)
  | [], _, items => .ok ((), items)
  | _ :: _, (f, fs), x :: items => do
    let a ← f.read scope x
    let (as, items) ← readInOrder wanted scope ending (index + 1) fs items
    pure ((a, as), items)
  | _ :: _, (f, fs), [] => do
    finish ending
    match f.ifShort with
    | none => refuse (.wrongLength index wanted)
    | some a =>
      let (as, items) ← readInOrder wanted scope ending (index + 1) fs []
      pure ((a, as), items)

/-- The values of the fields `fs` from an object that has them by name, or an array that has
them in order.  `what` names the record in messages. -/
def record {αs : List Type} (what : String) (fs : Fields αs) : Reader (Values αs)
  | scope, .object fields ending => do
    let inner ← scope.enter
    let slots ← storeAll inner fs (Slots.empty αs) fields
    finish ending
    collect fs slots
  | scope, .array items ending => do
    let inner ← scope.enter
    let wanted := what ++ " with " ++ elements αs.length
    let (as, rest) ← readInOrder wanted inner ending 0 fs items
    finishItems scope αs.length rest ending
    pure as
  | scope, .unnamed _ => do
    let _ ← scope.enter
    fail .malformed
  | _, d => reject what d

/-! ## 5. Alternatives -/

/-- An alternative of a variant: bare, or holding a value. -/
inductive Alternative (α : Type) where
  | bare (a : α)
  | holding (r : Reader α)

/-- The alternative of that name. -/
def alternative? {α : Type} (alternatives : List (String × α)) (name : String) :
    Except ReadError α :=
  match alternatives.lookup name with
  | some a => .ok a
  | none => refuse (.unknownVariant name (alternatives.map Prod.fst))

/-- The value of a bare alternative that is written as an object. -/
def nothing : Reader Unit
  | _, .null => .ok ()
  | .aside, .object [] .closed => .ok ()
  | _, d => reject "unit" d

/-- The value that follows the name of an alternative in an object. -/
def Alternative.read {α : Type} (scope : Scope) (d : Draft) : Alternative α → Except ReadError α
  | .bare a => do
    nothing scope d
    pure a
  | .holding r => r scope d

/-- What follows the only field of an alternative that is written as an object. -/
def finishAlternative (rest : List (Option String × Draft)) (ending : Ending) :
    Except ReadError Unit :=
  match rest, ending with
  | [], .closed => .ok ()
  | [], .torn false .missing => fail .truncated
  | _, _ => fail .malformed

/-- One of several alternatives: the name alone for a bare one, and an object from the name to
the value for one that holds a value. -/
def variant {α : Type} (alternatives : List (String × Alternative α)) : Reader α
  | _, .text s => do
    let s ← content s
    match ← alternative? alternatives s with
    | .bare a => pure a
    | .holding _ => refuse (.wrongType .bareVariant "newtype variant")
  | .aside, .object [(some k, d)] .closed => do
    let a ← alternative? alternatives k
    a.read .aside d
  | .aside, .object _ _ => refuse (.wrongValue .object "map with a single key")
  | .aside, d => reject "string or map" d
  | .text n, .object fields ending => do
    let scope ← (Scope.text n).enter
    match fields with
    | [] =>
      match ending with
      | .closed => fail .malformed
      | ending =>
        finish ending
        fail .malformed
    | (k, d) :: rest =>
      let k ← content k
      let a ← alternative? alternatives k
      let a ← a.read scope d
      finishAlternative rest ending
      pure a
  | .text n, .unnamed d => do
    let _ ← (Scope.text n).enter
    reject "variant identifier" d
  | .text _, .flaw .missing => fail .truncated
  | .text _, .flaw (.text first _) => fail first
  | .text _, _ => fail .malformed

/-- One of several bare alternatives. -/
def choice {α : Type} (alternatives : List (String × α)) : Reader α :=
  variant (alternatives.map fun a => (a.1, .bare a.2))

/-! ## 6. Tagged objects -/

/-- The alternative that a tag names; a tag that was set aside may also be its position. -/
def readTag {α : Type} (alternatives : List (String × α)) : Reader α
  | _, .text s => do
    let s ← content s
    alternative? alternatives s
  | .aside, .number (some (.natural n)) =>
    match alternatives[n]? with
    | some a => .ok a.2
    | none =>
      refuse (.wrongValue (.number (.natural n))
        ("variant index 0 <= i < " ++ Nat.repr alternatives.length))
  | _, d => reject "variant identifier" d

/-- Reads an object up to its end: the alternative that the tag names, and the other fields,
set aside. -/
def splitTag {α : Type} (tag : String) (alternatives : List (String × α)) (scope : Scope) :
    Option α → List (Option String × Draft) →
      Except ReadError (Option α × List (String × Json))
  | found, [] => .ok (found, [])
  | found, (k, d) :: rest => do
    let k ← content k
    if k = tag then
      match found with
      | some _ => refuse (.duplicateField tag)
      | none =>
        let a ← readTag alternatives scope d
        splitTag tag alternatives scope (some a) rest
    else
      let v ← settle scope d
      let (found, fields) ← splitTag tag alternatives scope found rest
      pure (found, (k, v) :: fields)

/-- One of several alternatives, named by the field `tag` of the object itself, or by the
first item of an array.  `what` names the type in messages. -/
def tagged {α : Type} (what tag : String) (alternatives : List (String × Reader α)) : Reader α
  | scope, .object fields ending => do
    let inner ← scope.enter
    let (found, fields) ← splitTag tag alternatives inner none fields
    finish ending
    match found with
    | none => refuse (.missingField tag)
    | some r => r .aside (draft (.object fields))
  | scope, .array items ending => do
    let inner ← scope.enter
    match items with
    | [] =>
      finish ending
      refuse (.missingField tag)
    | x :: items =>
      let r ← readTag alternatives inner x
      let items ← settleItems inner items
      finish ending
      r .aside (draft (.array items))
  | scope, .unnamed _ => do
    let _ ← scope.enter
    fail .malformed
  | _, d => reject what d

/-- The content of a tagged alternative that has no fields. -/
def noFields {α : Type} (a : α) : Reader α
  | _, .array (_ :: xs) _ =>
    refuse (.wrongLength (xs.length + 1) "0 elements in sequence")
  | _, _ => .ok a

/-! ## 7. Whole texts -/

/-- Reads a text that holds one value and nothing else. -/
def readText {α : Type} (r : Reader α) (text : String) : Except ReadError α := do
  let (d, more) := parse text
  let a ← r (.text nestingLimit) d
  if more then fail .malformed
  pure a

/-- The value of a text. -/
def value : Reader Json := settle

end EntityLayout.Json
