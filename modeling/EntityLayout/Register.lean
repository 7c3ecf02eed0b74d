/-
# Registers: tables in order of insertion

A register maps names to values and lists them in the order in which the names were first
inserted.  Inserting a name again replaces its value and keeps its place.

* `names_insert`: the names after an insertion.
* `get?_insert`: the values after an insertion.
-/

namespace EntityLayout

/-- Named values in order of insertion, no name twice. -/
structure Register (α : Type) where
  entries : List (String × α)
  nodup : (entries.map Prod.fst).Nodup

namespace Register

variable {α : Type}

/-! ## 1. Entry lists -/

/-- The value of the first entry of that name. -/
def find? (name : String) : List (String × α) → Option α
  | [] => none
  | (k, a) :: es => if k = name then some a else find? name es

/-- Replaces the value of that name, or appends the entry. -/
def put (name : String) (a : α) : List (String × α) → List (String × α)
  | [] => [(name, a)]
  | (k, b) :: es => if k = name then (k, a) :: es else (k, b) :: put name a es

theorem map_fst_put (name : String) (a : α) (es : List (String × α)) :
    (put name a es).map Prod.fst =
      if name ∈ es.map Prod.fst then es.map Prod.fst else es.map Prod.fst ++ [name] := by
  induction es with
  | nil => simp [put]
  | cons e es ih =>
    obtain ⟨k, b⟩ := e
    by_cases h : k = name
    · simp [put, h]
    · have h' : ¬name = k := fun e => h e.symm
      simp only [put, if_neg h, List.map_cons, ih, List.mem_cons, h', false_or]
      split <;> simp

theorem nodup_put {name : String} {a : α} {es : List (String × α)}
    (h : (es.map Prod.fst).Nodup) : ((put name a es).map Prod.fst).Nodup := by
  rw [map_fst_put]
  split
  · exact h
  · next hn =>
    rw [List.nodup_append]
    refine ⟨h, by simp, fun x hx y hy => ?_⟩
    simp only [List.mem_singleton] at hy
    subst hy
    exact fun e => hn (e ▸ hx)

theorem find?_put (name key : String) (a : α) (es : List (String × α)) :
    find? key (put name a es) = if key = name then some a else find? key es := by
  induction es with
  | nil =>
    by_cases h : key = name
    · simp [put, find?, h]
    · have h' : ¬name = key := fun e => h e.symm
      simp [put, find?, h, h']
  | cons e es ih =>
    obtain ⟨k, b⟩ := e
    by_cases hk : k = name
    · subst hk
      by_cases h : key = k
      · simp [put, find?, h]
      · have h' : ¬k = key := fun e => h e.symm
        simp [put, find?, h, h']
    · simp only [put, if_neg hk, find?, ih]
      by_cases h : k = key
      · have : ¬key = name := fun e => hk (h.trans e)
        simp [h, this]
      · simp [h]

/-! ## 2. Registers -/

/-- The register without entries. -/
def empty : Register α := ⟨[], by simp⟩

instance : Inhabited (Register α) := ⟨empty⟩

/-- The value of a name. -/
def get? (r : Register α) (name : String) : Option α := find? name r.entries

/-- Whether the name has a value. -/
def contains (r : Register α) (name : String) : Bool := (r.get? name).isSome

/-- The names in order. -/
def names (r : Register α) : List String := r.entries.map Prod.fst

/-- The values in order. -/
def values (r : Register α) : List α := r.entries.map Prod.snd

/-- The number of names. -/
def size (r : Register α) : Nat := r.entries.length

/-- Gives the name a value, in its old place or behind the others. -/
def insert (r : Register α) (name : String) (a : α) : Register α :=
  ⟨put name a r.entries, nodup_put r.nodup⟩

/-- The register of a list of entries, inserted in order. -/
def ofList (es : List (String × α)) : Register α :=
  es.foldl (fun r e => r.insert e.1 e.2) empty

instance [DecidableEq α] : DecidableEq (Register α) := fun r s =>
  decidable_of_iff (r.entries = s.entries) (by
    obtain ⟨es, hs⟩ := r
    obtain ⟨fs, ht⟩ := s
    simp)

theorem names_insert (r : Register α) (name : String) (a : α) :
    (r.insert name a).names = if name ∈ r.names then r.names else r.names ++ [name] :=
  map_fst_put name a r.entries

theorem get?_insert (r : Register α) (name key : String) (a : α) :
    (r.insert name a).get? key = if key = name then some a else r.get? key :=
  find?_put name key a r.entries

end Register

end EntityLayout
