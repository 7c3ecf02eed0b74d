/-
# How composite types are made

Making the composite type of an attribute goes through its parts, which may have composite
types of their own; every type that is made on the way is registered.

* `Naming.length_typeName`: type names are as long as their paths.
* `TypeRegister.ensureWithin_eq_ok`, `TypeRegister.fieldsBy_cons_eq_ok`: one step.
* `TypeRegister.Made`: the registers that are filled by such steps, parts first.
* `TypeRegister.ensureWithin_adds`: **making a type takes such steps only.**
-/
import EntityLayout.Proofs.Outcome
import EntityLayout.Proofs.Register
import EntityLayout.Tables.Synthesis

namespace EntityLayout

/-! ## 1. Names of types -/

namespace Path

/-- With underscores in place of its dots, a path keeps its length. -/
theorem toList_separatedBy_underscore (path : String) : (separatedBy "_" path).toList =
    path.toList.map fun c => if isDot c then '_' else c := by
  rw [separatedBy, String.toList_ofList, List.map_eq_flatMap]
  refine congrArg (path.toList.flatMap ·) (funext fun c => ?_)
  split <;> rfl

end Path

/-- The type of a longer path has a longer name. -/
theorem Naming.length_typeName (naming : Naming) (path : String) :
    (naming.typeName path).length = path.length + naming.typeSuffix.length := by
  rw [typeName, String.length_append, ← String.length_toList, Path.toList_separatedBy_underscore,
    List.length_map, String.length_toList]

namespace TypeRegister

open Sql (SqlType)

variable {naming : Naming} {d : Diagram} {types types' : TypeRegister}
  {ensurePart : AttributeNode → TypeRegister → Except DiagramError (String × TypeRegister)}

/-! ## 2. One step -/

/-- The type of the field for a part, with the composite types that are made for it. -/
def partType
    (ensurePart : AttributeNode → TypeRegister → Except DiagramError (String × TypeRegister))
    (part : AttributeNode) (types : TypeRegister) :
    Except DiagramError (SqlType × TypeRegister) :=
  if part.isComposite then do
    let (name, types) ← ensurePart part types
    pure (SqlType.composite name, types)
  else pure (SqlType.ofAttributeType part.type, types)

theorem partType_eq_ok {part : AttributeNode} {type : SqlType} :
    partType ensurePart part types = .ok (type, types') ↔
      if part.isComposite then
        ∃ name, ensurePart part types = .ok (name, types') ∧ type = .composite name
      else type = .ofAttributeType part.type ∧ types' = types := by
  unfold partType
  split
  · simp only [bind_eq_ok, Prod.exists, pure_mk_eq_ok]
    constructor
    · rintro ⟨name, types₁, h, rfl, rfl⟩
      exact ⟨name, h, rfl⟩
    · rintro ⟨name, h, rfl⟩
      exact ⟨name, types', h, rfl, rfl⟩
  · exact pure_mk_eq_ok

theorem fieldsBy_nil_eq_ok {fields : List CompositeField} :
    fieldsBy d ensurePart [] types = .ok (fields, types') ↔ fields = [] ∧ types' = types := by
  rw [fieldsBy, Except.ok.injEq, Prod.mk.injEq, @eq_comm _ fields, @eq_comm _ types']

/-- The field of the first part comes first. -/
theorem fieldsBy_cons_eq_ok {path : String} {paths : List String}
    {fields : List CompositeField} :
    fieldsBy d ensurePart (path :: paths) types = .ok (fields, types') ↔
      ∃ part type types₁ rest, d.attributeAt path = .ok part ∧
        partType ensurePart part types = .ok (type, types₁) ∧
          fieldsBy d ensurePart paths types₁ = .ok (rest, types') ∧
            fields = ⟨Path.leaf part.path, type⟩ :: rest := by
  have hchain : fieldsBy d ensurePart (path :: paths) types =
      d.attributeAt path >>= fun part => partType ensurePart part types >>= fun p =>
        fieldsBy d ensurePart paths p.2 >>= fun q =>
          pure (⟨Path.leaf part.path, p.1⟩ :: q.1, q.2) := by
    rw [fieldsBy]
    refine congrArg _ (funext fun part => ?_)
    unfold partType
    split
    · simp only [bind_assoc, pure_bind]
    · rfl
  rw [hchain]
  simp only [bind_eq_ok, Prod.exists, pure_mk_eq_ok]
  constructor
  · rintro ⟨part, hpart, type, types₁, htype, rest, types₂, hrest, rfl, rfl⟩
    exact ⟨part, type, types₁, rest, hpart, htype, hrest, rfl⟩
  · rintro ⟨part, type, types₁, rest, hpart, htype, hrest, rfl⟩
    exact ⟨part, hpart, type, types₁, htype, rest, types', hrest, rfl, rfl⟩

/-- A type that is there already is left as it is; else it is registered behind those of its
parts. -/
theorem ensureWithin_eq_ok {depth : Nat} {a : AttributeNode} {name : String} :
    ensureWithin naming d (depth + 1) a types = .ok (name, types') ↔
      name = naming.typeName a.path ∧
        if types.contains name then types' = types
        else ∃ fields types₁,
          fieldsBy d (ensureWithin naming d depth) a.children types = .ok (fields, types₁) ∧
            types' = types₁.insert name ⟨name, fields⟩ := by
  rw [ensureWithin]
  dsimp only
  split
  · next h =>
    rw [pure_mk_eq_ok]
    refine and_congr_right ?_
    rintro rfl
    rw [if_pos h]
  · next h =>
    simp only [bind_eq_ok, Prod.exists, pure_mk_eq_ok]
    constructor
    · rintro ⟨fields, types₁, hfields, rfl, rfl⟩
      exact ⟨rfl, by rw [if_neg h]; exact ⟨fields, types₁, hfields, rfl⟩⟩
    · rintro ⟨rfl, htypes⟩
      rw [if_neg h] at htypes
      obtain ⟨fields, types₁, hfields, rfl⟩ := htypes
      exact ⟨fields, types₁, hfields, rfl, rfl⟩

/-- The type is called after the attribute. -/
theorem ensureWithin_name {depth : Nat} {a : AttributeNode} {name : String}
    (h : ensureWithin naming d depth a types = .ok (name, types')) :
    name = naming.typeName a.path := by
  cases depth with
  | zero => exact nomatch h
  | succ depth => exact (ensureWithin_eq_ok.mp h).1

/-! ## 3. What is made -/

/-- The type of the field for a part. -/
def fieldType (naming : Naming) (part : AttributeNode) : SqlType :=
  if part.isComposite then .composite (naming.typeName part.path)
  else .ofAttributeType part.type

/-- The field for a part. -/
def fieldOf (naming : Naming) (part : AttributeNode) : CompositeField :=
  ⟨Path.leaf part.path, fieldType naming part⟩

/-- **Registers of types that were made one by one** for attributes with the property `Q`: each
type is called after its attribute, has a field for every part, and was registered under a new
name after the types of its composite parts. -/
inductive Made (naming : Naming) (d : Diagram) (Q : AttributeNode → Prop) : TypeRegister → Prop where
  | empty : Made naming d Q .empty
  | insert {types : TypeRegister} {a : AttributeNode} {parts : List AttributeNode} :
      Made naming d Q types → Q a → a.children.mapM d.attributeAt = .ok parts →
        (∀ part ∈ parts, part.isComposite = true → naming.typeName part.path ∈ types.names) →
          naming.typeName a.path ∉ types.names →
            Made naming d Q (types.insert (naming.typeName a.path)
              ⟨naming.typeName a.path, parts.map (fieldOf naming)⟩)

/-- The parts of attributes with `Q` have longer paths, and those that are composite have `Q`,
too. -/
def IsHereditary (d : Diagram) (Q : AttributeNode → Prop) : Prop :=
  ∀ a, Q a → ∀ path ∈ a.children, ∀ part, d.attributeAt path = .ok part →
    a.path.length < part.path.length ∧ (part.isComposite = true → Q part)

/-- Types for attributes with `Q` were made behind those that were there, and only under names of
at least that length. -/
structure Adds (naming : Naming) (d : Diagram) (Q : AttributeNode → Prop) (n : Nat)
    (types types' : TypeRegister) : Prop where
  made : Made naming d Q types → Made naming d Q types'
  extended : types.entries <+: types'.entries
  added : ∀ name ∈ types'.names, name ∈ types.names ∨ n ≤ name.length

section

variable {Q : AttributeNode → Prop} {m n : Nat} {types₁ : TypeRegister}

theorem Adds.refl : Adds naming d Q n types types :=
  ⟨id, List.prefix_rfl, fun _ h => .inl h⟩

/-- The types that were there still are. -/
theorem Adds.kept (h : Adds naming d Q n types types') : ∀ name ∈ types.names,
    name ∈ types'.names :=
  fun _ hname => (h.extended.map Prod.fst).subset hname

theorem Adds.trans (h : Adds naming d Q n types types₁) (h' : Adds naming d Q n types₁ types') :
    Adds naming d Q n types types' where
  made := fun hmade => h'.made (h.made hmade)
  extended := h.extended.trans h'.extended
  added := fun name hname => (h'.added name hname).elim (h.added name) .inr

theorem Adds.mono (h : Adds naming d Q n types types') (hmn : m ≤ n) :
    Adds naming d Q m types types' :=
  ⟨h.made, h.extended, fun name hname => (h.added name hname).imp_right (Nat.le_trans hmn)⟩

/-- A type is made after those of its parts. -/
theorem Adds.insert {a : AttributeNode} {parts : List AttributeNode} (ha : Q a)
    (hparts : a.children.mapM d.attributeAt = .ok parts)
    (hnames : ∀ part ∈ parts, part.isComposite = true → naming.typeName part.path ∈ types.names)
    (hnew : naming.typeName a.path ∉ types.names) :
    Adds naming d Q (naming.typeName a.path).length types (types.insert (naming.typeName a.path)
      ⟨naming.typeName a.path, parts.map (fieldOf naming)⟩) where
  made := fun hmade => .insert hmade ha hparts hnames hnew
  extended := by
    rw [Register.entries_insert hnew]
    exact List.prefix_append _ _
  added := by
    intro name hname
    rw [Register.names_insert, if_neg hnew, List.mem_append, List.mem_singleton] at hname
    exact hname.imp_right fun h => Nat.le_of_eq (congrArg String.length h.symm)

/-! ## 4. Making types goes through the parts -/

/-- How types are made for parts, as far as their names have at least that length. -/
def Ensures (naming : Naming) (d : Diagram) (Q : AttributeNode → Prop) (n : Nat)
    (ensurePart : AttributeNode → TypeRegister → Except DiagramError (String × TypeRegister)) :
    Prop :=
  ∀ part types name types', ensurePart part types = .ok (name, types') → Q part →
    n ≤ (naming.typeName part.path).length → name = naming.typeName part.path ∧
      name ∈ types'.names ∧ Adds naming d Q n types types'

/-- The type of the field for a part is there when it is named. -/
theorem Ensures.partType (hensures : Ensures naming d Q n ensurePart) {part : AttributeNode}
    {type : SqlType} (h : partType ensurePart part types = .ok (type, types'))
    (hpart : part.isComposite = true → Q part ∧ n ≤ (naming.typeName part.path).length) :
    type = fieldType naming part ∧
      (part.isComposite = true → naming.typeName part.path ∈ types'.names) ∧
        Adds naming d Q n types types' := by
  rw [partType_eq_ok] at h
  split at h
  · next hcomposite =>
    obtain ⟨name, hname, rfl⟩ := h
    obtain ⟨hQ, hlength⟩ := hpart hcomposite
    obtain ⟨rfl, hmem, hadds⟩ := hensures _ _ _ _ hname hQ hlength
    exact ⟨by rw [fieldType, if_pos hcomposite], fun _ => hmem, hadds⟩
  · next hsingle =>
    obtain ⟨rfl, rfl⟩ := h
    exact ⟨by rw [fieldType, if_neg hsingle], fun hcomposite => absurd hcomposite hsingle, .refl⟩

/-- **There is a field for every part**, and its composite type is there. -/
theorem Ensures.fieldsBy (hensures : Ensures naming d Q n ensurePart) : ∀ {paths : List String}
    {types types' : TypeRegister} {fields : List CompositeField},
      TypeRegister.fieldsBy d ensurePart paths types = .ok (fields, types') →
        (∀ path ∈ paths, ∀ part, d.attributeAt path = .ok part → part.isComposite = true →
          Q part ∧ n ≤ (naming.typeName part.path).length) →
            ∃ parts, paths.mapM d.attributeAt = .ok parts ∧ fields = parts.map (fieldOf naming) ∧
              (∀ part ∈ parts, part.isComposite = true →
                naming.typeName part.path ∈ types'.names) ∧ Adds naming d Q n types types'
  | [], types, types', fields, h, _ => by
    obtain ⟨rfl, rfl⟩ := fieldsBy_nil_eq_ok.mp h
    exact ⟨[], rfl, rfl, fun part hpart => absurd hpart List.not_mem_nil, .refl⟩
  | path :: paths, types, types', fields, h, hparts => by
    obtain ⟨part, type, types₁, rest, hpart, htype, hrest, rfl⟩ := fieldsBy_cons_eq_ok.mp h
    obtain ⟨rfl, hmem, hfirst⟩ := hensures.partType htype (hparts path List.mem_cons_self part hpart)
    obtain ⟨parts, hall, rfl, hnames, hadds⟩ := hensures.fieldsBy hrest fun p hp =>
      hparts p (List.mem_cons_of_mem _ hp)
    refine ⟨part :: parts, ?_, rfl, ?_, hfirst.trans hadds⟩
    · rw [mapM_eq_ok] at hall ⊢
      exact .cons hpart hall
    · exact List.forall_mem_cons.mpr ⟨fun hcomposite => hadds.kept _ (hmem hcomposite), hnames⟩

/-- **A type that is not there yet** is registered behind those of the parts, which leave its name
new. -/
theorem Ensures.ensureWithin_cases (hQ : IsHereditary d Q) {depth : Nat} {a : AttributeNode}
    (hensures : Ensures naming d Q ((naming.typeName a.path).length + 1)
      (ensureWithin naming d depth)) {name : String}
    (h : ensureWithin naming d (depth + 1) a types = .ok (name, types')) (ha : Q a) :
    name = naming.typeName a.path ∧ (name ∈ types.names ∧ types' = types ∨
      ∃ parts types₁, a.children.mapM d.attributeAt = .ok parts ∧
        TypeRegister.fieldsBy d (ensureWithin naming d depth) a.children types =
          .ok (parts.map (fieldOf naming), types₁) ∧
        (∀ part ∈ parts, part.isComposite = true → naming.typeName part.path ∈ types₁.names) ∧
        Adds naming d Q (name.length + 1) types types₁ ∧ name ∉ types₁.names ∧
        types' = types₁.insert name ⟨name, parts.map (fieldOf naming)⟩) := by
  obtain ⟨rfl, h⟩ := ensureWithin_eq_ok.mp h
  refine ⟨rfl, ?_⟩
  split at h
  · next hcontains => exact .inl ⟨Register.contains_iff.mp hcontains, h⟩
  · next hcontains =>
    obtain ⟨fields, types₁, hfields, rfl⟩ := h
    obtain ⟨parts, hparts, rfl, hnames, hadds⟩ :=
        hensures.fieldsBy hfields fun path hpath part hpart hcomposite => by
      obtain ⟨hlt, hQpart⟩ := hQ a ha path hpath part hpart
      refine ⟨hQpart hcomposite, ?_⟩
      rw [Naming.length_typeName, Naming.length_typeName]
      omega
    -- names added for parts are longer, so that of the attribute is still new
    have hnew : naming.typeName a.path ∉ types₁.names := by
      intro hmem
      rcases hadds.added _ hmem with hold | hlength
      · exact hcontains (Register.contains_iff.mpr hold)
      · omega
    exact .inr ⟨parts, types₁, hparts, hfields, hnames, hadds, hnew, rfl⟩

theorem ensures_ensureWithin (hQ : IsHereditary d Q) : ∀ depth n : Nat,
    Ensures naming d Q n (ensureWithin naming d depth)
  | 0, _, _, _, _, _, h, _, _ => nomatch h
  | depth + 1, n, a, types, name, types', h, ha, hn => by
    obtain ⟨rfl, ⟨hmem, rfl⟩ | ⟨parts, types₁, hparts, -, hnames, hadds, hnew, rfl⟩⟩ :=
      (ensures_ensureWithin hQ depth _).ensureWithin_cases hQ h ha
    · exact ⟨rfl, hmem, .refl⟩
    · refine ⟨rfl, ?_,
        ((hadds.mono (Nat.le_succ _)).trans (.insert ha hparts hnames hnew)).mono hn⟩
      rw [Register.names_insert, if_neg hnew]
      exact List.mem_append_right _ (List.mem_singleton.mpr rfl)

/-- **Making the type of an attribute** makes only types of attributes with `Q`, none of a name
shorter than that of the type. -/
theorem ensureWithin_adds (hQ : IsHereditary d Q) {depth : Nat} {a : AttributeNode}
    {name : String} (h : ensureWithin naming d depth a types = .ok (name, types')) (ha : Q a) :
    name ∈ types'.names ∧ Adds naming d Q (naming.typeName a.path).length types types' :=
  (ensures_ensureWithin hQ depth _ a types name types' h ha (Nat.le_refl _)).2

end

/-- **Every registered type is that of an attribute with `Q`**, under its name. -/
theorem Made.exists_of_mem {Q : AttributeNode → Prop} (h : Made naming d Q types) :
    ∀ e ∈ types.entries, ∃ a parts, Q a ∧ a.children.mapM d.attributeAt = .ok parts ∧
      e = (naming.typeName a.path, ⟨naming.typeName a.path, parts.map (fieldOf naming)⟩) := by
  induction h with
  | empty => exact fun e he => absurd he List.not_mem_nil
  | insert _ ha hparts _ hnew ih =>
    intro e he
    rw [Register.entries_insert hnew, List.mem_append, List.mem_singleton] at he
    rcases he with he | rfl
    · exact ih e he
    · exact ⟨_, _, ha, hparts, rfl⟩

end TypeRegister

end EntityLayout
