/-
# Asking for composite types, one after another

A register grows by requests.  A request finds the type of its attribute, or appends it behind
those of the composite attributes in it.  Two attributes may share the name of a type: then the
type is that of the first of them that was reached, and the other one finds it there.

* `TypeRegister.Appends`: entries were appended, inner attributes first.
* `TypeRegister.ensureWithin_appends`: **a request appends only what lies in its attribute.**
* `TypeRegister.IsGranted`, `isGranted_ensure`: what a request does to any register.
* `TypeRegister.ensureAll_ofDecl`: **every request is granted, after any requests before it.**
-/
import EntityLayout.Proofs.Diagram.Nesting
import EntityLayout.Proofs.Tables.Failures
import EntityLayout.Proofs.Tables.TypeOrder

namespace EntityLayout.TypeRegister

variable {naming : Naming} {d : Diagram} {schema : SchemaDecl} {types types₁ types' : TypeRegister}
  {P P' : AttributeNode → Prop}
  {ensurePart ensurePart' : AttributeNode → TypeRegister →
    Except DiagramError (String × TypeRegister)}

/-! ## 1. Appended entries -/

/-- The entry for an attribute: a type of its name with a field for every part. -/
def entryOf (naming : Naming) (d : Diagram) (a : AttributeNode) : String × CompositeType :=
  (naming.typeName a.path, ⟨naming.typeName a.path, (d.partsOf a).map (fieldOf naming)⟩)

/-- Entries for attributes with `P` were appended to those that were there, none of them behind
that of an attribute around its own. -/
def Appends (naming : Naming) (d : Diagram) (P : AttributeNode → Prop)
    (types types' : TypeRegister) : Prop :=
  ∃ made : List AttributeNode, types'.entries = types.entries ++ made.map (entryOf naming d) ∧
    (∀ b ∈ made, P b) ∧ made.Pairwise fun b c => ¬d.Encloses b c

theorem Appends.refl : Appends naming d P types types :=
  ⟨[], (List.append_nil _).symm, fun _ hb => absurd hb List.not_mem_nil, .nil⟩

theorem Appends.mono (h : Appends naming d P types types') (hP : ∀ b, P b → P' b) :
    Appends naming d P' types types' := by
  obtain ⟨made, hentries, hmade, hinner⟩ := h
  exact ⟨made, hentries, fun b hb => hP b (hmade b hb), hinner⟩

/-- What is appended later must not lie in what was appended before. -/
theorem Appends.trans (h : Appends naming d P types types₁)
    (h' : Appends naming d P' types₁ types') (hlater : ∀ b c, P b → P' c → ¬d.Encloses b c) :
    Appends naming d (fun b => P b ∨ P' b) types types' := by
  obtain ⟨made, hentries, hmade, hinner⟩ := h
  obtain ⟨made', hentries', hmade', hinner'⟩ := h'
  refine ⟨made ++ made', ?_, fun b hb => ?_, ?_⟩
  · rw [hentries', hentries, List.map_append, List.append_assoc]
  · exact (List.mem_append.mp hb).imp (hmade b) (hmade' b)
  · rw [List.pairwise_append]
    exact ⟨hinner, hinner', fun b hb c hc => hlater b c (hmade b hb) (hmade' c hc)⟩

theorem Appends.insert {a : AttributeNode} (hnew : naming.typeName a.path ∉ types.names) :
    Appends naming d (· = a) types
      (types.insert (naming.typeName a.path) (entryOf naming d a).2) :=
  ⟨[a], Register.entries_insert hnew, fun _ hb => List.mem_singleton.mp hb,
    List.pairwise_singleton _ _⟩

/-! ## 2. What a request may append -/

/-- A request for the type of `a` may append that of `b`: this is `a` itself, or a composite
attribute in it. -/
def CallsFor (d : Diagram) (a b : AttributeNode) : Prop :=
  b = a ∨ d.Encloses a b ∧ b.isComposite = true

theorem CallsFor.spans {a b : AttributeNode} (h : CallsFor d a b) : d.Spans a b :=
  Diagram.spans_iff.mpr (h.imp_right And.left)

/-- What is reached from a composite part is reached from the whole, as what lies in it. -/
theorem CallsFor.of_part {a b part : AttributeNode} (hpart : d.Surrounds a part)
    (hcomposite : part.isComposite = true) (h : CallsFor d part b) :
    d.Encloses a b ∧ b.isComposite = true := by
  rcases h with rfl | ⟨hinside, hb⟩
  · exact ⟨.single hpart, hcomposite⟩
  · exact ⟨.head hpart hinside, hb⟩

/-- The parts append one after another, as long as nothing in a later part lies in an earlier
one. -/
theorem fieldsBy_appends : ∀ {paths : List String} {parts : List AttributeNode}
    {types types' : TypeRegister} {fields : List CompositeField},
      paths.mapM d.attributeAt = .ok parts →
        fieldsBy d ensurePart paths types = .ok (fields, types') →
          (∀ part ∈ parts, ∀ types name types', ensurePart part types = .ok (name, types') →
            Appends naming d (CallsFor d part) types types') →
            (parts.Pairwise fun p q => ∀ b c, d.Spans p b → d.Spans q c → ¬d.Encloses b c) →
              Appends naming d
                (fun b => ∃ part ∈ parts, part.isComposite = true ∧ CallsFor d part b) types types'
  | [], _, types, types', fields, hparts, h, _, _ => by
    obtain ⟨-, rfl⟩ := fieldsBy_nil_eq_ok.mp h
    exact .refl
  | path :: paths, parts, types, types', fields, hparts, h, hensure, hapart => by
    obtain ⟨part, type, types₁, rest, hpart, htype, hrest, -⟩ := fieldsBy_cons_eq_ok.mp h
    obtain ⟨part', parts, hpart', hall, rfl⟩ :=
      List.forall₂_cons_left_iff.mp (mapM_eq_ok.mp hparts)
    obtain rfl := Except.ok.inj (hpart.symm.trans hpart')
    obtain ⟨hfirst, hapart⟩ := List.pairwise_cons.mp hapart
    have hlater := fieldsBy_appends (mapM_eq_ok.mpr hall) hrest
      (fun p hp => hensure p (List.mem_cons_of_mem _ hp)) hapart
    rw [partType_eq_ok] at htype
    split at htype
    · next hcomposite =>
      obtain ⟨name, hname, -⟩ := htype
      have hown := hensure part List.mem_cons_self types name types₁ hname
      refine (hown.trans hlater ?_).mono fun b hb => ?_
      · rintro b c hb ⟨q, hq, -, hc⟩
        exact hfirst q hq b c hb.spans hc.spans
      · rcases hb with hb | ⟨q, hq, hb⟩
        · exact ⟨part, List.mem_cons_self, hcomposite, hb⟩
        · exact ⟨q, List.mem_cons_of_mem _ hq, hb⟩
    · obtain ⟨-, rfl⟩ := htype
      exact hlater.mono fun b ⟨q, hq, hb⟩ => ⟨q, List.mem_cons_of_mem _ hq, hb⟩

section

variable (hw : schema.IsWellFormed)

include hw

/-- Nothing in one part of an attribute lies in another. -/
theorem pairwise_partsOf {a : AttributeNode} (ha : .attr a ∈ schema.diagram.nodes) :
    (schema.diagram.partsOf a).Pairwise fun p q => ∀ b c, schema.diagram.Spans p b →
      schema.diagram.Spans q c → ¬schema.diagram.Encloses b c := by
  refine (hw.nodup_partsOf a).imp_of_mem fun {p q} hp hq hne b c hpb hqc hbc => hne ?_
  have hpc : schema.diagram.Spans p c := hpb.trans hbc.to_reflTransGen
  exact hw.apart (Diagram.surrounds_of_mem_partsOf ha hp)
    (Diagram.surrounds_of_mem_partsOf ha hq) hpc hqc

/-- **A request appends only what lies in its attribute**, inner attributes first. -/
theorem ensureWithin_appends : ∀ {depth : Nat} {a : AttributeNode} {types : TypeRegister}
    {name : String} {types' : TypeRegister},
      ensureWithin naming schema.diagram depth a types = .ok (name, types') →
        .attr a ∈ schema.diagram.nodes →
          Appends naming schema.diagram (CallsFor schema.diagram a) types types'
  | 0, _, _, _, _, h, _ => nomatch h
  | depth + 1, a, types, name, types', h, ha => by
    obtain ⟨rfl, ⟨-, rfl⟩ | ⟨parts, types₁, hparts, hfields, -, -, hnew, rfl⟩⟩ :=
      (ensures_ensureWithin hw.isHereditary depth _).ensureWithin_cases hw.isHereditary h ha
    · exact .refl
    · obtain rfl := Except.ok.inj (hparts.symm.trans (hw.mapM_children ha))
      have hmem : ∀ part ∈ schema.diagram.partsOf a, .attr part ∈ schema.diagram.nodes :=
        fun part hpart => (Diagram.mem_partsOf.mp hpart).1
      have hinside : ∀ b, (∃ part ∈ schema.diagram.partsOf a, part.isComposite = true ∧
          CallsFor schema.diagram part b) →
            schema.diagram.Encloses a b ∧ b.isComposite = true := by
        rintro b ⟨part, hpart, hcomposite, hb⟩
        exact hb.of_part (Diagram.surrounds_of_mem_partsOf ha hpart) hcomposite
      have hinner := fieldsBy_appends hparts hfields
        (fun part hpart _ _ _ hensure => ensureWithin_appends hensure (hmem part hpart))
        (pairwise_partsOf hw ha)
      refine (hinner.trans (.insert hnew) ?_).mono fun b hb => ?_
      · -- the attribute does not lie in what lies in it
        rintro b c hb rfl hbc
        exact Nat.lt_asymm (SchemaDecl.IsWellFormed.length_lt_of_encloses (hinside b hb).1)
          (SchemaDecl.IsWellFormed.length_lt_of_encloses hbc)
      · exact hb.symm.imp_right (hinside b)

end

/-! ## 3. The bound on the nesting -/

theorem fieldsBy_mono (h : ∀ part types r, ensurePart part types = .ok r →
    ensurePart' part types = .ok r) : ∀ {paths : List String} {types types' : TypeRegister}
      {fields : List CompositeField}, fieldsBy d ensurePart paths types = .ok (fields, types') →
        fieldsBy d ensurePart' paths types = .ok (fields, types')
  | [], _, _, _, hfields => hfields
  | path :: paths, types, types', fields, hfields => by
    rw [fieldsBy_cons_eq_ok] at hfields ⊢
    obtain ⟨part, type, types₁, rest, hpart, htype, hrest, rfl⟩ := hfields
    refine ⟨part, type, types₁, rest, hpart, ?_, fieldsBy_mono h hrest, rfl⟩
    rw [partType_eq_ok] at htype ⊢
    split at htype
    · next hcomposite =>
      obtain ⟨name, hname, rfl⟩ := htype
      rw [if_pos hcomposite]
      exact ⟨name, h _ _ _ hname, rfl⟩
    · next hsingle => rwa [if_neg hsingle]

/-- A larger bound changes no answer. -/
theorem ensureWithin_mono : ∀ {depth depth' : Nat} {a : AttributeNode} {types : TypeRegister}
    {r : String × TypeRegister}, depth ≤ depth' → ensureWithin naming d depth a types = .ok r →
      ensureWithin naming d depth' a types = .ok r
  | 0, _, _, _, _, _, h => nomatch h
  | depth + 1, 0, _, _, _, hle, _ => absurd hle (Nat.not_succ_le_zero depth)
  | depth + 1, depth' + 1, a, types, ⟨name, types'⟩, hle, h => by
    rw [ensureWithin_eq_ok] at h ⊢
    refine ⟨h.1, ?_⟩
    have h := h.2
    split at h
    · next hcontains => rwa [if_pos hcontains]
    · next hcontains =>
      obtain ⟨fields, types₁, hfields, rfl⟩ := h
      rw [if_neg hcontains]
      exact ⟨fields, types₁, fieldsBy_mono (fun _ _ _ =>
        ensureWithin_mono (Nat.le_of_succ_le_succ hle)) hfields, rfl⟩

/-! ## 4. Requests -/

/-- What a request for the type of an attribute does to a register. -/
structure IsGranted (naming : Naming) (d : Diagram) (a : AttributeNode)
    (types types' : TypeRegister) : Prop where
  /-- it ends, and as no chain of parts is longer than the diagram, whatever else bounds them -/
  answered : ∀ depth, d.nodes.length < depth →
    ensureWithin naming d depth a types = .ok (naming.typeName a.path, types')
  /-- the name that it answers with is registered -/
  registered : naming.typeName a.path ∈ types'.names
  /-- all that was registered stays in its place, and what is new is the attribute's own type or
  that of a composite attribute in it, inner ones first -/
  appended : Appends naming d (CallsFor d a) types types'

/-- A type that is there is answered with, and nothing is done. -/
theorem ensure_of_mem {a : AttributeNode} (h : naming.typeName a.path ∈ types.names) :
    types.ensure naming d a = .ok (naming.typeName a.path, types) :=
  ensureWithin_eq_ok.mpr ⟨rfl, by rw [if_pos (Register.contains_iff.mpr h)]⟩

/-- **Every request is granted**, whatever is registered. -/
theorem isGranted_ensure (hw : schema.IsWellFormed) (naming : Naming) {a : AttributeNode}
    (ha : .attr a ∈ schema.diagram.nodes) (types : TypeRegister) :
    ∃ types', types.ensure naming schema.diagram a = .ok (naming.typeName a.path, types') ∧
      IsGranted naming schema.diagram a types types' := by
  obtain ⟨⟨name, types'⟩, h⟩ := exists_ensure naming hw ha types
  obtain rfl := ensureWithin_name h
  refine ⟨types', h, fun depth hdepth => ensureWithin_mono hdepth h, ?_,
    ensureWithin_appends hw h ha⟩
  exact (ensureWithin_adds hw.isHereditary h ha).1

/-- The answers to requests in order, with the register that they leave. -/
def ensureAll (naming : Naming) (d : Diagram) :
    List AttributeNode → TypeRegister → Except DiagramError (List String × TypeRegister)
  | [], types => .ok ([], types)
  | a :: as, types => do
    let (name, types) ← types.ensure naming d a
    let (names, types) ← ensureAll naming d as types
    pure (name :: names, types)

theorem exists_ensureAll (hw : schema.IsWellFormed) (naming : Naming) :
    ∀ (calls : List AttributeNode), (∀ a ∈ calls, .attr a ∈ schema.diagram.nodes) →
      ∀ types, ∃ types', ensureAll naming schema.diagram calls types =
          .ok (calls.map fun a => naming.typeName a.path, types') ∧
        Adds naming schema.diagram (fun a => .attr a ∈ schema.diagram.nodes) 0 types types' ∧
        ∀ a ∈ calls, naming.typeName a.path ∈ types'.names
  | [], _, types => ⟨types, rfl, .refl, fun _ ha => absurd ha List.not_mem_nil⟩
  | a :: calls, hcalls, types => by
    obtain ⟨ha, hcalls⟩ := List.forall_mem_cons.mp hcalls
    obtain ⟨types₁, hensure, hgranted⟩ := isGranted_ensure hw naming ha types
    obtain ⟨types', hall, hadds, hnames⟩ := exists_ensureAll hw naming calls hcalls types₁
    have hfirst := (ensureWithin_adds hw.isHereditary hensure ha).2
    refine ⟨types', ?_, (hfirst.mono (Nat.zero_le _)).trans hadds, ?_⟩
    · rw [ensureAll, hensure, ok_bind]
      dsimp only
      rw [hall]
      rfl
    · exact List.forall_mem_cons.mpr ⟨hadds.kept _ hgranted.registered, hnames⟩

/-- **After any requests, every request is granted**, those that were made before change nothing,
and every type stands behind the types of its fields. -/
theorem ensureAll_ofDecl (hd : Diagram.ofDecl schema = .ok d) (naming : Naming)
    {calls : List AttributeNode} (hcalls : ∀ a ∈ calls, .attr a ∈ d.nodes) :
    ∃ types, ensureAll naming d calls .empty =
        .ok (calls.map fun a => naming.typeName a.path, types) ∧
      (∀ a ∈ calls, types.ensure naming d a = .ok (naming.typeName a.path, types)) ∧
      Sql.IsInOrder (types.values.map CompositeType.statement) ∧
      ∀ a, .attr a ∈ d.nodes → ∃ types',
        types.ensure naming d a = .ok (naming.typeName a.path, types') ∧
          IsGranted naming d a types types' := by
  obtain ⟨hw, rfl⟩ := Diagram.ofDecl_eq_ok.mp hd
  obtain ⟨types, hall, hadds, hnames⟩ := exists_ensureAll hw naming calls hcalls .empty
  exact ⟨types, hall, fun a ha => ensure_of_mem (hnames a ha), (hadds.made .empty).isInOrder,
    fun a ha => isGranted_ensure hw naming ha types⟩

/-- A home, a home address of the same type name as the address in the home, and the home
again. -/
theorem ensureAll_homes : ∃ d home address types, Diagram.ofDecl .homes = .ok d ∧
    d.attributeAt "person.home" = .ok home ∧ d.attributeAt "person.home_address" = .ok address ∧
      ensureAll .standard d [home, address, home] .empty =
        .ok (["person_home_type", "person_home_address_type", "person_home_type"], types) ∧
      types.names = ["person_home_address_type", "person_home_type"] ∧
      types.ensure .standard d address = .ok (Naming.standard.typeName address.path, types) := by
  have heval : (Diagram.ofDecl .homes).toOption.any (fun d =>
      (d.attributeAt "person.home").toOption.any fun home =>
        (d.attributeAt "person.home_address").toOption.any fun address =>
          (ensureAll .standard d [home, address, home] .empty).toOption.any fun r =>
            decide (r.1 = ["person_home_type", "person_home_address_type", "person_home_type"] ∧
              r.2.names = ["person_home_address_type", "person_home_type"])) = true := by
    decide +kernel
  obtain ⟨d, hd, heval⟩ := exists_of_any heval
  obtain ⟨home, hhome, heval⟩ := exists_of_any heval
  obtain ⟨address, haddress, heval⟩ := exists_of_any heval
  obtain ⟨⟨names, types⟩, hall, heval⟩ := exists_of_any heval
  obtain ⟨hnames, htypes⟩ := of_decide_eq_true heval
  obtain ⟨hw, rfl⟩ := Diagram.ofDecl_eq_ok.mp hd
  have hcalls : ∀ a ∈ [home, address, home], .attr a ∈ SchemaDecl.homes.diagram.nodes := by
    simp [(hw.isIndexed.attributeAt_eq_ok.mp hhome).1,
      (hw.isIndexed.attributeAt_eq_ok.mp haddress).1]
  obtain ⟨types', hall', hagain, -⟩ := ensureAll_ofDecl hd .standard hcalls
  obtain ⟨-, rfl⟩ := Prod.mk.inj (Except.ok.inj (hall.symm.trans hall'))
  refine ⟨_, home, address, types, hd, hhome, haddress, ?_, htypes, hagain address (by simp)⟩
  rw [hall]
  exact congrArg (fun names => Except.ok (names, types)) hnames

end EntityLayout.TypeRegister
