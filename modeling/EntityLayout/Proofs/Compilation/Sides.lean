/-
# What the keys of two sides are called

A grouping that repeats a name makes the table of a relationship, and the table begins with the
keys of both sides.  They are called after the sides, whatever the entities call their keys.  The
structure of the relationship begins with keys, too, but these are called after the sides only if
the two entities begin with one name.

* `RelationshipDecl.sideNames`, `Grouping.firstRelationship?`: the sides, and whose they are.
* `Compilation.NamesSides`, `Compilation.namesSides_ofDecl`: **when table and structure agree.**
* `Compilation.not_agreeOnSides_staff`: they do not always.
-/
import EntityLayout.Proofs.Compilation.Passes
import EntityLayout.Proofs.Diagram.Consistency

namespace EntityLayout

variable {schema : SchemaDecl} {groupings : List Grouping}

/-! ## 1. Sides -/

/-- What the keys of the two sides of a relationship are called where they are told apart: after
the roles, or else after the entities. -/
def RelationshipDecl.sideNames (naming : Naming) (r : RelationshipDecl) : String × String :=
  match r.roles with
  | some (role₁, role₂) => (naming.roleKeyColumn role₁, naming.roleKeyColumn role₂)
  | none => (naming.keyColumn r.firstPath, naming.keyColumn r.secondPath)

theorem RelationshipDecl.sideNames_node {naming : Naming} {r : RelationshipDecl}
    {e₁ e₂ : EntityDecl} (hfirst : e₁.path = r.firstPath) (hsecond : e₂.path = r.secondPath) :
    Structures.sideNames naming r.node e₁.node e₂.node = r.sideNames naming := by
  rw [sideNames, ← hfirst, ← hsecond]
  rfl

/-- The first relationship that a grouping names. -/
def Grouping.firstRelationship? (g : Grouping) (schema : SchemaDecl) : Option RelationshipDecl :=
  g.names.findSome? fun name => schema.relationships.find? fun r => r.path = Text.lower name

/-- The relationship of that path, if there is one, is found among the declared ones. -/
theorem SchemaDecl.IsWellFormed.relationship?_eq (h : schema.IsWellFormed) {n : Node}
    (hn : n ∈ schema.diagram.nodes) : n.relationship? =
      (schema.relationships.find? fun r => r.path = n.path).map RelationshipDecl.node := by
  cases hfind : schema.relationships.find? fun r => r.path = n.path with
  | some r =>
    have hr := relationship_mem_nodes (List.mem_of_find?_eq_some hfind)
    have hpath : r.path = n.path := by simpa using List.find?_some hfind
    rw [h.isIndexed.eq_of_path hn hr hpath.symm]
    rfl
  | none =>
    cases n with
    | entity e => rfl
    | attr a => rfl
    | relationship r =>
      obtain ⟨decl, hdecl, rfl⟩ := relationship_mem_nodes_iff.mp hn
      exact absurd (decide_eq_true rfl) (List.find?_eq_none.mp hfind decl hdecl)

/-- The first relationship among the nodes of a grouping is the first that it names. -/
theorem Blueprint.findSome?_relationship? (h : schema.IsWellFormed) {layout : Layout}
    {naming : Naming} {g : Grouping} {nodes : List Node}
    (hnodes : nodesOf ⟨schema.diagram, layout, naming⟩ g = .ok nodes) :
    nodes.findSome? Node.relationship? =
      (g.firstRelationship? schema).map RelationshipDecl.node := by
  have hall : List.Forall₂ (fun name n => schema.diagram.nodeAt name = .ok n) g.names nodes :=
    mapM_eq_ok.mp hnodes
  clear hnodes
  rw [Grouping.firstRelationship?]
  generalize g.names = names at hall ⊢
  induction hall with
  | nil => rfl
  | @cons name n names nodes hat _ ih =>
    obtain ⟨hn, hpath⟩ := h.isIndexed.nodeAt_eq_ok.mp hat
    rw [List.findSome?_cons, List.findSome?_cons, h.relationship?_eq hn, hpath]
    cases schema.relationships.find? fun r => r.path = Text.lower name with
    | some r => rfl
    | none => exact ih

namespace Compilation

/-! ## 2. Names in tables and in structures -/

/-- The names of the attributes in the structure of a node. -/
def structureNames (c : Compilation) (path : String) : List String :=
  ((c.compiled.structures.get? path).getD []).map Attribute.name

/-- The name by which the structure of a node begins. -/
def leadingName? (c : Compilation) (path : String) : Option String :=
  (c.structureNames path).head?

/-- The table of a relationship and its structure begin with the same two names. -/
def AgreeOnSides (c : Compilation) (r : RelationshipDecl) (t : Table) : Prop :=
  (t.columns.take 2).map Column.name = (c.structureNames r.path).take 2

instance (c : Compilation) (r : RelationshipDecl) (t : Table) : Decidable (c.AgreeOnSides r t) :=
  inferInstanceAs (Decidable (_ = _))

/-- What the keys of both sides of `r` are called in the table `t` of a grouping that repeats a
name and whose first relationship is `q`. -/
structure NamesSides (schema : SchemaDecl) (naming : Naming) (c : Compilation)
    (q r : RelationshipDecl) (t : Table) : Prop where
  /-- the table begins with the keys of the two sides of `q` -/
  columns : t.columns.take 2 =
    [.key (q.sideNames naming).1 q.firstPath, .key (q.sideNames naming).2 q.secondPath]
  /-- the structure of `q` has the same names exactly if both ends begin with one name, as those of
  a relationship of an entity with itself do, or if they begin with these names anyway -/
  agree : q = r → (c.AgreeOnSides r t ↔
    c.leadingName? r.firstPath = c.leadingName? r.secondPath ∨
      c.leadingName? r.firstPath = some (q.sideNames naming).1 ∧
        c.leadingName? r.secondPath = some (q.sideNames naming).2)
  /-- that of another relationship has them exactly if its own names happen to be the same -/
  agree_other : (∀ e ∈ schema.entities, e.path = r.firstPath → e.kind ≠ .weak) →
    (c.AgreeOnSides r t ↔
      if c.leadingName? r.firstPath = c.leadingName? r.secondPath then
        r.sideNames naming = q.sideNames naming
      else c.leadingName? r.firstPath = some (q.sideNames naming).1 ∧
        c.leadingName? r.secondPath = some (q.sideNames naming).2)

namespace Passes

variable {s : Settings} {c : Compilation} (h : Passes schema groupings s c)

include h

/-- The keys of a grouping that repeats a name are those of the two sides of its first relationship,
and no weak entity is at these. -/
theorem keys_of_repeated {index : Nat} {g : Grouping} {nodes : List Node} {keys : List Column}
    (hnodes : Blueprint.nodesOf ⟨schema.diagram, c.compiled.layout, s.naming⟩ g = .ok nodes)
    (hkeys : Blueprint.HasKeys ⟨schema.diagram, c.compiled.layout, s.naming⟩ index g nodes keys)
    (hrepeated : g.repeated ≠ []) : ∃ q, g.firstRelationship? schema = some q ∧
      keys = [.key (q.sideNames s.naming).1 q.firstPath,
        .key (q.sideNames s.naming).2 q.secondPath] ∧
      ∀ e ∈ schema.entities, e.path = q.firstPath → e.kind ≠ .weak := by
  cases hkeys with
  | entities hnone => exact absurd hnone hrepeated
  | sides _ hsides =>
    obtain ⟨r, e₁, e₂, hr, hends, hweak, rfl⟩ := Blueprint.sideKeys_eq_ok hsides
    rw [Blueprint.findSome?_relationship? h.wellFormed hnodes] at hr
    obtain ⟨q, hq, rfl⟩ := Option.map_eq_some_iff.mp hr
    obtain ⟨name, -, hfind⟩ := List.exists_of_findSome?_eq_some hq
    obtain ⟨d₁, hd₁, d₂, hd₂, hends', hfirst, hsecond⟩ :=
      h.wellFormed.exists_ends (List.mem_of_find?_eq_some hfind)
    obtain ⟨rfl, rfl⟩ := Prod.mk.inj (Except.ok.inj (hends'.symm.trans hends))
    refine ⟨q, hq, ?_, ?_⟩
    · rw [RelationshipDecl.sideNames_node hfirst hsecond, ← hfirst, ← hsecond]
      rfl
    · intro e he hpath hkind
      have hsame := h.isIndexed.eq_of_path (SchemaDecl.entity_mem_nodes he)
        (SchemaDecl.entity_mem_nodes hd₁) (hpath.trans hfirst.symm)
      have hnot := (Bool.or_eq_false_iff.mp hweak).1
      rw [← Node.entity.inj hsame] at hnot
      exact absurd hkind (of_decide_eq_false hnot)

/-- The table of a grouping that repeats a name begins with these keys. -/
theorem take_columns_of_repeated {t : Table} (ht : t ∈ c.schema.tables) {g : Grouping}
    (hg : groupings[t.grouping]? = some g) (hrepeated : g.repeated ≠ []) :
    ∃ q, g.firstRelationship? schema = some q ∧
      t.columns.take 2 = [.key (q.sideNames s.naming).1 q.firstPath,
        .key (q.sideNames s.naming).2 q.secondPath] ∧
      ∀ e ∈ schema.entities, e.path = q.firstPath → e.kind ≠ .weak := by
  obtain ⟨g', hg', nodes, keys, hnodes, hkeys, htable, -⟩ := synthesize_of_mem h.tables ht
  obtain rfl := Option.some.inj (hg.symm.trans hg')
  obtain ⟨q, hq, rfl, hplain⟩ := h.keys_of_repeated hnodes hkeys hrepeated
  exact ⟨q, hq, by rw [htable]; rfl, hplain⟩

/-- The structure of a relationship begins with the names of its sides if both ends begin with one
name, else with those names by which they begin. -/
theorem take_structureNames {r : RelationshipDecl} (hr : r ∈ schema.relationships)
    (hweak : ∀ e ∈ schema.entities, e.path = r.firstPath → e.kind ≠ .weak) : ∃ name₁ name₂,
      c.leadingName? r.firstPath = some name₁ ∧ c.leadingName? r.secondPath = some name₂ ∧
        (c.structureNames r.path).take 2 =
          if name₁ = name₂ then [(r.sideNames s.naming).1, (r.sideNames s.naming).2]
          else [name₁, name₂] := by
  obtain ⟨as, hget, hof⟩ := Structures.derive_relationship h.structures h.isIndexed
    (SchemaDecl.relationship_mem_nodes hr)
  obtain ⟨e₁, he₁, e₂, -, hends, hfirst, hsecond⟩ := h.wellFormed.exists_ends hr
  obtain ⟨a, b, s₁, s₂, hs₁, hs₂, hnames⟩ := Structures.take_names_ofRelationship hof hends
    (decide_eq_false (hweak e₁ he₁ hfirst))
  rw [RelationshipDecl.sideNames_node hfirst hsecond] at hnames
  refine ⟨a.name, b.name, ?_, ?_, ?_⟩
  · rw [leadingName?, structureNames, ← hfirst, ← e₁.path_node, hs₁]
    rfl
  · rw [leadingName?, structureNames, ← hsecond, ← e₂.path_node, hs₂]
    rfl
  · rw [← hnames, structureNames, ← r.path_node, hget]
    rfl

end Passes

/-- **When the table and the structure of a relationship call the keys of its sides the same**, if
its grouping repeats a name. -/
theorem namesSides_ofDecl {s : Settings} {c : Compilation} (h : ofDecl schema groupings s = .ok c)
    {r : RelationshipDecl} (hr : r ∈ schema.relationships) {g : Grouping} (hg : g ∈ groupings)
    (hcontains : g.contains r.path = true) (hrepeated : g.repeated ≠ []) :
    ∃ t ∈ c.schema.tables, groupings[t.grouping]? = some g ∧
      c.compiled.ownership.tablesOf r.path = [t.name] ∧
        ∃ q, g.firstRelationship? schema = some q ∧ NamesSides schema s.naming c q r t := by
  have hpasses := ofDecl_eq_ok.mp h
  obtain ⟨i, hi⟩ := List.getElem?_of_mem hg
  obtain ⟨t, ht, htables, hgrouping⟩ := hpasses.exists_tablesOf_relationship hr
  obtain rfl := (hgrouping i g hi).mp hcontains
  obtain ⟨q, hq, hcolumns, hplain⟩ := hpasses.take_columns_of_repeated ht hi hrepeated
  have hother : (∀ e ∈ schema.entities, e.path = r.firstPath → e.kind ≠ .weak) →
      (c.AgreeOnSides r t ↔
        if c.leadingName? r.firstPath = c.leadingName? r.secondPath then
          r.sideNames s.naming = q.sideNames s.naming
        else c.leadingName? r.firstPath = some (q.sideNames s.naming).1 ∧
          c.leadingName? r.secondPath = some (q.sideNames s.naming).2) := by
    intro hweak
    obtain ⟨name₁, name₂, h₁, h₂, hnames⟩ := hpasses.take_structureNames hr hweak
    rw [AgreeOnSides, hcolumns, hnames, h₁, h₂]
    by_cases hsame : name₁ = name₂
    · simp [hsame, Column.key, Prod.ext_iff, eq_comm]
    · simp [hsame, Column.key, eq_comm]
  refine ⟨t, ht, hi, htables, q, hq, hcolumns, ?_, hother⟩
  rintro rfl
  rw [hother hplain]
  split
  · next hsame => simp [hsame]
  · next hdiffer => simp [hdiffer]

end Compilation

/-! ## 3. Examples -/

/-- Persons advise each other. -/
def RelationshipDecl.advises : RelationshipDecl :=
  ⟨"Advises", ⟨"Person", some "mentor"⟩, ⟨"Person", some "mentee"⟩, []⟩

/-- Teachers teach students, both of whom are persons. -/
def RelationshipDecl.teaches : RelationshipDecl :=
  ⟨"Teaches", ⟨"Teacher", none⟩, ⟨"Student", none⟩, []⟩

/-- Persons, some of them students and some teachers. -/
def SchemaDecl.school : SchemaDecl where
  entities := [
    ⟨"Person", .regular, none, [⟨"person_id", .integer, true, false, false, []⟩,
      ⟨"name", .varchar, false, false, false, []⟩]⟩,
    ⟨"Student", .subclass, some "Person", [⟨"year", .integer, false, false, false, []⟩]⟩,
    ⟨"Teacher", .subclass, some "Person", [⟨"subject", .varchar, false, false, false, []⟩]⟩]
  relationships := [.advises, .teaches]

/-- Everybody is stored together, and so are the two who advise or teach each other. -/
def Grouping.ofSchool : List (List String) := [
  ["Person", "Person.name", "Student", "Student.year", "Teacher", "Teacher.subject"],
  ["Advises", "Person", "Person"], ["Teaches", "Person", "Person"]]

/-- Persons manage departments. -/
def RelationshipDecl.manages : RelationshipDecl :=
  ⟨"Manages", ⟨"Person", some "boss"⟩, ⟨"Department", some "unit"⟩, []⟩

/-- Persons follow each other. -/
def RelationshipDecl.follows : RelationshipDecl :=
  ⟨"Follows", ⟨"Person", some "leader"⟩, ⟨"Person", some "follower"⟩, []⟩

/-- Persons and departments. -/
def SchemaDecl.staff : SchemaDecl where
  entities := [
    ⟨"Person", .regular, none, [⟨"person_id", .integer, true, false, false, []⟩]⟩,
    ⟨"Department", .regular, none, [⟨"department_id", .integer, true, false, false, []⟩]⟩]
  relationships := [.manages, .advises, .follows]

/-- A grouping with one relationship and one with two, each with two persons. -/
def Grouping.ofStaff : List (List String) := [
  ["Manages", "Person", "Person"], ["Advises", "Follows", "Person", "Person"]]

namespace Compilation

/-- Advisers are called after their roles, and teachers and students after themselves. -/
theorem namesSides_school : ∃ c, ofDecl .school (Grouping.ofSchool.map .ofNames) .standard = .ok c ∧
    (∃ t ∈ c.schema.tables, NamesSides .school Settings.standard.naming c .advises .advises t ∧
      c.AgreeOnSides .advises t ∧
        (t.columns.take 2).map Column.name = ["mentor_id", "mentee_id"]) ∧
    ∃ t ∈ c.schema.tables, NamesSides .school Settings.standard.naming c .teaches .teaches t ∧
      c.AgreeOnSides .teaches t ∧
        (t.columns.take 2).map Column.name = ["teacher_id", "student_id"] := by
  have heval : (ofDecl .school (Grouping.ofSchool.map .ofNames) .standard).toOption.any (fun c =>
      decide (c.leadingName? "teacher" = c.leadingName? "student")) = true := by
    decide +kernel
  obtain ⟨c, hc, hsame⟩ := exists_of_any heval
  obtain ⟨t, ht, -, -, q, hq, hadvises⟩ := namesSides_ofDecl hc
    (show .advises ∈ SchemaDecl.school.relationships from List.mem_cons_self)
    (show .ofNames ["Advises", "Person", "Person"] ∈ _ by decide +kernel)
    (by decide +kernel) (by decide +kernel)
  obtain rfl : RelationshipDecl.advises = q := Option.some.inj
    (Eq.trans (by decide +kernel) hq)
  obtain ⟨u, hu, -, -, q, hq, hteaches⟩ := namesSides_ofDecl hc
    (show .teaches ∈ SchemaDecl.school.relationships from List.mem_cons_of_mem _ List.mem_cons_self)
    (show .ofNames ["Teaches", "Person", "Person"] ∈ _ by decide +kernel)
    (by decide +kernel) (by decide +kernel)
  obtain rfl : RelationshipDecl.teaches = q := Option.some.inj
    (Eq.trans (by decide +kernel) hq)
  refine ⟨c, hc, ⟨t, ht, hadvises, (hadvises.agree rfl).mpr (.inl rfl), ?_⟩, u, hu, hteaches,
    (hteaches.agree rfl).mpr (.inl ?_), ?_⟩
  · rw [hadvises.columns]
    decide +kernel
  · have hteacher : RelationshipDecl.teaches.firstPath = "teacher" := by decide +kernel
    have hstudent : RelationshipDecl.teaches.secondPath = "student" := by decide +kernel
    rw [hteacher, hstudent]
    exact of_decide_eq_true hsame
  · rw [hteaches.columns]
    decide +kernel

/-- **Table and structure may differ**: where the two ends begin with different names, and for a
relationship that is not the first of its grouping. -/
theorem not_agreeOnSides_staff : ∃ c manages follows,
    ofDecl .staff (Grouping.ofStaff.map .ofNames) .standard = .ok c ∧
      (∀ names ∈ Grouping.ofStaff, (Grouping.ofNames names).repeated = ["person"]) ∧
      (manages ∈ c.schema.tables ∧ c.compiled.ownership.tablesOf "manages" = [manages.name] ∧
        ¬c.AgreeOnSides .manages manages) ∧
      follows ∈ c.schema.tables ∧ c.compiled.ownership.tablesOf "follows" = [follows.name] ∧
        ¬c.AgreeOnSides .follows follows := by
  have heval : (ofDecl .staff (Grouping.ofStaff.map .ofNames) .standard).toOption.any (fun c =>
      (c.schema.tables.any fun t =>
        decide (c.compiled.ownership.tablesOf "manages" = [t.name] ∧
          ¬c.AgreeOnSides .manages t)) &&
      c.schema.tables.any fun t =>
        decide (c.compiled.ownership.tablesOf "follows" = [t.name] ∧
          ¬c.AgreeOnSides .follows t)) = true := by
    decide +kernel
  obtain ⟨c, hc, heval⟩ := exists_of_any heval
  simp only [Bool.and_eq_true, List.any_eq_true, decide_eq_true_eq] at heval
  obtain ⟨⟨t, ht, hmanages⟩, u, hu, hfollows⟩ := heval
  exact ⟨c, t, u, hc, by decide +kernel, ⟨ht, hmanages⟩, hu, hfollows⟩

end Compilation

end EntityLayout
