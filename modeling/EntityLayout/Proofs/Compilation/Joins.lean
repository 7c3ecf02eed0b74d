/-
# The keys that tables are joined on

The first column of a table decides what it is joined on.  Which column that is depends on the
order of the names in its grouping: every entity that needs a key puts it in front of the ones
before it, so the last of them leads the table.

* `Blueprint.leader?`, `Blueprint.IsTable.form_joinKey?`: **a table begins with the key of the
  entity that leads its grouping**, and with no key if none does.
* `Compilation.KeepsToItself`: the entities with no tables from a parent.
* `Compilation.joinsOnKeys_entity`: **when and on what the tables of an entity are joined.**
* `Compilation.not_joinsOnOneKey`: a subclass whose tables cannot be joined, and a weak entity
  whose tables are joined on keys of two entities.
-/
import EntityLayout.Proofs.Compilation.Passes
import EntityLayout.Proofs.Reconstruction

namespace EntityLayout

/-! ## 1. Leaders of groupings -/

/-- A table begins with a key if it has any. -/
theorem Table.joinKey?_append {name : String} {index : Nat} {keys others : List Column}
    (hkeys : ∀ c ∈ keys, c.form.isKey = true) (hothers : ∀ c ∈ others, c.form.isKey = false) :
    joinKey? ⟨name, index, keys ++ others⟩ = keys.head? := by
  cases keys with
  | cons key keys => exact Option.filter_eq_some_iff.mpr ⟨rfl, hkeys key List.mem_cons_self⟩
  | nil =>
    cases others with
    | nil => rfl
    | cons c others =>
      refine Option.filter_eq_none_iff.mpr fun d hd => ?_
      obtain rfl : c = d := Option.some.inj hd
      simp [hothers c List.mem_cons_self]

namespace Blueprint

variable {b : Blueprint} {index : Nat} {g : Grouping} {nodes : List Node} {t : Table}

/-- The path of the entity whose key begins the table of a grouping: the last one that needs a
key or, where a name is repeated, the first side of the relationship. -/
def leader? (b : Blueprint) (g : Grouping) : Option String :=
  (b.nodesOf g).toOption.bind fun nodes =>
    if g.repeated = [] then
      ((nodes.filterMap Node.entity?).filter b.isKeyed).getLast?.map EntityNode.path
    else (nodes.findSome? Node.relationship?).map RelationshipNode.first

/-- The keys of a table begin with that of the leader. -/
theorem HasKeys.form_head? {keys : List Column} (h : HasKeys b index g nodes keys)
    (hd : b.diagram.IsIndexed) (hnodes : b.nodesOf g = .ok nodes) :
    keys.head?.map Column.form = (b.leader? g).map .key := by
  rw [leader?, hnodes]
  cases h with
  | entities hrepeated =>
    rw [keyColumns, List.head?_reverse, List.getLast?_map, Except.toOption, Option.bind_some,
      if_pos hrepeated, Option.map_map, Option.map_map]
    rfl
  | sides hname hsides =>
    obtain ⟨r, e₁, e₂, hr, hends, -, rfl⟩ := sideKeys_eq_ok hsides
    have hfirst := (hd.paths_of_endpoints (relationship_mem_of_findSome? hd hnodes hr) hends).1
    have hne : g.repeated ≠ [] := by
      rw [hname]
      exact List.cons_ne_nil _ _
    rw [Except.toOption, Option.bind_some, if_neg hne, hr, Option.map_some, Option.map_some,
      ← hfirst]
    rfl

/-- **A table begins with the key of the leader of its grouping**, and with no key if there is no
leader. -/
theorem IsTable.form_joinKey? (h : b.IsTable index g t) (hd : b.diagram.IsIndexed) :
    t.joinKey?.map Column.form = (b.leader? g).map .key := by
  obtain ⟨nodes, keys, hnodes, hkeys, rfl, -⟩ := h
  rw [Table.joinKey?_append, hkeys.form_head? hd hnodes]
  · intro c hc
    obtain ⟨stem, entity, rfl⟩ := hkeys.isKeyColumn c hc
    rfl
  · intro c hc
    obtain ⟨a, -, rfl⟩ := List.mem_map.mp hc
    exact isKey_columnForm _ a

end Blueprint

namespace Compilation

open Reconstruction (IsJoin)

variable {schema : SchemaDecl} {groupings : List Grouping} {s : Settings} {c : Compilation}
  {e : EntityDecl}

/-! ## 2. Entities with no tables from a parent -/

/-- An entity keeps to itself if it has no tables from a parent: it is no subclass or is one that
stands alone. -/
def KeepsToItself (c : Compilation) (e : EntityDecl) : Prop :=
  e.kind = .subclass → c.compiled.layout.isAlone e.path = true

theorem keepsToItself_regular (h : e.kind = .regular) : c.KeepsToItself e :=
  fun hsub => nomatch h.symm.trans hsub

/-- An entity that keeps to itself has no tables from a parent. -/
theorem KeepsToItself.inherited_eq_nil {settled : Ownership} (h : c.KeepsToItself e) :
    Ownership.inherited c.compiled.layout settled e.node = [] :=
  Ownership.inherited_eq_nil fun hsub =>
    h (of_decide_eq_true (show decide (e.kind = .subclass) = true from hsub))

namespace Passes

variable (h : Passes schema groupings s c) (he : e ∈ schema.entities)

include h he

/-- An entity that keeps to itself has a key column wherever it is. -/
theorem isKeyed_of_keeps (hown : c.KeepsToItself e) :
    Blueprint.isKeyed ⟨schema.diagram, c.compiled.layout, s.naming⟩ e.node = true := by
  cases hsub : e.node.isSubclass with
  | false => rw [Blueprint.isKeyed, hsub]; rfl
  | true =>
    have hplacement := Diagram.placement?_of_isAlone h.layout h.isIndexed
      (SchemaDecl.entity_mem_nodes he) hsub (hown (of_decide_eq_true hsub))
    rw [Blueprint.isKeyed, hplacement]
    simp

/-- The groupings of its tables hold it. -/
theorem exists_grouping (hown : c.KeepsToItself e) {t : Table}
    (ht : t ∈ c.compiled.ownership.tablesIn c.schema e.path) :
    ∃ g, groupings[t.grouping]? = some g ∧ g.contains e.path = true ∧
      Blueprint.IsTable ⟨schema.diagram, c.compiled.layout, s.naming⟩ t.grouping g t := by
  obtain ⟨hmem, howns⟩ := (h.mem_tablesIn_entity he).mp ht
  rw [hown.inherited_eq_nil] at howns
  have hdirect := howns.resolve_right List.not_mem_nil
  obtain ⟨⟨g, hg, hcontains⟩, -⟩ := Ownership.ownsDirectly_iff.mp hdirect
  obtain ⟨g', hg', htable⟩ := synthesize_of_mem h.tables hmem
  obtain rfl := Option.some.inj (hg.symm.trans hg')
  exact ⟨g, hg, hcontains, htable⟩

/-- **Every table of an entity that keeps to itself can be joined.** -/
theorem exists_joinKey (hown : c.KeepsToItself e) {t : Table}
    (ht : t ∈ c.compiled.ownership.tablesIn c.schema e.path) : ∃ key, t.joinKey? = some key := by
  obtain ⟨g, -, hcontains, htable⟩ := h.exists_grouping he hown ht
  exact htable.exists_joinKey h.isIndexed (SchemaDecl.entity_mem_nodes he) hcontains
    (h.isKeyed_of_keeps he hown)

/-- The query of an entity is that of its structure. -/
theorem exists_queryFor_eq : ∃ as, c.compiled.queryFor c.schema e.name =
    Reconstruction.query e.path as (c.compiled.ownership.tablesIn c.schema e.path) := by
  obtain ⟨inherited, -, hget⟩ := h.structure_entity he
  exact ⟨_, h.queryFor_eq e.lower_name hget⟩

end Passes

/-! ## 3. Joins -/

/-- When and on what the tables of an entity are joined. -/
structure JoinsOnKeys (b : Blueprint) (groupings : List Grouping) (c : Compilation)
    (e : EntityDecl) (tables : List Table) : Prop where
  /-- all tables have keys, unless some of them are those of a parent -/
  keyed : c.KeepsToItself e → ∀ t ∈ tables, ∃ key, t.joinKey? = some key
  /-- a key is missing exactly if there are several tables and one has no key -/
  missing : ∀ node table,
    c.compiled.queryFor c.schema e.name = .error (.noJoinKey node table) ↔ 1 < tables.length ∧
      node = e.path ∧ ∃ t, tables.find? (·.joinKey?.isNone) = some t ∧ t.name = table
  /-- every further table is joined with the first, where the keys they begin with are equal -/
  joined : ∀ q, c.compiled.queryFor c.schema e.name = .ok q → ∃ anchor others,
    tables = anchor :: others ∧ q.source = some anchor.name ∧
      List.Forall₂ (fun t join => ∃ key, anchor.joinKey? = some key ∧ IsJoin anchor key t join)
        others q.joins
  /-- these are keys of one entity if it leads the groupings of all the tables -/
  shared : ∀ path, (∀ t ∈ tables, groupings[t.grouping]?.bind b.leader? = some path) →
    ∀ t ∈ tables, ∃ key, t.joinKey? = some key ∧ key.form = .key path

/-- **The tables of an entity are joined on the keys that they begin with**, which are keys of one
entity if it leads the groupings of all of them. -/
theorem joinsOnKeys_entity (h : ofDecl schema groupings s = .ok c) (he : e ∈ schema.entities) :
    JoinsOnKeys ⟨schema.diagram, c.compiled.layout, s.naming⟩ groupings c e
      (c.compiled.ownership.tablesIn c.schema e.path) := by
  have hpasses := ofDecl_eq_ok.mp h
  obtain ⟨as, hquery⟩ := hpasses.exists_queryFor_eq he
  refine {
    keyed := fun hown t ht => hpasses.exists_joinKey he hown ht
    missing := fun node table => by rw [hquery, Reconstruction.query_eq_noJoinKey]
    joined := fun q hq => ?_
    shared := fun path hleads t ht => ?_ }
  · rw [hquery] at hq
    obtain ⟨anchor, others, js, parts, htables, hjoins, -, rfl⟩ :=
      Reconstruction.query_eq_ok.mp hq
    refine ⟨anchor, others, htables, rfl, ?_⟩
    rcases Reconstruction.joins_eq_ok.mp hjoins with ⟨rfl, rfl⟩ | ⟨-, key, hkey, hall⟩
    · exact .nil
    · exact hall.imp fun t join hjoin => ⟨key, hkey, hjoin⟩
  · obtain ⟨g, hg, htable⟩ := synthesize_of_mem hpasses.tables (Ownership.mem_tablesIn.mp ht).1
    have hleader := hleads t ht
    rw [hg, Option.bind_some] at hleader
    have hform := htable.form_joinKey? hpasses.isIndexed
    rw [hleader, Option.map_some] at hform
    exact Option.map_eq_some_iff.mp hform

/-- The tables of persons are joined on the keys of persons. -/
theorem joinsOnKeys_person : ∃ c,
    ofDecl .courses (Grouping.ofCourses.map .ofNames) .standard = .ok c ∧
      JoinsOnKeys ⟨SchemaDecl.courses.diagram, c.compiled.layout, Settings.standard.naming⟩
        (Grouping.ofCourses.map .ofNames) c .person
        (c.compiled.ownership.tablesIn c.schema EntityDecl.person.path) ∧
      (c.compiled.ownership.tablesIn c.schema EntityDecl.person.path).length = 2 ∧
      ∀ t ∈ c.compiled.ownership.tablesIn c.schema EntityDecl.person.path,
        ∃ key, t.joinKey? = some key ∧ key.form = .key "person" := by
  have heval : (ofDecl .courses (Grouping.ofCourses.map .ofNames) .standard).toOption.any
      (fun c => decide
        ((c.compiled.ownership.tablesIn c.schema EntityDecl.person.path).length = 2 ∧
          ∀ t ∈ c.compiled.ownership.tablesIn c.schema EntityDecl.person.path,
            (Grouping.ofCourses.map Grouping.ofNames)[t.grouping]?.bind
              (Blueprint.leader? ⟨SchemaDecl.courses.diagram, c.compiled.layout,
                Settings.standard.naming⟩) = some "person")) = true := by
    decide +kernel
  obtain ⟨c, hc, heval⟩ := exists_of_any heval
  obtain ⟨hlength, hleads⟩ := of_decide_eq_true heval
  have hjoins := joinsOnKeys_entity hc (e := .person) List.mem_cons_self
  exact ⟨c, hc, hjoins, hlength, hjoins.shared "person" hleads⟩

end Compilation

/-! ## 4. Tables without keys and with different ones -/

/-- Courses, some of which are seminars, and their sections. -/
def SchemaDecl.sections : SchemaDecl where
  entities := [
    ⟨"Course", .regular, none, [⟨"course_id", .integer, true, false, false, []⟩,
      ⟨"title", .varchar, false, false, false, []⟩]⟩,
    ⟨"Seminar", .subclass, some "Course", [⟨"topic", .varchar, false, false, false, []⟩,
      ⟨"host", .varchar, false, false, false, []⟩]⟩,
    ⟨"Section", .weak, some "Course", [⟨"semester", .integer, false, true, false, []⟩,
      ⟨"rooms", .varchar, false, false, true, []⟩]⟩]
  relationships := []

/-- The topics of seminars are stored with their courses and the hosts apart; sections are stored
with the keys of their courses and the rooms apart. -/
def Grouping.ofSections : List (List String) := [
  ["Course", "Course.title", "Seminar", "Seminar.topic"], ["Seminar", "Seminar.host"],
  ["Section", "Course", "Section.semester"], ["Section", "Section.rooms"]]

namespace Compilation

/-- What the tables of a node begin with, if that is a key. -/
def leadingKeys (c : Compilation) (path : String) : List (Option ColumnForm) :=
  (c.compiled.ownership.tablesIn c.schema path).map fun t => t.joinKey?.map Column.form

/-- **Not all tables of an entity have keys, nor need these be keys of one entity**: the hosts of
seminars cannot be joined, and sections are joined with their rooms where the key of the course
equals that of the section. -/
theorem not_joinsOnOneKey : ∃ c q,
    ofDecl .sections (Grouping.ofSections.map .ofNames) .standard = .ok c ∧
      c.leadingKeys "seminar" = [some (.key "course"), none] ∧
      c.compiled.queryFor c.schema "Seminar" = .error (.noJoinKey "seminar" "rel1") ∧
      c.leadingKeys "section" = [some (.key "course"), some (.key "section")] ∧
      c.compiled.queryFor c.schema "Section" = .ok q ∧
      q.joins = [⟨"rel3", .equal (.column (some "rel2") "course_id")
        (.column (some "rel3") "section_id")⟩] := by
  have heval : (ofDecl .sections (Grouping.ofSections.map .ofNames) .standard).toOption.any
      (fun c => decide (c.leadingKeys "seminar" = [some (.key "course"), none] ∧
          c.compiled.queryFor c.schema "Seminar" = .error (.noJoinKey "seminar" "rel1") ∧
          c.leadingKeys "section" = [some (.key "course"), some (.key "section")]) &&
        (c.compiled.queryFor c.schema "Section").toOption.any fun q => decide (q.joins =
          [⟨"rel3", .equal (.column (some "rel2") "course_id")
            (.column (some "rel3") "section_id")⟩])) = true := by
    decide +kernel
  obtain ⟨c, hc, heval⟩ := exists_of_any heval
  obtain ⟨hkeys, hsection⟩ := Bool.and_eq_true_iff.mp heval
  obtain ⟨hseminar, herror, hforms⟩ := of_decide_eq_true hkeys
  obtain ⟨q, hq, hjoins⟩ := exists_of_any hsection
  exact ⟨c, q, hc, hseminar, herror, hforms, hq, of_decide_eq_true hjoins⟩

end Compilation

end EntityLayout
