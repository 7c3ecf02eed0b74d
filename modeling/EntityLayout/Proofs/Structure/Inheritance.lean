/-
# Structures along lines of subclasses

The structure of an entity is derived from a diagram, in which attributes are nodes that name each
other, and from the structures that were derived before.  Here it is said of the declarations alone:
an entity has the attributes that are declared for it, behind those that it takes over.

* `EntityDecl.own`: the declared attributes of an entity, as queries see them.
* `SchemaDecl.Descends`: a line of subclasses, from an entity down.
* `Structures.FollowDeclarations`: what the structures of entities are, one by one and along lines.
* `Structures.followDeclarations_ofDecl`: **structures follow the declarations.**
-/
import EntityLayout.Proofs.Compilation.Storage

namespace EntityLayout

/-- The declared attributes of an entity, as queries see them. -/
def EntityDecl.own (e : EntityDecl) : List Attribute := e.attributes.map Attribute.logical

/-- A line of subclasses goes down from `top`, each below the one before it, to `e`. -/
inductive SchemaDecl.Descends (schema : SchemaDecl) (top : EntityDecl) :
    List EntityDecl → EntityDecl → Prop where
  | top : Descends schema top [] top
  | down {line : List EntityDecl} {p e : EntityDecl} : Descends schema top line p →
      e ∈ schema.entities → e.kind = .subclass → e.parentPath = some p.path →
        Descends schema top (line ++ [e]) e

namespace Structures

variable {schema : SchemaDecl} {layout : Layout} {naming : Naming} {s : Structures}
  {top p e : EntityDecl} {line : List EntityDecl} {as bs cs : List Attribute} {name : String}

/-! ## 1. First names -/

/-- Two structures are the same but for what the first attribute is called. -/
inductive SameButFirstName : List Attribute → List Attribute → Prop where
  | nil : SameButFirstName [] []
  | cons (a : Attribute) (name : String) (as : List Attribute) :
      SameButFirstName ({ a with name } :: as) (a :: as)

namespace SameButFirstName

theorem refl : ∀ as : List Attribute, SameButFirstName as as
  | [] => .nil
  | ⟨name, type, primaryKey, discriminator, multivalued, parts⟩ :: as =>
    .cons ⟨name, type, primaryKey, discriminator, multivalued, parts⟩ name as

theorem trans (h : SameButFirstName as bs) (h' : SameButFirstName bs cs) :
    SameButFirstName as cs := by
  cases h with
  | nil => exact h'
  | cons b name bs =>
    cases h' with
    | cons c => exact .cons c name bs

theorem append (h : SameButFirstName as bs) (cs : List Attribute) :
    SameButFirstName (as ++ cs) (bs ++ cs) := by
  cases h with
  | nil => exact refl cs
  | cons b name bs => exact .cons b name (bs ++ cs)

theorem renameFirst (name : String) : ∀ as : List Attribute,
    SameButFirstName (Structures.renameFirst name as) as
  | [] => .nil
  | a :: as => .cons a name as

end SameButFirstName

/-- Of several names given one after another the last one stays. -/
theorem renameFirst_append {later : String} (as bs : List Attribute) :
    renameFirst later (renameFirst name as ++ bs) = renameFirst later (as ++ bs) := by
  cases as <;> rfl

/-- A name given to some attributes is given to all that begin with them. -/
theorem append_renameFirst (has : as ≠ []) (bs : List Attribute) :
    renameFirst name as ++ bs = renameFirst name (as ++ bs) := by
  obtain ⟨a, as, rfl⟩ := List.exists_cons_of_ne_nil has
  rfl

theorem withKeyColumn_eq (naming : Naming) (entity : String) (as : List Attribute) :
    withKeyColumn naming entity as = if as.head?.any (naming.isKeyName ·.name) then
      renameFirst (naming.keyColumn entity) as else as := by
  cases as with
  | nil => rfl
  | cons a as => rfl

/-! ## 2. One entity -/

/-- The structure of an entity is made of what it inherits and what is declared for it. -/
theorem get?_entity (hschema : schema.IsWellFormed)
    (hderive : derive schema.diagram layout naming = .ok s) (he : e ∈ schema.entities) :
    ∃ inherited, Inherits layout s e.node inherited ∧
      s.get? e.path = some (withInherited layout naming e.node inherited e.own) :=
  hschema.structure_entity hderive he

section

variable (hschema : schema.IsWellFormed) (hderive : derive schema.diagram layout naming = .ok s)
  (he : e ∈ schema.entities)

include hschema hderive he

/-- A regular entity has its own attributes. -/
theorem get?_regular (hkind : e.kind = .regular) : s.get? e.path =
    some (if e.own.head?.any (naming.isKeyName ·.name) then
      renameFirst (naming.keyColumn e.path) e.own else e.own) := by
  obtain ⟨inherited, hinherits, hget⟩ := get?_entity hschema hderive he
  have hparent : e.node.parent = none := by rw [EntityDecl.parent_node, EntityDecl.parentPath, hkind]
  obtain rfl := (Inherits.iff_of_none hparent).mp hinherits
  rw [hget, withInherited, hparent, List.nil_append]
  exact congrArg some (withKeyColumn_eq naming e.path e.own)

/-- A weak entity has the first attribute of its owner and its own. -/
theorem get?_weak (hkind : e.kind = .weak) (hparent : e.parentPath = some p.path) :
    ∃ key rest, s.get? p.path = some (key :: rest) ∧ s.get? e.path = some (key :: e.own) := by
  obtain ⟨inherited, hinherits, hget⟩ := get?_entity hschema hderive he
  have hnode : e.node.parent = some p.path := hparent
  have hweak : e.node.isWeak = true := decide_eq_true hkind
  obtain ⟨key, rest, howner, rfl⟩ := (Inherits.iff_of_weak hnode hweak).mp hinherits
  refine ⟨key, rest, howner, ?_⟩
  simp [hget, withInherited, hnode, hweak]

/-- **A subclass has the structure of its parent and its own attributes.** -/
theorem get?_subclass (hkind : e.kind = .subclass) (hparent : e.parentPath = some p.path) :
    ∃ inherited, s.get? p.path = some inherited ∧ s.get? e.path =
      some (if layout.isAlone e.path then renameFirst (naming.keyColumn e.path) (inherited ++ e.own)
        else inherited ++ e.own) := by
  obtain ⟨inherited, hinherits, hget⟩ := get?_entity hschema hderive he
  have hnode : e.node.parent = some p.path := hparent
  have hweak : e.node.isWeak = false := decide_eq_false fun hweak => nomatch hkind.symm.trans hweak
  refine ⟨inherited, (Inherits.iff_of_subclass hnode hweak).mp hinherits, ?_⟩
  simp only [hget, withInherited, hnode, hweak, true_and]
  rfl

end

/-! ## 3. Lines of subclasses -/

/-- The last of a line that stands alone. -/
def lastAlone? (layout : Layout) (line : List EntityDecl) : Option EntityDecl :=
  (line.filter fun e => layout.isAlone e.path).getLast?

theorem lastAlone?_append (layout : Layout) (line : List EntityDecl) (e : EntityDecl) :
    lastAlone? layout (line ++ [e]) =
      if layout.isAlone e.path then some e else lastAlone? layout line := by
  rw [lastAlone?, List.filter_append]
  split
  · next halone => simp [halone]
  · next hshares => simp [hshares, lastAlone?]

/-- The attributes of a line behind those of `base`, the first called after the last of the line
that stands alone. -/
def alongLine (layout : Layout) (naming : Naming) (base : List Attribute) (line : List EntityDecl) :
    List Attribute :=
  match lastAlone? layout line with
  | some e => renameFirst (naming.keyColumn e.path) (base ++ line.flatMap EntityDecl.own)
  | none => base ++ line.flatMap EntityDecl.own

section

variable (hschema : schema.IsWellFormed) (hderive : derive schema.diagram layout naming = .ok s)

include hschema hderive

/-- **Along a line of subclasses attributes add up**, those of the uppermost first; only what the
first is called can change. -/
theorem get?_descends {base : List Attribute} (hbase : s.get? top.path = some base)
    (hline : schema.Descends top line e) :
    ∃ as, s.get? e.path = some as ∧ SameButFirstName as (base ++ line.flatMap EntityDecl.own) := by
  induction hline with
  | top =>
    refine ⟨base, hbase, ?_⟩
    rw [List.flatMap_nil, List.append_nil]
    exact .refl base
  | @down line p e _ he hkind hparent ih =>
    obtain ⟨as, has, hsame⟩ := ih
    obtain ⟨inherited, hinherited, hget⟩ := get?_subclass hschema hderive he hkind hparent
    obtain rfl := Option.some.inj (has.symm.trans hinherited)
    refine ⟨_, hget, ?_⟩
    have hall : SameButFirstName (as ++ e.own) (base ++ (line ++ [e]).flatMap EntityDecl.own) := by
      rw [List.flatMap_append, List.flatMap_singleton, ← List.append_assoc]
      exact hsame.append e.own
    split
    · exact (SameButFirstName.renameFirst _ _).trans hall
    · exact hall

/-- Where the uppermost has an attribute, it is called after the last of the line that stands
alone. -/
theorem get?_eq_alongLine {base : List Attribute} (hbase : s.get? top.path = some base)
    (hne : base ≠ []) (hline : schema.Descends top line e) :
    s.get? e.path = some (alongLine layout naming base line) := by
  induction hline with
  | top =>
    rw [hbase, alongLine]
    simp [lastAlone?]
  | @down line p e _ he hkind hparent ih =>
    obtain ⟨inherited, hinherited, hget⟩ := get?_subclass hschema hderive he hkind hparent
    obtain rfl := Option.some.inj (ih.symm.trans hinherited)
    rw [hget, alongLine, alongLine, lastAlone?_append, List.flatMap_append, List.flatMap_singleton,
      ← List.append_assoc]
    by_cases halone : layout.isAlone e.path = true
    · simp only [if_pos halone]
      split
      · rw [renameFirst_append]
      · rfl
    · simp only [if_neg halone]
      split
      · rw [append_renameFirst (List.append_ne_nil_of_left_ne_nil hne _)]
      · rfl

omit hderive in
/-- Every entity stands at the end of a line from one that is no subclass. -/
theorem exists_descends : ∀ e ∈ schema.entities, ∃ top ∈ schema.entities, ∃ line,
    top.kind ≠ .subclass ∧ schema.Descends top line e := by
  refine hschema.entity_induction fun e he ih => ?_
  by_cases hkind : e.kind = .subclass
  · obtain ⟨p, -, hparent, top, htop, line, hnot, hline⟩ := ih (by rw [hkind]; decide)
    exact ⟨top, htop, line ++ [e], hnot, hline.down he hkind hparent⟩
  · exact ⟨e, he, [], hkind, .top⟩

end

/-! ## 4. All entities -/

/-- **The structures of entities follow the declarations.** -/
structure FollowDeclarations (schema : SchemaDecl) (layout : Layout) (naming : Naming)
    (s : Structures) : Prop where
  /-- a regular entity has its own attributes; a key in first place is called like the key column -/
  regular : ∀ e ∈ schema.entities, e.kind = .regular → s.get? e.path =
    some (if e.own.head?.any (naming.isKeyName ·.name) then
      renameFirst (naming.keyColumn e.path) e.own else e.own)
  /-- a weak entity has the first attribute of its owner, and its own behind it -/
  weak : ∀ e ∈ schema.entities, e.kind = .weak → ∃ owner ∈ schema.entities,
    e.parentPath = some owner.path ∧ ∃ key rest,
      s.get? owner.path = some (key :: rest) ∧ s.get? e.path = some (key :: e.own)
  /-- a subclass has the structure of its parent, and its own attributes behind it; if it stands
  alone, the first is called like its key column -/
  subclass : ∀ e ∈ schema.entities, e.kind = .subclass → ∃ parent ∈ schema.entities,
    e.parentPath = some parent.path ∧ ∃ inherited, s.get? parent.path = some inherited ∧
      s.get? e.path = some (if layout.isAlone e.path then
        renameFirst (naming.keyColumn e.path) (inherited ++ e.own) else inherited ++ e.own)
  /-- lines of subclasses lead to every entity from a regular or weak one -/
  rooted : ∀ e ∈ schema.entities, ∃ top ∈ schema.entities, ∃ line,
    top.kind ≠ .subclass ∧ schema.Descends top line e
  /-- along a line attributes add up, and what the first is called is all that changes -/
  line : ∀ {top e : EntityDecl} {line : List EntityDecl}, top ∈ schema.entities →
    schema.Descends top line e → ∃ base as, s.get? top.path = some base ∧
      s.get? e.path = some as ∧ SameButFirstName as (base ++ line.flatMap EntityDecl.own) ∧
        (base ≠ [] → as = alongLine layout naming base line)
  /-- from a regular entity down, these are the attributes that are declared for all of them -/
  fromRegular : ∀ {top e : EntityDecl} {line : List EntityDecl}, top ∈ schema.entities →
    top.kind = .regular → schema.Descends top line e → ∃ as, s.get? e.path = some as ∧
      SameButFirstName as ((top :: line).flatMap EntityDecl.own)

/-- **Structures follow the declarations**, for every layout and every naming under which they can
be derived. -/
theorem followDeclarations_ofDecl {d : Diagram} (hd : Diagram.ofDecl schema = .ok d)
    (hderive : derive d layout naming = .ok s) : FollowDeclarations schema layout naming s := by
  obtain ⟨hschema, rfl⟩ := Diagram.ofDecl_eq_ok.mp hd
  refine ⟨fun e he hkind => get?_regular hschema hderive he hkind, fun e he hkind => ?_,
    fun e he hkind => ?_, exists_descends hschema, fun htop hline => ?_,
    fun {top _ _} htop hkind hline => ?_⟩
  · obtain ⟨owner, howner, hparent⟩ := hschema.exists_parent_of_kind he (by rw [hkind]; decide)
    exact ⟨owner, howner, hparent, get?_weak hschema hderive he hkind hparent⟩
  · obtain ⟨parent, hmem, hparent⟩ := hschema.exists_parent_of_kind he (by rw [hkind]; decide)
    exact ⟨parent, hmem, hparent, get?_subclass hschema hderive he hkind hparent⟩
  · obtain ⟨inherited, -, hbase⟩ := get?_entity hschema hderive htop
    obtain ⟨as, has, hsame⟩ := get?_descends hschema hderive hbase hline
    refine ⟨_, as, hbase, has, hsame, fun hne => ?_⟩
    exact Option.some.inj (has.symm.trans (get?_eq_alongLine hschema hderive hbase hne hline))
  · have hbase := get?_regular hschema hderive htop hkind
    obtain ⟨as, has, hsame⟩ := get?_descends hschema hderive hbase hline
    refine ⟨as, has, hsame.trans ?_⟩
    rw [List.flatMap_cons]
    refine SameButFirstName.append ?_ _
    split
    · exact .renameFirst _ _
    · exact .refl _

end Structures

/-! ## 5. An example -/

/-- Persons; students, who are persons, and tutors, who are students; badges, which tutors own, and
passes, which are badges. -/
def SchemaDecl.campusBadges : SchemaDecl where
  entities := [
    ⟨"Person", .regular, none, [⟨"Person_ID", .integer, true, false, false, []⟩,
      ⟨"Name", .composite, false, false, false, [⟨"First", .varchar, false, false, false, []⟩]⟩]⟩,
    ⟨"Student", .subclass, some "person", [⟨"Year", .integer, false, false, false, []⟩]⟩,
    ⟨"Tutor", .subclass, some "student", [⟨"Hours", .integer, false, false, true, []⟩]⟩,
    ⟨"Badge", .weak, some "tutor", [⟨"Color", .varchar, false, true, false, []⟩]⟩,
    ⟨"Pass", .subclass, some "badge", [⟨"Door", .varchar, false, false, true, []⟩]⟩]
  relationships := []

/-- Students stand alone, and tutors and passes are stored beside what they are a case of. -/
def Layout.ofBadges : Layout := .ofList [("student", .subclass .alone none),
  ("tutor", .subclass .besideParent (some 1)), ("pass", .subclass .besideParent (some 3))]

/-- Tutors have what persons and students have, under the key of students, and so do passes begin. -/
theorem Structures.followDeclarations_badges : ∃ d s, Diagram.ofDecl .campusBadges = .ok d ∧
    Structures.derive d .ofBadges .standard = .ok s ∧
    FollowDeclarations .campusBadges .ofBadges .standard s ∧
    s.get? "tutor" = some [⟨"student_id", .integer, true, false, false, []⟩,
      ⟨"name", .composite, false, false, false, [⟨"first", .varchar, false, false, false, []⟩]⟩,
      ⟨"year", .integer, false, false, false, []⟩, ⟨"hours", .integer, false, false, true, []⟩] ∧
    (s.get? "pass").map (·.map Attribute.name) = some ["student_id", "color", "door"] := by
  have hrun : (Diagram.ofDecl .campusBadges).toOption.any (fun d =>
      (derive d .ofBadges .standard).toOption.any fun s =>
        decide (s.get? "tutor" = some [⟨"student_id", .integer, true, false, false, []⟩,
          ⟨"name", .composite, false, false, false, [⟨"first", .varchar, false, false, false, []⟩]⟩,
          ⟨"year", .integer, false, false, false, []⟩,
          ⟨"hours", .integer, false, false, true, []⟩] ∧
        (s.get? "pass").map (·.map Attribute.name) = some ["student_id", "color", "door"])) =
      true := by
    decide +kernel
  obtain ⟨d, hd, hrun⟩ := exists_of_any hrun
  obtain ⟨s, hs, hshown⟩ := exists_of_any hrun
  exact ⟨d, s, hd, hs, followDeclarations_ofDecl hd hs, of_decide_eq_true hshown⟩

end EntityLayout
