/-
# What the tables of groupings are

A grouping decides its table: the key columns of its entities or of the two sides of its
relationship, then a column for every attribute that is not a key.

* `Blueprint.addColumns_eq`: the columns, written down.
* `Blueprint.IsTable`, `Blueprint.table_eq_ok`: the table of one grouping.
* `synthesize_tables`: **the tables are those of the groupings, one by one.**
* `synthesize_types`: **the composite types are made for what the groupings store.**
* `synthesize_append`: groupings further on change nothing that is there.
* `synthesize_nodup`: no two tables share a name.
-/
import EntityLayout.Proofs.Diagram.Growth
import EntityLayout.Proofs.Tables.CompositeTypes
import EntityLayout.Structure

namespace EntityLayout

open Sql (SqlType)

/-- A grouping stores an attribute that it names, unless a key column stands for it. -/
def Grouping.Stores (g : Grouping) (d : Diagram) (naming : Naming) (a : AttributeNode) : Prop :=
  .attr a ∈ d.nodes ∧ naming.isKeyName a.path = false ∧
    ∃ name ∈ g.names, Text.lower name = a.path

namespace Blueprint

variable {b : Blueprint} {types types' : TypeRegister}

/-! ## 1. Columns of attributes -/

/-- The type of the column of an attribute. -/
def columnType (b : Blueprint) (only : Bool) (a : AttributeNode) : SqlType :=
  if a.isComposite then .composite (b.naming.typeName a.path)
  else if a.multivalued && !only then (SqlType.ofAttributeType a.type).array
  else .ofAttributeType a.type

/-- What the column of an attribute holds. -/
def columnForm (only : Bool) (a : AttributeNode) : ColumnForm :=
  if a.isComposite then .composite
  else if a.multivalued then if only then .normalized else .array
  else .value

theorem isKey_columnForm (only : Bool) (a : AttributeNode) :
    (columnForm only a).isKey = false := by
  unfold columnForm
  split
  · rfl
  · split
    · split <;> rfl
    · rfl

/-- The column of an attribute that is not a key. -/
def columnOf (b : Blueprint) (only : Bool) (a : AttributeNode) : Column where
  name := Naming.columnName (Path.localPart a.path)
  type := b.columnType only a
  source := a.path
  form := columnForm only a
  flattenedFrom := a.parent.map fun _ => Path.rootPart a.path

/-- The composite types with that of an attribute, if its column needs one. -/
def Registers (b : Blueprint) (a : AttributeNode) (types types' : TypeRegister) : Prop :=
  if b.naming.isKeyName a.path = false ∧ a.isComposite = true then
    ∃ name, types.ensure b.naming b.diagram a = .ok (name, types')
  else types' = types

/-- **An attribute has a column unless a key column stands for it.** -/
theorem attributeColumn_eq_ok {only : Bool} {a : AttributeNode} {column : Option Column} :
    b.attributeColumn only a types = .ok (column, types') ↔
      column = (if b.naming.isKeyName a.path then none else some (b.columnOf only a)) ∧
        b.Registers a types types' := by
  unfold attributeColumn Registers
  cases hkey : b.naming.isKeyName a.path with
  | true =>
    simp only [if_true, pure_mk_eq_ok, Bool.true_eq_false, false_and, if_false]
  | false =>
    simp only [Bool.false_eq_true, if_false, true_and]
    cases hcomposite : a.isComposite with
    | true =>
      simp only [if_true, pure_bind, bind_eq_ok, Prod.exists, pure_mk_eq_ok,
        SynthesisError.ofDiagram, mapError_eq_ok]
      constructor
      · rintro ⟨name, types₁, h, rfl, rfl⟩
        rw [TypeRegister.ensureWithin_name h]
        exact ⟨by simp [columnOf, columnType, columnForm, hcomposite], _, h⟩
      · rintro ⟨rfl, name, h⟩
        refine ⟨name, types', h, ?_, rfl⟩
        rw [TypeRegister.ensureWithin_name h]
        simp [columnOf, columnType, columnForm, hcomposite]
    | false =>
      simp only [Bool.false_eq_true, if_false, columnOf, columnType, columnForm, hcomposite]
      cases a.multivalued <;> cases only <;> exact pure_mk_eq_ok

/-! ## 2. Columns of nodes -/

/-- Whether an entity has a key column in the table of a grouping that names it. -/
def isKeyed (b : Blueprint) (e : EntityNode) : Bool :=
  !e.isSubclass || decide (b.layout.placement? e.path = some .alone)

theorem needsKey_eq_ok {e : EntityNode} {keyed : Bool} :
    b.needsKey e = .ok keyed → keyed = b.isKeyed e := by
  intro h
  unfold needsKey at h
  unfold isKeyed
  cases hsub : e.isSubclass with
  | false =>
    rw [hsub] at h
    exact (Except.ok.inj h).symm
  | true =>
    rw [hsub, if_pos rfl] at h
    cases hp : b.layout.placement? e.path with
    | none => simp [hp] at h
    | some p =>
      rw [hp] at h
      simp [← Except.ok.inj h]

/-- The key columns of the entities among some nodes, the last one first. -/
def keyColumns (b : Blueprint) (nodes : List Node) : List Column :=
  (((nodes.filterMap Node.entity?).filter b.isKeyed).map fun e =>
    .key (b.naming.keyColumn e.path) e.path).reverse

/-- The columns of the attributes among some nodes. -/
def attributeColumns (b : Blueprint) (only : Bool) (nodes : List Node) : List Column :=
  ((nodes.filterMap Node.attr?).filter fun a => !b.naming.isKeyName a.path).map (b.columnOf only)

theorem addColumns_entity {repeats only : Bool} {e : EntityNode} {nodes : List Node}
    {columns : List Column} :
    b.addColumns repeats only (.entity e :: nodes) columns types =
      (if repeats then pure false else b.needsKey e) >>= fun keyed =>
        b.addColumns repeats only nodes
          (if keyed then .key (b.naming.keyColumn e.path) e.path :: columns else columns)
          types := by
  rw [addColumns]
  cases repeats with
  | true => rfl
  | false =>
    simp only [Bool.false_eq_true, if_false]
    refine congrArg (b.needsKey e >>= ·) (funext fun keyed => ?_)
    cases keyed <;> rfl

/-- **Keys go in front of the columns that are there and attributes behind them.** -/
theorem addColumns_eq {repeats only : Bool} : ∀ {nodes : List Node} {columns columns' : List Column}
    {types types' : TypeRegister},
    b.addColumns repeats only nodes columns types = .ok (columns', types') →
      columns' = (if repeats then [] else b.keyColumns nodes) ++ columns
        ++ b.attributeColumns only nodes
  | [], columns, columns', types, types', h => by
    obtain ⟨rfl, rfl⟩ := Prod.mk.inj (Except.ok.inj h)
    simp [keyColumns, attributeColumns]
  | .entity e :: nodes, columns, columns', types, types', h => by
    rw [addColumns_entity] at h
    obtain ⟨keyed, hkeyed, h⟩ := bind_eq_ok.mp h
    have hrest := addColumns_eq h
    have hattributes : b.attributeColumns only (.entity e :: nodes) =
        b.attributeColumns only nodes := rfl
    cases repeats with
    | true =>
      obtain rfl : false = keyed := pure_eq_ok.mp hkeyed
      simpa [hattributes] using hrest
    | false =>
      obtain rfl := needsKey_eq_ok hkeyed
      rw [hrest, hattributes]
      cases hk : b.isKeyed e <;> simp [keyColumns, Node.entity?, hk]
  | .relationship r :: nodes, columns, columns', types, types', h => by
    have hrest := addColumns_eq (show b.addColumns repeats only nodes columns types = _ from h)
    exact hrest
  | .attr a :: nodes, columns, columns', types, types', h => by
    obtain ⟨⟨column, types₁⟩, hcolumn, h⟩ := bind_eq_ok.mp h
    obtain ⟨rfl, -⟩ := attributeColumn_eq_ok.mp hcolumn
    have hkeys : b.keyColumns (.attr a :: nodes) = b.keyColumns nodes := rfl
    rw [addColumns_eq h, hkeys]
    cases hk : b.naming.isKeyName a.path <;> simp [attributeColumns, Node.attr?, hk]

/-- The composite types with those of several attributes, one after another. -/
def RegistersAll (b : Blueprint) : List AttributeNode → TypeRegister → TypeRegister → Prop
  | [], types, types' => types' = types
  | a :: as, types, types' => ∃ types₁, b.Registers a types types₁ ∧ b.RegistersAll as types₁ types'

theorem RegistersAll.append : ∀ {as bs : List AttributeNode} {types types₁ types' : TypeRegister},
    b.RegistersAll as types types₁ → b.RegistersAll bs types₁ types' →
      b.RegistersAll (as ++ bs) types types'
  | [], bs, types, types₁, types', h, h' => by
    obtain rfl : types₁ = types := h
    exact h'
  | a :: as, bs, types, types₁, types', ⟨types₂, ha, h⟩, h' => ⟨types₂, ha, h.append h'⟩

/-- The types of the attributes among the nodes are registered. -/
theorem addColumns_registers {repeats only : Bool} : ∀ {nodes : List Node}
    {columns columns' : List Column} {types types' : TypeRegister},
    b.addColumns repeats only nodes columns types = .ok (columns', types') →
      b.RegistersAll (nodes.filterMap Node.attr?) types types'
  | [], columns, columns', types, types', h => ((Prod.mk.inj (Except.ok.inj h)).2).symm
  | .entity e :: nodes, columns, columns', types, types', h => by
    rw [addColumns_entity] at h
    obtain ⟨keyed, -, h⟩ := bind_eq_ok.mp h
    have hrest := addColumns_registers h
    exact hrest
  | .relationship r :: nodes, columns, columns', types, types', h => by
    have hrest := addColumns_registers
      (show b.addColumns repeats only nodes columns types = _ from h)
    exact hrest
  | .attr a :: nodes, columns, columns', types, types', h => by
    obtain ⟨⟨column, types₁⟩, hcolumn, h⟩ := bind_eq_ok.mp h
    exact ⟨types₁, (attributeColumn_eq_ok.mp hcolumn).2, addColumns_registers h⟩

/-! ## 3. Key columns of two sides -/

/-- **The keys of the two sides** are called after the roles, or after the entities if there are
no roles. -/
theorem sideKeys_eq_ok {index : Nat} {name : String} {nodes : List Node} {keys : List Column}
    (h : b.sideKeys index name nodes = .ok keys) : ∃ r e₁ e₂,
      nodes.findSome? Node.relationship? = some r ∧ b.diagram.endpoints r.path = .ok (e₁, e₂) ∧
        (e₁.isWeak || e₂.isWeak) = false ∧
          keys = [.key (Structures.sideNames b.naming r e₁ e₂).1 e₁.path,
            .key (Structures.sideNames b.naming r e₁ e₂).2 e₂.path] := by
  obtain ⟨n, -, h⟩ := bind_eq_ok.mp h
  cases n with
  | relationship r => exact absurd h throw_ne_ok
  | attr a => exact absurd h throw_ne_ok
  | entity e =>
    cases hr : nodes.findSome? Node.relationship? with
    | none =>
      simp only [hr] at h
      exact absurd h throw_ne_ok
    | some r =>
      simp only [hr] at h
      obtain ⟨⟨e₁, e₂⟩, hends, h⟩ := bind_eq_ok.mp h
      refine ⟨r, e₁, e₂, rfl, mapError_eq_ok.mp hends, ?_⟩
      cases hweak : e₁.isWeak || e₂.isWeak with
      | true =>
        simp only [hweak, if_true] at h
        obtain ⟨-, h, -⟩ := bind_eq_ok.mp h
        exact absurd h throw_ne_ok
      | false =>
        refine ⟨rfl, ?_⟩
        simp only [hweak, Bool.false_eq_true, if_false] at h
        cases hroles : r.roles with
        | some roles =>
          simp only [hroles] at h
          simpa [Structures.sideNames, hroles] using (pure_eq_ok.mp h).symm
        | none =>
          simp only [hroles] at h
          split at h
          · obtain ⟨-, h, -⟩ := bind_eq_ok.mp h
            exact absurd h throw_ne_ok
          · simpa [Structures.sideNames, hroles] using (pure_eq_ok.mp h).symm

/-- The key columns in the table of a grouping: those of its entities if no name is repeated,
else those of the two sides. -/
inductive HasKeys (b : Blueprint) (index : Nat) (g : Grouping) (nodes : List Node) :
    List Column → Prop where
  | entities : g.repeated = [] → HasKeys b index g nodes (b.keyColumns nodes)
  | sides {name : String} {keys : List Column} : g.repeated = [name] →
      b.sideKeys index name nodes = .ok keys → HasKeys b index g nodes keys

/-- Every key column is called as keys are, and no attribute is its source. -/
def IsKeyColumn (naming : Naming) (c : Column) : Prop :=
  ∃ stem entity, c = .key (naming.keyColumn stem) entity

theorem HasKeys.isKeyColumn {index : Nat} {g : Grouping} {nodes : List Node} {keys : List Column}
    (h : HasKeys b index g nodes keys) : ∀ c ∈ keys, IsKeyColumn b.naming c := by
  intro c hc
  cases h with
  | entities =>
    obtain ⟨e, -, rfl⟩ := List.mem_map.mp (List.mem_reverse.mp hc)
    exact ⟨e.path, e.path, rfl⟩
  | sides _ h =>
    obtain ⟨r, e₁, e₂, -, -, -, rfl⟩ := sideKeys_eq_ok h
    unfold Structures.sideNames at hc
    simp only [List.mem_cons, List.not_mem_nil, or_false] at hc
    split at hc <;> rcases hc with rfl | rfl <;> exact ⟨_, _, rfl⟩

/-! ## 4. Tables -/

theorem duplicate?_eq_none : ∀ {cs : List Column} {seen : List String},
    duplicate? seen cs = none ↔ (cs.map Column.name).Nodup ∧ ∀ c ∈ cs, c.name ∉ seen
  | [], seen => by simp [duplicate?]
  | c :: cs, seen => by
    rw [duplicate?]
    split
    · next h => simp [h]
    · next h =>
      rw [duplicate?_eq_none, List.map_cons, List.nodup_cons, List.forall_mem_cons]
      simp only [List.mem_cons, not_or, List.mem_map, not_exists, not_and]
      constructor
      · exact fun ⟨hn, hcs⟩ => ⟨⟨fun d hd => (hcs d hd).1, hn⟩, h, fun d hd => (hcs d hd).2⟩
      · exact fun ⟨⟨hc, hn⟩, _, hcs⟩ => ⟨hn, fun d hd => ⟨hc d hd, hcs d hd⟩⟩

theorem repeatedName_eq_ok {index : Nat} {g : Grouping} {repeated : Option String}
    (h : repeatedName index g = .ok repeated) : g.repeated = repeated.toList := by
  unfold repeatedName at h
  split at h
  · next hg => rw [← Except.ok.inj h, hg, Option.toList_none]
  · next name hg =>
    dsimp only at h
    split at h
    · exact nomatch h
    · rw [← Except.ok.inj h, hg, Option.toList_some]
  · exact nomatch h

/-- Whether only one attribute is among some nodes. -/
def isOnly (nodes : List Node) : Bool := decide ((nodes.filterMap Node.attr?).length = 1)

/-- **The table of a grouping**: its key columns and then the columns of its attributes, no two
of one name. -/
def IsTable (b : Blueprint) (index : Nat) (g : Grouping) (t : Table) : Prop :=
  ∃ nodes keys, b.nodesOf g = .ok nodes ∧ HasKeys b index g nodes keys ∧
    t = ⟨b.naming.tableName index, index, keys ++ b.attributeColumns (isOnly nodes) nodes⟩ ∧
      (t.columns.map Column.name).Nodup

/-- The columns of the nodes are added to the keys that are there, and no two may have one name. -/
theorem columns_eq_ok {index : Nat} {both only : Bool} {nodes : List Node} {keys : List Column}
    {t : Table} (h : (b.addColumns both only nodes keys types >>= fun (columns, types) =>
      match duplicate? [] columns with
      | some name => throw (.invalidGrouping index (.duplicateColumn name))
      | none => pure (⟨b.naming.tableName index, index, columns⟩, types)) = .ok (t, types')) :
    ∃ columns, b.addColumns both only nodes keys types = .ok (columns, types') ∧
      duplicate? [] columns = none ∧ t = ⟨b.naming.tableName index, index, columns⟩ := by
  obtain ⟨⟨columns, types₁⟩, hcolumns, h⟩ := bind_eq_ok.mp h
  cases hdup : duplicate? [] columns with
  | some name =>
    simp only [hdup] at h
    exact absurd h throw_ne_ok
  | none =>
    simp only [hdup] at h
    obtain ⟨rfl, rfl⟩ := pure_mk_eq_ok.mp h
    exact ⟨columns, hcolumns, hdup, rfl⟩

theorem table_eq_ok {index : Nat} {g : Grouping} {t : Table}
    (h : b.table index g types = .ok (t, types')) :
    b.IsTable index g t ∧ ∃ nodes, b.nodesOf g = .ok nodes ∧
      b.RegistersAll (nodes.filterMap Node.attr?) types types' := by
  obtain ⟨nodes, hnodes, h⟩ := bind_eq_ok.mp h
  obtain ⟨repeated, hrepeated, h⟩ := bind_eq_ok.mp h
  have hg := repeatedName_eq_ok hrepeated
  -- the keys of two sides are there before the columns of the nodes are added
  obtain ⟨keys, columns, hkeys, hcolumns, hdup, rfl⟩ : ∃ keys columns,
      HasKeys b index g nodes
        ((if repeated.isSome then [] else b.keyColumns nodes) ++ keys) ∧
      b.addColumns repeated.isSome (isOnly nodes) nodes keys types = .ok (columns, types') ∧
        duplicate? [] columns = none ∧ t = ⟨b.naming.tableName index, index, columns⟩ := by
    cases repeated with
    | none =>
      obtain ⟨keys, hnil, h⟩ := bind_eq_ok.mp h
      obtain rfl := pure_eq_ok.mp hnil
      obtain ⟨columns, hcolumns, hdup, ht⟩ := columns_eq_ok h
      exact ⟨[], columns, by simpa using HasKeys.entities hg, hcolumns, hdup, ht⟩
    | some name =>
      obtain ⟨keys, hsides, h⟩ := bind_eq_ok.mp h
      obtain ⟨columns, hcolumns, hdup, ht⟩ := columns_eq_ok h
      exact ⟨keys, columns, HasKeys.sides hg hsides, hcolumns, hdup, ht⟩
  exact ⟨⟨nodes, _, mapError_eq_ok.mp hnodes, hkeys, by rw [addColumns_eq hcolumns],
    (duplicate?_eq_none.mp hdup).1⟩, nodes, mapError_eq_ok.mp hnodes, addColumns_registers hcolumns⟩

section

variable {g : Grouping} {nodes : List Node} (hd : b.diagram.IsIndexed)
  (hnodes : b.nodesOf g = .ok nodes)

include hd hnodes

/-- The nodes of a grouping are those it names in any spelling. -/
theorem mem_nodes_iff {n : Node} :
    n ∈ nodes ↔ n ∈ b.diagram.nodes ∧ ∃ name ∈ g.names, Text.lower name = n.path := by
  have hall := mapM_eq_ok.mp hnodes
  constructor
  · intro hn
    obtain ⟨name, hname, hat⟩ := exists_of_mem_right hall hn
    obtain ⟨hmem, hpath⟩ := hd.nodeAt_eq_ok.mp hat
    exact ⟨hmem, name, hname, hpath.symm⟩
  · rintro ⟨hmem, name, hname, hpath⟩
    obtain ⟨m, hm, hat⟩ := exists_of_mem_left hall hname
    rw [hd.nodeAt_eq_ok.mpr ⟨hmem, hpath.symm⟩] at hat
    rwa [Except.ok.inj hat]

/-- The first relationship among the nodes of a grouping is one of the diagram. -/
theorem relationship_mem_of_findSome? {r : RelationshipNode}
    (hr : nodes.findSome? Node.relationship? = some r) : .relationship r ∈ b.diagram.nodes := by
  obtain ⟨n, hn, hnr⟩ := List.exists_of_findSome?_eq_some hr
  obtain rfl := Node.relationship?_eq_some.mp hnr
  exact ((mem_nodes_iff hd hnodes).mp hn).1

/-- A grouping holds the node of every path in it. -/
theorem mem_of_contains {n : Node} (hn : n ∈ b.diagram.nodes)
    (hg : g.contains n.path = true) : n ∈ nodes :=
  (mem_nodes_iff hd hnodes).mpr ⟨hn, n.path, List.contains_iff_mem.mp hg, hd.lower_path hn⟩

theorem key_mem_keyColumns {e : EntityNode} (he : .entity e ∈ b.diagram.nodes)
    (hg : g.contains e.path = true) (hkeyed : b.isKeyed e = true) :
    Column.key (b.naming.keyColumn e.path) e.path ∈ b.keyColumns nodes := by
  have hmem : .entity e ∈ nodes := mem_of_contains hd hnodes (n := .entity e) he hg
  refine List.mem_reverse.mpr (List.mem_map.mpr ⟨e, ?_, rfl⟩)
  exact List.mem_filter.mpr ⟨List.mem_filterMap.mpr ⟨_, hmem, rfl⟩, hkeyed⟩

end

namespace IsTable

variable {index : Nat} {g : Grouping} {t : Table} (h : b.IsTable index g t)
  (hd : b.diagram.IsIndexed)

include h hd

/-- **An attribute that a grouping stores has a column.** -/
theorem columnOf_mem {a : AttributeNode} (ha : g.Stores b.diagram b.naming a) :
    ∃ only, b.columnOf only a ∈ t.columns := by
  obtain ⟨nodes, keys, hnodes, -, rfl, -⟩ := h
  obtain ⟨ha, hkey, hname⟩ := ha
  have hmem : .attr a ∈ nodes := (mem_nodes_iff hd hnodes).mpr ⟨ha, hname⟩
  refine ⟨isOnly nodes, List.mem_append_right _ (List.mem_map_of_mem ?_)⟩
  exact List.mem_filter.mpr ⟨Node.mem_filterMap_attr?.mpr hmem, by simp [hkey]⟩

/-- **Every column is a key or that of an attribute that the grouping stores.** -/
theorem column_cases {c : Column} (hc : c ∈ t.columns) : IsKeyColumn b.naming c ∨
    ∃ a only, g.Stores b.diagram b.naming a ∧ c = b.columnOf only a := by
  obtain ⟨nodes, keys, hnodes, hkeys, rfl, -⟩ := h
  rcases List.mem_append.mp hc with hc | hc
  · exact .inl (hkeys.isKeyColumn c hc)
  · obtain ⟨a, ha, rfl⟩ := List.mem_map.mp hc
    obtain ⟨ha, hkey⟩ := List.mem_filter.mp ha
    obtain ⟨hmem, hname⟩ := (mem_nodes_iff hd hnodes).mp (Node.mem_filterMap_attr?.mp ha)
    exact .inr ⟨a, _, ⟨hmem, by simpa using hkey, hname⟩, rfl⟩

/-- **An entity that a grouping holds has its key column**, if the grouping repeats nothing. -/
theorem key_mem {e : EntityNode} (he : .entity e ∈ b.diagram.nodes)
    (hg : g.contains e.path = true) (hkeyed : b.isKeyed e = true) (hrepeated : g.repeated = []) :
    Column.key (b.naming.keyColumn e.path) e.path ∈ t.columns := by
  obtain ⟨nodes, keys, hnodes, hkeys, ht, -⟩ := id h
  have hmem := key_mem_keyColumns hd hnodes he hg hkeyed
  rw [ht]
  cases hkeys with
  | entities => exact List.mem_append_left _ hmem
  | sides hname => exact nomatch hrepeated.symm.trans hname

/-- **A table that a keyed entity is part of can be joined.** -/
theorem exists_joinKey {e : EntityNode} (he : .entity e ∈ b.diagram.nodes)
    (hg : g.contains e.path = true) (hkeyed : b.isKeyed e = true) :
    ∃ key, t.joinKey? = some key := by
  obtain ⟨nodes, keys, hnodes, hkeys, ht, -⟩ := id h
  obtain ⟨key, rest, rfl⟩ : ∃ key rest, keys = key :: rest := by
    cases hkeys with
    | entities =>
      exact List.exists_cons_of_ne_nil (List.ne_nil_of_mem
        (key_mem_keyColumns hd hnodes he hg hkeyed))
    | sides _ hsides =>
      obtain ⟨r, e₁, e₂, -, -, -, rfl⟩ := sideKeys_eq_ok hsides
      exact ⟨_, _, rfl⟩
  obtain ⟨stem, entity, rfl⟩ := hkeys.isKeyColumn key List.mem_cons_self
  exact ⟨_, by rw [ht]; rfl⟩

end IsTable

theorem tablesFrom_eq_ok : ∀ {gs : List Grouping} {index : Nat} {ts : List Table}
    {types types' : TypeRegister}, b.tablesFrom index gs types = .ok (ts, types') →
      List.Forall₂ (fun p t => b.IsTable p.2 p.1 t) (gs.zipIdx index) ts ∧
        ∃ nodes, List.Forall₂ (fun g ns => b.nodesOf g = .ok ns) gs nodes ∧
          b.RegistersAll (nodes.flatten.filterMap Node.attr?) types types'
  | [], index, ts, types, types', h => by
    obtain ⟨rfl, rfl⟩ := Prod.mk.inj (Except.ok.inj h)
    exact ⟨.nil, [], .nil, rfl⟩
  | g :: gs, index, ts, types, types', h => by
    obtain ⟨⟨t, types₁⟩, ht, h⟩ := bind_eq_ok.mp h
    obtain ⟨⟨rest, types₂⟩, hrest, h⟩ := bind_eq_ok.mp h
    obtain ⟨rfl, rfl⟩ := pure_mk_eq_ok.mp h
    obtain ⟨htable, ns, hns, hfirst⟩ := table_eq_ok ht
    obtain ⟨htables, nodes, hnodes, hall⟩ := tablesFrom_eq_ok hrest
    refine ⟨.cons htable htables, ns :: nodes, .cons hns hnodes, ?_⟩
    rw [List.flatten_cons, List.filterMap_append]
    exact hfirst.append hall

/-- The tables of groupings further on are made behind the others. -/
theorem tablesFrom_append {further : List Grouping} : ∀ {gs : List Grouping} {index : Nat}
    {ts : List Table} {types types' : TypeRegister},
    b.tablesFrom index (gs ++ further) types = .ok (ts, types') → ∃ first rest types₁,
      b.tablesFrom index gs types = .ok (first, types₁) ∧
        b.tablesFrom (index + gs.length) further types₁ = .ok (rest, types') ∧
          ts = first ++ rest
  | [], index, ts, types, types', h => ⟨[], ts, types, rfl, h, rfl⟩
  | g :: gs, index, ts, types, types', h => by
    obtain ⟨⟨t, types₁⟩, ht, h⟩ := bind_eq_ok.mp h
    obtain ⟨⟨us, types₂⟩, hus, h⟩ := bind_eq_ok.mp h
    obtain ⟨rfl, rfl⟩ := pure_mk_eq_ok.mp h
    obtain ⟨first, rest, types₃, hfirst, hrest, rfl⟩ := tablesFrom_append hus
    refine ⟨t :: first, rest, types₃, ?_, ?_, rfl⟩
    · simp only [tablesFrom, ht, ok_bind, hfirst]
      rfl
    · rw [List.length_cons, show index + (gs.length + 1) = index + 1 + gs.length by omega]
      exact hrest

/-- **The types of several attributes are made**, with those of their parts. -/
theorem RegistersAll.adds {Q : AttributeNode → Prop}
    (hQ : TypeRegister.IsHereditary b.diagram Q) : ∀ {as : List AttributeNode}
    {types types' : TypeRegister}, b.RegistersAll as types types' →
      (∀ a ∈ as, b.naming.isKeyName a.path = false → a.isComposite = true → Q a) →
        TypeRegister.Adds b.naming b.diagram Q 0 types types' ∧
          ∀ a ∈ as, b.naming.isKeyName a.path = false → a.isComposite = true →
            b.naming.typeName a.path ∈ types'.names
  | [], types, types', h, _ => by
    obtain rfl : types' = types := h
    exact ⟨.refl, fun a ha => absurd ha List.not_mem_nil⟩
  | a :: as, types, types', ⟨types₁, ha, h⟩, hall => by
    obtain ⟨hadds, hnames⟩ := h.adds hQ fun x hx => hall x (List.mem_cons_of_mem _ hx)
    unfold Registers at ha
    split at ha
    · next hcomposite =>
      obtain ⟨name, hname⟩ := ha
      have hQa := hall a List.mem_cons_self hcomposite.1 hcomposite.2
      obtain ⟨hmem, hfirst⟩ := TypeRegister.ensureWithin_adds hQ hname hQa
      rw [TypeRegister.ensureWithin_name hname] at hmem
      refine ⟨(hfirst.mono (Nat.zero_le _)).trans hadds, ?_⟩
      exact List.forall_mem_cons.mpr ⟨fun _ _ => hadds.kept _ hmem, hnames⟩
    · next hnot =>
      subst ha
      exact ⟨hadds, List.forall_mem_cons.mpr ⟨fun hkey hcomposite =>
        absurd ⟨hkey, hcomposite⟩ hnot, hnames⟩⟩

end Blueprint

/-! ## 5. All tables -/

theorem Naming.tableName_inj {naming : Naming} {i j : Nat} :
    naming.tableName i = naming.tableName j ↔ i = j := by
  constructor
  · intro h
    have hrepr : Nat.repr i = Nat.repr j := (String.append_right_inj _).mp h
    have hdigits : Nat.toDigits 10 i = Nat.toDigits 10 j := by
      rw [← Nat.toList_repr, hrepr, Nat.toList_repr]
    rw [← Nat.ofDigitChars_ten_toDigits (n := i), hdigits, Nat.ofDigitChars_ten_toDigits]
  · rintro rfl
    rfl

section

variable {d : Diagram} {layout : Layout} {groupings : List Grouping} {naming : Naming}
  {s : PhysicalSchema} (h : synthesize d layout groupings naming = .ok s)

include h

/-- **The tables are those of the groupings, one by one.** -/
theorem synthesize_tables :
    List.Forall₂ (fun p t => Blueprint.IsTable ⟨d, layout, naming⟩ p.2 p.1 t) groupings.zipIdx
      s.tables := by
  obtain ⟨⟨tables, types⟩, htables, h⟩ := bind_eq_ok.mp h
  obtain rfl := pure_eq_ok.mp h
  exact (Blueprint.tablesFrom_eq_ok htables).1

/-- **The composite types are made for the attributes that groupings store**, if these have `Q`,
and for their parts. -/
theorem synthesize_types (hd : d.IsIndexed) {Q : AttributeNode → Prop}
    (hQ : TypeRegister.IsHereditary d Q)
    (hstores : ∀ g ∈ groupings, ∀ a, g.Stores d naming a → a.isComposite = true → Q a) :
    TypeRegister.Made naming d Q s.types ∧ ∀ g ∈ groupings, ∀ a, g.Stores d naming a →
      a.isComposite = true → naming.typeName a.path ∈ s.types.names := by
  obtain ⟨⟨tables, types⟩, htables, h⟩ := bind_eq_ok.mp h
  obtain rfl := pure_eq_ok.mp h
  obtain ⟨-, nodes, hnodes, hregisters⟩ := Blueprint.tablesFrom_eq_ok htables
  have hmem : ∀ a, a ∈ nodes.flatten.filterMap Node.attr? ↔ .attr a ∈ d.nodes ∧
      ∃ g ∈ groupings, ∃ name ∈ g.names, Text.lower name = a.path := by
    intro a
    rw [Node.mem_filterMap_attr?, List.mem_flatten]
    constructor
    · rintro ⟨ns, hns, ha⟩
      obtain ⟨g, hg, hof⟩ := exists_of_mem_right hnodes hns
      obtain ⟨hnode, hname⟩ := (Blueprint.mem_nodes_iff hd hof).mp ha
      exact ⟨hnode, g, hg, hname⟩
    · rintro ⟨hnode, g, hg, hname⟩
      obtain ⟨ns, hns, hof⟩ := exists_of_mem_left hnodes hg
      exact ⟨ns, hns, (Blueprint.mem_nodes_iff hd hof).mpr ⟨hnode, hname⟩⟩
  obtain ⟨hadds, hnames⟩ := hregisters.adds hQ fun a ha hkey hcomposite => by
    obtain ⟨hnode, g, hg, hname⟩ := (hmem a).mp ha
    exact hstores g hg a ⟨hnode, hkey, hname⟩ hcomposite
  refine ⟨hadds.made .empty, ?_⟩
  rintro g hg a ⟨hnode, hkey, hname⟩ hcomposite
  exact hnames a ((hmem a).mpr ⟨hnode, g, hg, hname⟩) hkey hcomposite

/-- **Groupings further on change neither the tables nor the types that are there.** -/
theorem synthesize_append {further : List Grouping} {s' : PhysicalSchema} (hd : d.IsIndexed)
    (hQ : TypeRegister.IsHereditary d fun a => .attr a ∈ d.nodes)
    (h' : synthesize d layout (groupings ++ further) naming = .ok s') :
    s.tables <+: s'.tables ∧ s.types.entries <+: s'.types.entries := by
  obtain ⟨⟨tables, types⟩, htables, h⟩ := bind_eq_ok.mp h
  obtain rfl := pure_eq_ok.mp h
  obtain ⟨⟨tables', types'⟩, htables', h'⟩ := bind_eq_ok.mp h'
  obtain rfl := pure_eq_ok.mp h'
  obtain ⟨first, rest, types₁, hfirst, hrest, rfl⟩ := Blueprint.tablesFrom_append htables'
  obtain ⟨rfl, rfl⟩ := Prod.mk.inj (Except.ok.inj (htables.symm.trans hfirst))
  obtain ⟨-, nodes, hnodes, hregisters⟩ := Blueprint.tablesFrom_eq_ok hrest
  refine ⟨List.prefix_append _ _, (hregisters.adds hQ fun a ha _ _ => ?_).1.extended⟩
  obtain ⟨ns, hns, ha⟩ := List.mem_flatten.mp (Node.mem_filterMap_attr?.mp ha)
  obtain ⟨g, -, hof⟩ := exists_of_mem_right hnodes hns
  exact ((Blueprint.mem_nodes_iff hd hof).mp ha).1

/-- A table is that of the grouping at its index. -/
theorem synthesize_of_mem {t : Table} (ht : t ∈ s.tables) :
    ∃ g, groupings[t.grouping]? = some g ∧
      Blueprint.IsTable ⟨d, layout, naming⟩ t.grouping g t := by
  obtain ⟨⟨g, i⟩, hg, htable⟩ := exists_of_mem_right (synthesize_tables h) ht
  have hindex : i = t.grouping := by
    obtain ⟨nodes, keys, -, -, rfl, -⟩ := htable
    rfl
  rw [← hindex]
  exact ⟨g, List.mem_zipIdx_iff_getElem?.mp hg, htable⟩

/-- Every grouping has a table. -/
theorem synthesize_of_getElem? {i : Nat} {g : Grouping} (hg : groupings[i]? = some g) :
    ∃ t ∈ s.tables, t.grouping = i ∧ Blueprint.IsTable ⟨d, layout, naming⟩ i g t := by
  obtain ⟨t, ht, htable⟩ := exists_of_mem_left (synthesize_tables h)
    (List.mk_mem_zipIdx_iff_getElem?.mpr hg)
  refine ⟨t, ht, ?_, htable⟩
  obtain ⟨nodes, keys, -, -, rfl, -⟩ := htable
  rfl

/-- **Tables are numbered** in order. -/
theorem synthesize_groupings :
    s.tables.map Table.grouping = List.range' 0 groupings.length := by
  rw [← List.zipIdx_map_snd, ← List.forall₂_eq_eq_eq, List.forall₂_map_left_iff,
    List.forall₂_map_right_iff]
  refine (synthesize_tables h).flip.imp fun t p htable => ?_
  obtain ⟨nodes, keys, -, -, rfl, -⟩ := htable
  rfl

theorem synthesize_sorted : s.tables.Pairwise fun t u => t.grouping < u.grouping := by
  rw [← List.pairwise_map, synthesize_groupings h]
  exact List.pairwise_lt_range'

theorem synthesize_inj {t u : Table} (ht : t ∈ s.tables) (hu : u ∈ s.tables)
    (hindex : t.grouping = u.grouping) : t = u := by
  refine List.inj_on_of_nodup_map ?_ ht hu hindex
  rw [synthesize_groupings h]
  exact List.nodup_range'

/-- **No two tables share a name.** -/
theorem synthesize_nodup : (s.tables.map Table.name).Nodup := by
  refine List.pairwise_map.mpr ((synthesize_sorted h).imp_of_mem fun ht hu hlt hname => ?_)
  obtain ⟨-, -, nodes, keys, -, -, htable, -⟩ := synthesize_of_mem h ht
  obtain ⟨-, -, nodes', keys', -, -, htable', -⟩ := synthesize_of_mem h hu
  rw [htable, htable'] at hname
  exact absurd (Naming.tableName_inj.mp hname) (Nat.ne_of_lt hlt)

end

end EntityLayout
