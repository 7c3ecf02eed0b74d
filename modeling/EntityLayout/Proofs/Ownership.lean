/-
# What ownership says

Ownership is settled node by node, and what a subclass has from its parent is read off what
was settled for the parent.  In the end the equation of every node holds of the ownership as
a whole.

* `Ownership.resolve_names`: it is settled for the entities and relationships, in order.
* `Ownership.resolve_entity`, `Ownership.resolve_relationship`: the equation of a node.
* `Ownership.tablesNamed_tablesOf`: the owned tables are found in the schema, in its order.
* `Ownership.resolveEach_eq_error`: only relationships can be without tables or have several.
-/
import EntityLayout.Compiled
import EntityLayout.Proofs.Diagram.Lookup
import EntityLayout.Proofs.Register

namespace EntityLayout.Ownership

variable {d : Diagram} {layout : Layout} {groupings : List Grouping} {schema : PhysicalSchema}
  {settled o : Ownership}

/-! ## 1. Settling node by node -/

/-- What is settled for a node by what was settled before; nothing for an attribute. -/
def IsSettled (layout : Layout) (groupings : List Grouping) (tables : List Table)
    (settled : Ownership) : Node → Option (List String) → Prop
  | .entity e, o => o = some (entityTables layout groupings tables settled e)
  | .relationship r, o =>
    ∃ owned, o = some owned ∧ relationshipTables groupings tables r.path = .ok owned
  | .attr _, o => o = none

theorem resolveEach_eq_ok {tables : List Table} : ∀ {ns : List Node} {settled o : Ownership},
    resolveEach layout groupings tables ns settled = .ok o ↔
      Register.Fills Node.path (IsSettled layout groupings tables) ns settled o
  | [], settled, o => by
    rw [resolveEach, Except.ok.injEq]
    exact eq_comm
  | .entity e :: ns, settled, o => by
    rw [resolveEach, resolveEach_eq_ok]
    constructor
    · exact fun h => ⟨_, rfl, h⟩
    · rintro ⟨_, rfl, h⟩
      exact h
  | .relationship r :: ns, settled, o => by
    rw [resolveEach, bind_eq_ok]
    constructor
    · rintro ⟨owned, howned, h⟩
      exact ⟨some owned, ⟨owned, rfl, howned⟩, resolveEach_eq_ok.mp h⟩
    · rintro ⟨_, ⟨owned, rfl, howned⟩, h⟩
      exact ⟨owned, howned, resolveEach_eq_ok.mpr h⟩
  | .attr a :: ns, settled, o => by
    rw [resolveEach, resolveEach_eq_ok]
    constructor
    · exact fun h => ⟨none, rfl, h⟩
    · rintro ⟨_, rfl, h⟩
      exact h

/-- **Ownership fails for relationships only**, which no grouping names or several do. -/
theorem resolveEach_eq_error {tables : List Table} {fault : OwnershipError} : ∀ {ns : List Node}
    {settled : Ownership}, resolveEach layout groupings tables ns settled = .error fault →
      ∃ r, .relationship r ∈ ns ∧
        (fault = .missingGrouping r.path ∨ ∃ names, fault = .multipleGroupings r.path names)
  | [], _, h => nomatch h
  | .entity e :: ns, settled, h => by
    rw [resolveEach] at h
    obtain ⟨r, hr, hfault⟩ := resolveEach_eq_error h
    exact ⟨r, List.mem_cons_of_mem _ hr, hfault⟩
  | .relationship r :: ns, settled, h => by
    rcases bind_eq_error.mp h with h | ⟨owned, -, h⟩
    · refine ⟨r, List.mem_cons_self, ?_⟩
      unfold relationshipTables at h
      split at h
      · exact .inl (Except.error.inj h).symm
      · exact nomatch h
      · exact .inr ⟨_, (Except.error.inj h).symm⟩
    · obtain ⟨r', hr', hfault⟩ := resolveEach_eq_error h
      exact ⟨r', List.mem_cons_of_mem _ hr', hfault⟩
  | .attr a :: ns, settled, h => by
    rw [resolveEach] at h
    obtain ⟨r, hr, hfault⟩ := resolveEach_eq_error h
    exact ⟨r, List.mem_cons_of_mem _ hr, hfault⟩

theorem isSome_of_isSettled {tables : List Table} {n : Node} {owned : Option (List String)}
    (h : IsSettled layout groupings tables settled n owned) : owned.isSome = n.isOwner := by
  cases n with
  | entity e => rw [show owned = _ from h]; rfl
  | relationship r => obtain ⟨_, rfl, -⟩ := h; rfl
  | attr a => rw [show owned = none from h]; rfl

/-- What was settled stays settled. -/
theorem tablesOf_within (hwithin : settled.Within o) {path : String} (h : path ∈ settled.names) :
    o.tablesOf path = settled.tablesOf path := by
  obtain ⟨owned, hmem⟩ := Register.mem_names.mp h
  have hget := Register.get?_eq_some.mpr hmem
  rw [tablesOf, tablesOf, hget, hwithin _ _ hget]

theorem relationshipTables_eq_ok {tables : List Table} {path : String} {owned : List String} :
    relationshipTables groupings tables path = .ok owned ↔
      (∃ name, owned = [name]) ∧
        owned = (tables.filter fun t => groupingNames groupings t path).map Table.name := by
  unfold relationshipTables
  generalize (tables.filter fun t => groupingNames groupings t path).map Table.name = names
  match names with
  | [] => exact ⟨fun h => (nomatch h), fun ⟨⟨name, hname⟩, h⟩ => nomatch h.symm.trans hname⟩
  | [name] => exact ⟨fun h => ⟨⟨name, (Except.ok.inj h).symm⟩, (Except.ok.inj h).symm⟩,
      fun h => by rw [h.2]⟩
  | a :: b :: rest => exact ⟨fun h => (nomatch h), fun ⟨⟨name, hname⟩, h⟩ =>
      nomatch h.symm.trans hname⟩

theorem ownsDirectly_iff {e : EntityNode} {t : Table} :
    ownsDirectly groupings e t = true ↔
      (∃ g, groupings[t.grouping]? = some g ∧ g.contains e.path = true) ∧
        ∃ p ∈ e.attributes, t.hasSource p = true := by
  rw [ownsDirectly, Bool.and_eq_true, List.any_eq_true, groupingNames]
  cases groupings[t.grouping]? <;> simp

/-- Groupings further on do not change what the grouping of a table names. -/
theorem groupingNames_append {further : List Grouping} {t : Table}
    (h : t.grouping < groupings.length) (path : String) :
    groupingNames (groupings ++ further) t path = groupingNames groupings t path := by
  rw [groupingNames, groupingNames, List.getElem?_append_left h]

/-- Only a subclass that does not stand alone has tables from its parent. -/
theorem inherited_eq_nil {e : EntityNode}
    (h : e.isSubclass = true → layout.isAlone e.path = true) : inherited layout settled e = [] := by
  unfold inherited
  cases e.parent with
  | none => rfl
  | some parent =>
    refine if_neg fun hshares => ?_
    obtain ⟨hsub, hshares⟩ := Bool.and_eq_true_iff.mp hshares
    have halone := h hsub
    unfold Layout.isAlone at halone
    unfold Layout.sharesWithParent at hshares
    cases hget : layout.get? e.path with
    | none => exact nomatch hget ▸ halone
    | some made =>
      simp only [hget] at halone hshares
      simp [halone] at hshares

/-! ## 2. The equations of nodes -/

section

variable (h : resolve d layout groupings schema = .ok o) (hd : d.IsIndexed)

include h hd

/-- Ownership is settled for the entities and relationships, in order. -/
theorem resolve_names : o.names = (d.nodes.filter Node.isOwner).map Node.path :=
  (resolveEach_eq_ok.mp h).names_eq Node.isOwner (fun h => isSome_of_isSettled h) hd.nodup

theorem get?_of_split {before after : List Node} {n : Node}
    (hsplit : d.nodes = before ++ n :: after) : ∃ settled : Ownership,
      settled.names = (before.filter Node.isOwner).map Node.path ∧ settled.Within o ∧
        IsSettled layout groupings schema.tables settled n (o.get? n.path) := by
  have hfills := resolveEach_eq_ok.mp h
  have hnodup := hd.nodup
  rw [Diagram.paths] at hnodup
  rw [hsplit] at hfills hnodup
  obtain ⟨settled, hbefore, hwithin, hvalue⟩ := hfills.get? hnodup
  rw [List.map_append] at hnodup
  have hnames := hbefore.names_eq Node.isOwner (fun h => isSome_of_isSettled h)
    (List.nodup_append.mp hnodup).1
  exact ⟨settled, hnames.trans rfl, hwithin, hvalue⟩

/-- **The tables of an entity**, whose parent comes before it. -/
theorem resolve_entity {before after : List Node} {e : EntityNode}
    (hsplit : d.nodes = before ++ .entity e :: after)
    (hparent : ∀ p ∈ e.parent, ∃ q, .entity q ∈ before ∧ q.path = p) :
    o.get? e.path = some (entityTables layout groupings schema.tables o e) := by
  obtain ⟨settled, hnames, hwithin, hvalue⟩ := get?_of_split h hd hsplit
  have hinherited : inherited layout o e = inherited layout settled e := by
    unfold inherited
    cases hp : e.parent with
    | none => rfl
    | some p =>
      obtain ⟨q, hq, rfl⟩ := hparent p hp
      have hmem : q.path ∈ settled.names := by
        rw [hnames]
        exact List.mem_map.mpr ⟨.entity q, List.mem_filter.mpr ⟨hq, rfl⟩, rfl⟩
      simp only [tablesOf_within hwithin hmem]
  rw [entityTables, hinherited]
  exact hvalue

/-- **The table of a relationship.** -/
theorem resolve_relationship {r : RelationshipNode} (hr : .relationship r ∈ d.nodes) :
    ∃ name, o.get? r.path = some [name] ∧
      (schema.tables.filter fun t => groupingNames groupings t r.path).map Table.name =
        [name] := by
  obtain ⟨before, after, hsplit⟩ := List.append_of_mem hr
  obtain ⟨settled, -, -, owned, hget, howned⟩ := get?_of_split h hd hsplit
  obtain ⟨⟨name, rfl⟩, htables⟩ := relationshipTables_eq_ok.mp howned
  exact ⟨name, hget, htables.symm⟩

/-- Owned tables are listed in the order of the schema. -/
theorem tablesOf_sublist (path : String) :
    (o.tablesOf path).Sublist (schema.tables.map Table.name) := by
  have hall : ∀ e ∈ o.entries, e.2.Sublist (schema.tables.map Table.name) := by
    refine (resolveEach_eq_ok.mp h).forall_mem
      (P := fun owned => owned.Sublist (schema.tables.map Table.name)) hd.nodup ?_
      (fun e he => absurd he List.not_mem_nil)
    intro settled n owned _ _ hvalue
    cases n with
    | entity e =>
      obtain rfl := Option.some.inj (show some owned = some _ from hvalue)
      exact List.filter_sublist.map Table.name
    | relationship r =>
      obtain ⟨_, howned, hr⟩ := hvalue
      obtain rfl := Option.some.inj howned
      rw [(relationshipTables_eq_ok.mp hr).2]
      exact List.filter_sublist.map Table.name
    | attr a => exact nomatch (show some owned = none from hvalue)
  rw [tablesOf]
  cases hget : o.get? path with
  | none => exact List.nil_sublist _
  | some owned => exact hall _ (Register.get?_eq_some.mp hget)

end

/-! ## 3. Finding the owned tables -/

/-- Tables of several names are found one by one, if no two tables share a name. -/
theorem tablesNamed_map (node : String) (hn : (schema.tables.map Table.name).Nodup) :
    ∀ {ts : List Table}, (∀ t ∈ ts, t ∈ schema.tables) →
      CompiledDiagram.tablesNamed schema node (ts.map Table.name) = .ok ts
  | [], _ => rfl
  | t :: ts, h => by
    have hfind : schema.table? t.name = some t := by
      have hmem := h t List.mem_cons_self
      obtain ⟨t', ht'⟩ : ∃ t', schema.table? t.name = some t' :=
        Option.isSome_iff_exists.mp (List.find?_isSome.mpr ⟨t, hmem, by simp⟩)
      have hname : t'.name = t.name := by simpa using List.find?_some ht'
      rw [ht', List.inj_on_of_nodup_map hn (List.mem_of_find?_eq_some ht') hmem hname]
    have hrest := tablesNamed_map node hn fun u hu => h u (List.mem_cons_of_mem _ hu)
    rw [List.map_cons, CompiledDiagram.tablesNamed, hfind]
    simp only [hrest, ok_bind]
    rfl

/-- The tables of a schema that a node owns. -/
def tablesIn (o : Ownership) (schema : PhysicalSchema) (path : String) : List Table :=
  schema.tables.filter fun t => (o.tablesOf path).contains t.name

theorem mem_tablesIn {path : String} {t : Table} :
    t ∈ o.tablesIn schema path ↔ t ∈ schema.tables ∧ t.name ∈ o.tablesOf path := by
  rw [tablesIn, List.mem_filter, List.contains_iff_mem]

/-- A sublist of a list without repetitions is what it contains of the list. -/
theorem filter_contains_of_sublist {names : List String} : ∀ {ts : List Table},
    names.Sublist (ts.map Table.name) → (ts.map Table.name).Nodup →
      (ts.filter fun t => names.contains t.name).map Table.name = names
  | [], h, _ => (List.sublist_nil.mp h).symm
  | t :: ts, h, hn => by
    obtain ⟨ht, hts⟩ := List.nodup_cons.mp hn
    rcases List.sublist_cons_iff.mp h with htail | ⟨rest, rfl, htail⟩
    · have hnot : t.name ∉ names := fun hm => ht (htail.subset hm)
      rw [List.filter_cons_of_neg (by simpa using hnot)]
      exact filter_contains_of_sublist htail hts
    · have hrest : (ts.filter fun u => (t.name :: rest).contains u.name) =
          ts.filter fun u => rest.contains u.name := by
        refine List.filter_congr fun u hu => ?_
        have hne : u.name ≠ t.name := fun e => ht (e ▸ List.mem_map_of_mem hu)
        simp [hne]
      rw [List.filter_cons_of_pos (by simp), hrest, List.map_cons]
      exact congrArg (t.name :: ·) (filter_contains_of_sublist htail hts)

section

variable (h : resolve d layout groupings schema = .ok o) (hd : d.IsIndexed)
  (hn : (schema.tables.map Table.name).Nodup)

include h hd hn

theorem map_name_tablesIn (path : String) :
    (o.tablesIn schema path).map Table.name = o.tablesOf path :=
  filter_contains_of_sublist (tablesOf_sublist h hd path) hn

/-- **The owned tables are found in the schema**, in its order. -/
theorem tablesNamed_tablesOf (node path : String) :
    CompiledDiagram.tablesNamed schema node (o.tablesOf path) =
      .ok (o.tablesIn schema path) := by
  rw [← map_name_tablesIn h hd hn path]
  exact tablesNamed_map node hn fun t ht => (mem_tablesIn.mp ht).1

end

end EntityLayout.Ownership
