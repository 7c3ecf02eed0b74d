/-
# What columns and attributes are called

A column is called like what follows the first dot in the path of its attribute.  The structure
of the owner calls the attribute by its declared name.  The two are cut out of different texts:
a dot in one of the names moves the cut, and a capital sigma becomes another letter behind the
name of the owner than it does by itself.

* `Path.IsReadBack`: a name that can be read off the path again.
* `Diagram.columnName_eq_iff`: **exactly then the column has the attribute's name**, and exactly
  then reconstruction finds every column of the attribute.
* `Compilation.name_of_sales_person`: a column that no query finds.
-/
import EntityLayout.Proofs.Compilation.Provenance
import EntityLayout.Proofs.Diagram.Declared
import EntityLayout.Proofs.Diagram.Paths
import EntityLayout.Proofs.Text.Sigma

namespace EntityLayout

/-! ## 1. Names in paths -/

namespace Path

/-- Two underscores for a dot make a text longer by as many characters as it has dots. -/
theorem length_separatedBy (path : String) :
    (separatedBy "__" path).toList.length = path.toList.length + path.toList.count '.' := by
  rw [separatedBy, String.toList_ofList]
  induction path.toList with
  | nil => rfl
  | cons c cs ih =>
    rw [List.flatMap_cons, List.length_append, ih, List.length_cons, List.count_cons]
    by_cases hc : c = '.'
    · simp only [isDot, hc, decide_true, if_true, beq_self_eq_true]
      rw [show "__".toList.length = 2 from rfl]
      omega
    · simp only [isDot, hc, decide_false, Bool.false_eq_true, if_false, List.length_singleton,
        beq_eq_false_iff_ne.mpr hc]
      omega

/-- A name can be read off the path of an attribute: there are no dots but the one between the
names, and the name of the owner does not make another letter of a sigma. -/
structure IsReadBack (owner name : String) : Prop where
  above : '.' ∉ owner.toList
  inside : '.' ∉ name.toList
  sigma : Text.opensWithSigma name.toList = true → Text.startsCased owner.toList.reverse = false

variable {owner name : String}

/-- The small form of a name is that behind its owner unless a sigma makes a difference. -/
theorem lowerChars_below_eq_iff :
    Text.lowerChars ('.' :: owner.toList.reverse) name.toList = (Text.lower name).toList ↔
      (Text.opensWithSigma name.toList = true →
        Text.startsCased owner.toList.reverse = false) := by
  rw [Text.toList_lower, Text.lowerChars_eq_iff,
    Text.startsCased_cons_of_ignorable _ Text.isCaseIgnorable_dot]
  rfl

/-- **The column of an attribute has its name exactly if the name can be read off the path.** -/
theorem columnName_below_eq_iff (h : Text.lower owner = owner) :
    Naming.columnName (localPart (below owner name)) = Text.lower name ↔ IsReadBack owner name := by
  by_cases howner : '.' ∈ owner.toList
  · -- what follows the first dot is longer than the name, and so is the column name
    refine iff_of_false (fun heq => ?_) fun hback => hback.above howner
    obtain ⟨front, rest, hsplit, hfront⟩ := List.eq_append_cons_of_mem howner
    have hlocal : (localPart (below owner name)).toList =
        rest ++ '.' :: Text.lowerChars ('.' :: owner.toList.reverse) name.toList := by
      rw [localPart, String.toList_ofList, toList_below h, hsplit, List.append_assoc,
        List.cons_append, afterFirstDot_append_dot hfront]
    have hlength := congrArg (·.toList.length) heq
    simp only [Naming.columnName, length_separatedBy, hlocal, List.length_append, List.length_cons,
      Text.toList_lower, Text.length_lowerChars name.toList [] ('.' :: owner.toList.reverse)]
      at hlength
    omega
  · have hlocal : (localPart (below owner name)).toList =
        Text.lowerChars ('.' :: owner.toList.reverse) name.toList := by
      rw [localPart, String.toList_ofList, toList_below h, afterFirstDot_append_dot howner]
    by_cases hname : '.' ∈ name.toList
    · refine iff_of_false (fun heq => ?_) fun hback => hback.inside hname
      have hlength := congrArg (·.toList.length) heq
      simp only [Naming.columnName, length_separatedBy, hlocal, Text.toList_lower,
        Text.length_lowerChars name.toList [] ('.' :: owner.toList.reverse)] at hlength
      have hdot : 0 < (Text.lowerChars ('.' :: owner.toList.reverse) name.toList).count '.' :=
        List.count_pos_iff.mpr (Text.dot_mem_lowerChars hname)
      omega
    · have hdot : '.' ∉ (localPart (below owner name)).toList :=
        hlocal ▸ Text.dot_notMem_lowerChars hname
      rw [Naming.columnName, separatedBy_of_notMem hdot, ← String.toList_inj, hlocal,
        lowerChars_below_eq_iff]
      exact ⟨fun hsigma => ⟨howner, hname, hsigma⟩, IsReadBack.sigma⟩

end Path

/-! ## 2. Columns of attributes -/

namespace SchemaDecl.IsWellFormed

variable {schema : SchemaDecl} {owner : String} {as : List Attribute} (h : schema.IsWellFormed)
  (howner : schema.Declares owner as)

include h howner

theorem topLevel_eq_ok :
    schema.diagram.topLevel owner = .ok (as.map (Attribute.node owner owner none)) := by
  cases howner with
  | entity he => exact h.topLevel_entity he
  | relationship hr => exact h.topLevel_relationship hr

theorem own_eq_ok : Structures.own schema.diagram owner = .ok (as.map Attribute.logical) := by
  cases howner with
  | entity he => exact h.own_entity he
  | relationship hr => exact h.own_relationship hr

end SchemaDecl.IsWellFormed

/-- Columns are made with the name and the marks of their attribute. -/
theorem Blueprint.hasColumn_of_attributeColumn {b : Blueprint} {only : Bool} {n : AttributeNode}
    {types types' : TypeRegister} {column : Column}
    (h : b.attributeColumn only n types = .ok (some column, types')) : n.HasColumn column := by
  obtain ⟨hcolumn, -⟩ := attributeColumn_eq_ok.mp h
  split at hcolumn
  · exact nomatch hcolumn
  · obtain rfl := Option.some.inj hcolumn
    exact ⟨rfl, rfl, rfl⟩

/-- Reconstruction finds a declared attribute by any of its columns exactly if these have its
name. -/
theorem Attribute.provides_iff {a : Attribute} {owner : String} :
    (∀ tables : List Table, ∀ t ∈ tables, ∀ c ∈ t.columns, (a.node owner owner none).HasColumn c →
      Reconstruction.Provides tables a.logical) ↔
      (a.node owner owner none).columnName = a.logical.name := by
  constructor
  · intro hall
    have hcolumn : (a.node owner owner none).HasColumn
        ⟨(a.node owner owner none).columnName, .integer, (a.node owner owner none).path, .value,
          none⟩ := ⟨rfl, rfl, rfl⟩
    obtain ⟨t, ht, c, hc, hprovides⟩ := hall [⟨"", 0, [_]⟩] _ (List.mem_singleton_self _) _
      (List.mem_singleton_self _) hcolumn
    obtain rfl := List.mem_singleton.mp ht
    obtain rfl := List.mem_singleton.mp hc
    -- an attribute that is no part of another has no columns that are split out of it
    exact hprovides.resolve_right nofun
  · exact fun hname tables t ht c hc hcolumn => ⟨t, ht, c, hc, .inl (hcolumn.name.trans hname)⟩

/-- **The columns of a declared attribute have the name that the attribute has in the structure of
its owner exactly if the name can be read off its path**, and exactly then reconstruction finds
the attribute wherever it has a column. -/
theorem Diagram.columnName_eq_iff {schema : SchemaDecl} {d : Diagram} {owner : String}
    {as : List Attribute} (h : ofDecl schema = .ok d) (howner : schema.Declares owner as) :
    d.topLevel owner = .ok (as.map (Attribute.node owner owner none)) ∧
      Structures.own d owner = .ok (as.map Attribute.logical) ∧
      ∀ a ∈ as,
        (∀ (b : Blueprint) only types column types', b.attributeColumn only
          (a.node owner owner none) types = .ok (some column, types') →
            (column.name = a.logical.name ↔ Path.IsReadBack owner a.name)) ∧
        ((a.node owner owner none).columnName = a.logical.name ↔ Path.IsReadBack owner a.name) ∧
        ((∀ tables : List Table, ∀ t ∈ tables, ∀ c ∈ t.columns,
          (a.node owner owner none).HasColumn c →
            ∃ items, Reconstruction.itemsFor owner tables a.logical = .ok items) ↔
              Path.IsReadBack owner a.name) := by
  obtain ⟨hw, rfl⟩ := ofDecl_eq_ok.mp h
  refine ⟨hw.topLevel_eq_ok howner, hw.own_eq_ok howner, fun a _ => ?_⟩
  have hname : (a.node owner owner none).columnName = a.logical.name ↔
      Path.IsReadBack owner a.name := by
    rw [Attribute.name_logical]
    exact Path.columnName_below_eq_iff howner.lower_path
  refine ⟨fun b only types column types' hcolumn => ?_, hname, ?_⟩
  · rw [(Blueprint.hasColumn_of_attributeColumn hcolumn).name, hname]
  · simp only [Reconstruction.exists_itemsFor_iff, Attribute.provides_iff, hname]

/-! ## 3. Names with dots -/

/-- A person in sales. -/
def EntityDecl.seller : EntityDecl :=
  ⟨"Sales.Person", .regular, none, [⟨"person_id", .integer, true, false, false, []⟩,
    ⟨"name", .varchar, false, false, false, []⟩]⟩

/-- A client, with a name and a total that is called by a capital sigma. -/
def EntityDecl.client : EntityDecl :=
  ⟨"Client", .regular, none, [⟨"client_id", .integer, true, false, false, []⟩,
    ⟨"Name", .varchar, false, false, false, []⟩, ⟨"Σ", .integer, false, false, false, []⟩]⟩

/-- Persons in sales and clients. -/
def SchemaDecl.sales : SchemaDecl := ⟨[.seller, .client], []⟩

/-- Everyone is stored with everything. -/
def Grouping.ofSales : List Grouping := [
  .ofNames ["Sales.Person", "Sales.Person.name"], .ofNames ["Client", "Client.Name", "Client.Σ"]]

/-- Clients: the names of columns and attributes agree for the name, and not for the total. -/
theorem Diagram.columnName_eq_iff_client : ∃ d, ofDecl .sales = .ok d ∧
    SchemaDecl.sales.Declares EntityDecl.client.path EntityDecl.client.attributes ∧
    (Attribute.node "client" "client" none ⟨"Name", .varchar, false, false, false, []⟩).columnName =
      "name" ∧
    (Attribute.node "client" "client" none ⟨"Σ", .integer, false, false, false, []⟩).columnName ≠
      "σ" := by
  have heval : (ofDecl .sales).isOk = true := by decide +kernel
  obtain ⟨d, hd⟩ := exists_of_isOk heval
  have hdeclares : SchemaDecl.sales.Declares EntityDecl.client.path EntityDecl.client.attributes :=
    .entity (List.mem_cons_of_mem _ (List.mem_singleton_self _))
  obtain ⟨-, -, hall⟩ := columnName_eq_iff hd hdeclares
  have hpath : EntityDecl.client.path = "client" := by decide +kernel
  rw [hpath] at hall
  obtain ⟨-, hname, -⟩ := hall ⟨"Name", .varchar, false, false, false, []⟩
    (by simp [EntityDecl.client])
  obtain ⟨-, htotal, -⟩ := hall ⟨"Σ", .integer, false, false, false, []⟩
    (by simp [EntityDecl.client])
  refine ⟨d, hd, hdeclares, ?_, fun heq => ?_⟩
  · rw [hname.mpr ⟨by decide, by decide, by decide +kernel⟩]
    decide +kernel
  · have hback := htotal.mp (heq.trans (by decide +kernel))
    exact absurd (hback.sigma (by decide +kernel)) (by decide +kernel)

/-- **No query finds the names of persons in sales**: they are stored under another name. -/
theorem Compilation.name_of_sales_person : ∃ c t column,
    ofDecl .sales Grouping.ofSales .standard = .ok c ∧ t ∈ c.schema.tables ∧ column ∈ t.columns ∧
      SchemaDecl.sales.Declares "sales.person" EntityDecl.seller.attributes ∧
      Structures.own SchemaDecl.sales.diagram "sales.person" =
        .ok (EntityDecl.seller.attributes.map Attribute.logical) ∧
      (EntityDecl.seller.attributes.map Attribute.logical).map Attribute.name =
        ["person_id", "name"] ∧
      column.source = "sales.person.name" ∧ column.name = "person__name" ∧
      c.compiled.queryFor c.schema "Sales.Person" = .error (.noColumn "sales.person" "name") := by
  have heval : (ofDecl .sales Grouping.ofSales .standard).toOption.any (fun c =>
      decide (c.compiled.queryFor c.schema "Sales.Person" =
        .error (.noColumn "sales.person" "name")) && c.schema.tables.any fun t =>
          t.columns.any fun column => decide
            (column.source = "sales.person.name" ∧ column.name = "person__name")) = true := by
    decide +kernel
  obtain ⟨c, hc, heval⟩ := exists_of_any heval
  obtain ⟨hquery, heval⟩ := Bool.and_eq_true_iff.mp heval
  obtain ⟨t, ht, heval⟩ := List.any_eq_true.mp heval
  obtain ⟨column, hcolumn, heval⟩ := List.any_eq_true.mp heval
  obtain ⟨hsource, hname⟩ := of_decide_eq_true heval
  have hdeclares : SchemaDecl.sales.Declares EntityDecl.seller.path EntityDecl.seller.attributes :=
    .entity List.mem_cons_self
  rw [show EntityDecl.seller.path = "sales.person" by decide +kernel] at hdeclares
  refine ⟨c, t, column, hc, ht, hcolumn, hdeclares, ?_, by decide +kernel, hsource, hname,
    of_decide_eq_true hquery⟩
  have heval' : (Diagram.ofDecl .sales).isOk = true := by decide +kernel
  obtain ⟨d, hd⟩ := exists_of_isOk heval'
  obtain ⟨hw, -⟩ := Diagram.ofDecl_eq_ok.mp hd
  exact hw.own_eq_ok hdeclares

end EntityLayout
