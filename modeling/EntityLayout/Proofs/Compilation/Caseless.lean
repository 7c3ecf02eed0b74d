/-
# The case of letters does not matter

Names may be declared, referred to and grouped in any case of their letters.  A compilation keeps
them as they were declared in its diagram alone; its tables, and what is said of the nodes, are
made of small letters.

* `Compilation.ofDecl_caseless`: **making letters small and compiling commute.**
* `Compilation.SameResults`, `Compilation.sameResults_of_caseless`: inputs that differ in the case
  of letters only fail alike or have the same results.
-/
import EntityLayout.Compilation
import EntityLayout.Proofs.Compilation.Alike

namespace EntityLayout

variable {d d' : Diagram} {layout : Layout} {naming : Naming} {groupings : List Grouping}

/-! ## 1. Passes over nodes in the same order -/

theorem Node.entity?_alike {nodes nodes' : List Node} (h : List.Forall₂ Node.Alike nodes nodes') :
    List.Forall₂ EntityNode.Alike (nodes.filterMap Node.entity?)
      (nodes'.filterMap Node.entity?) := by
  refine List.rel_filterMap (fun n n' hn => ?_) h
  cases hn with
  | entity he => exact .some he
  | relationship _ => exact .none
  | attr _ => exact .none

theorem Diagram.classifyEach_alike (h : d.Alike d') {es es' : List EntityNode}
    (hes : List.Forall₂ EntityNode.Alike es es') : ∀ settled : Layout,
      d.classifyEach groupings es settled = d'.classifyEach groupings es' settled := by
  induction hes with
  | nil => exact fun _ => rfl
  | cons he _ ih =>
    intro settled
    have hdecision : d.decision groupings _ = d'.decision groupings _ := h.decision_eq he
    cases he
    simp only [classifyEach, hdecision, ih]

theorem Ownership.resolveEach_alike {tables : List Table} {nodes nodes' : List Node}
    (hnodes : List.Forall₂ Node.Alike nodes nodes') : ∀ settled : Ownership,
      resolveEach layout groupings tables nodes settled =
        resolveEach layout groupings tables nodes' settled := by
  induction hnodes with
  | nil => exact fun _ => rfl
  | cons hn _ ih =>
    intro settled
    cases hn with
    | entity he =>
      cases he
      exact ih _
    | relationship hr =>
      cases hr
      simp only [resolveEach, ih]
    | attr _ => exact ih settled

theorem Structures.deriveEach_alike (h : d.Alike d') {nodes nodes' : List Node}
    (hnodes : List.Forall₂ Node.Alike nodes nodes') : ∀ known : Structures,
      deriveEach d layout naming nodes known = deriveEach d' layout naming nodes' known := by
  induction hnodes with
  | nil => exact fun _ => rfl
  | cons hn _ ih =>
    intro known
    cases hn with
    | entity he =>
      have hentity : ofEntity d layout naming known _ = ofEntity d' layout naming known _ :=
        ofEntity_alike h he rfl fun _ _ => rfl
      cases he
      simp only [deriveEach, hentity, ih]
    | relationship hr =>
      have hrelationship : ofRelationship d naming known _ = ofRelationship d' naming known _ :=
        ofRelationship_alike h hr fun _ _ _ => ⟨rfl, rfl⟩
      cases hr
      simp only [deriveEach, hrelationship, ih]
    | attr _ => exact ih known

/-! ## 2. Small letters -/

/-- The names of a grouping may be spelled in any case. -/
theorem Grouping.map_ofNames_congr {names names' : List (List String)}
    (h : names.map (List.map Text.asciiLower) = names'.map (List.map Text.asciiLower)) :
    names.map Grouping.ofNames = names'.map Grouping.ofNames := by
  have hsmall : ∀ names : List (List String), names.map Grouping.ofNames =
      (names.map (List.map Text.asciiLower)).map Grouping.ofNames := by
    intro names
    rw [List.map_map]
    refine List.map_congr_left fun ns _ => ?_
    simp [Grouping.ofNames, Function.comp_def]
  rw [hsmall names, h, ← hsmall]

namespace Compilation

/-- The compilation with small letters in the names that its diagram keeps. -/
def caseless (c : Compilation) : Compilation :=
  { c with compiled := { c.compiled with diagram := c.compiled.diagram.caseless } }

/-- **Small letters in all names of a schema change the names that are kept**, and nothing else;
where the compilation fails, the reason is the same. -/
theorem ofDecl_caseless (schema : SchemaDecl) (groupings : List Grouping) (s : Settings) :
    ofDecl schema.caseless groupings s = (ofDecl schema groupings s).map caseless := by
  rw [ofDecl, ofDecl, Diagram.ofDecl_caseless]
  cases Diagram.ofDecl schema with
  | error e => rfl
  | ok d =>
    have hnodes : List.Forall₂ Node.Alike d.nodes d.caseless.nodes :=
      List.forall₂_map_right_iff.mpr (List.forall₂_same.mpr fun n _ => n.alike_caseless)
    have hclassify : d.caseless.classify groupings = d.classify groupings :=
      (Diagram.classifyEach_alike d.alike_caseless (Node.entity?_alike hnodes) _).symm
    have hsynthesize : ∀ layout, synthesize d.caseless layout groupings s.naming =
        synthesize d layout groupings s.naming := fun layout =>
      (synthesize_alike d.alike_caseless (fun _ => rfl) groupings).symm
    have hresolve : ∀ layout tables, Ownership.resolve d.caseless layout groupings tables =
        Ownership.resolve d layout groupings tables := fun layout tables =>
      (Ownership.resolveEach_alike hnodes _).symm
    have hderive : ∀ layout, Structures.derive d.caseless layout s.naming =
        Structures.derive d layout s.naming := fun layout =>
      (Structures.deriveEach_alike d.alike_caseless hnodes _).symm
    simp only [Except.map, Except.mapError, ok_bind, hclassify, hsynthesize, hresolve, hderive]
    cases d.classify groupings with
    | error e => rfl
    | ok layout =>
      simp only [ok_bind]
      cases synthesize d layout groupings s.naming with
      | error e => rfl
      | ok tables =>
        simp only [ok_bind]
        cases Ownership.resolve d layout groupings tables with
        | error e => rfl
        | ok ownership =>
          simp only [ok_bind]
          cases Structures.derive d layout s.naming <;> rfl

/-- The diagram plays no part in queries. -/
theorem queryTexts_caseless (c : Compilation) : ∀ nodes : List String,
    c.caseless.compiled.queryTexts c.schema c.dialect c.validate nodes =
      c.compiled.queryTexts c.schema c.dialect c.validate nodes
  | [] => rfl
  | node :: nodes => by
    rw [CompiledDiagram.queryTexts, CompiledDiagram.queryTexts, queryTexts_caseless c nodes]
    rfl

theorem queries_caseless (c : Compilation) : c.caseless.queries = c.queries :=
  congrArg (·.mapError CompileError.reconstruction)
    (queryTexts_caseless c c.compiled.structures.names)

/-- What two compilations have in common if they differ in the spelling of names at most. -/
structure SameResults (c c' : Compilation) : Prop where
  layout : c.compiled.layout = c'.compiled.layout
  schema : c.schema = c'.schema
  ownership : c.compiled.ownership = c'.compiled.ownership
  structures : c.compiled.structures = c'.compiled.structures
  script : c.script = c'.script
  /-- a node may be asked for in any case, too -/
  queryText : ∀ node node' : String, Text.asciiLower node = Text.asciiLower node' →
    c.queryText node = c'.queryText node'
  queries : c.queries = c'.queries

theorem SameResults.of_caseless {c c' : Compilation} (h : c.caseless = c'.caseless) :
    SameResults c c' where
  layout := congrArg (·.compiled.layout) h
  schema := congrArg (·.schema) h
  ownership := congrArg (·.compiled.ownership) h
  structures := congrArg (·.compiled.structures) h
  script := congrArg (·.script) h
  queryText node node' hnode := by
    have hspelling : c.queryText node = c.queryText node' := by
      simp only [Compilation.queryText, CompiledDiagram.queryText, CompiledDiagram.queryFor,
        Text.lower_congr hnode]
    exact hspelling.trans (congrArg (·.queryText node') h)
  queries := by rw [← queries_caseless c, h, queries_caseless c']

/-- **The case of letters does not matter.**  Where two schemas and their groupings differ in the
case of letters of ASCII only, the compilations fail for the same reason or have the same
results. -/
theorem sameResults_of_caseless {schema schema' : SchemaDecl} {names names' : List (List String)}
    (hschema : schema.caseless = schema'.caseless)
    (hnames : names.map (List.map Text.asciiLower) = names'.map (List.map Text.asciiLower))
    (s : Settings) : Agree SameResults (ofDecl schema (names.map .ofNames) s)
      (ofDecl schema' (names'.map .ofNames) s) := by
  have hsame : (ofDecl schema (names.map .ofNames) s).map caseless =
      (ofDecl schema' (names'.map .ofNames) s).map caseless := by
    rw [Grouping.map_ofNames_congr hnames, ← ofDecl_caseless, hschema, ofDecl_caseless]
  exact (Agree.of_map_eq hsame).mono fun c c' => SameResults.of_caseless

end Compilation

/-! ## 3. An example -/

/-- Shops with an address, in which a street has a Greek name, and the branches they supply. -/
def SchemaDecl.shops : SchemaDecl where
  entities := [
    ⟨"Shop", .regular, none, [⟨"Shop_id", .integer, true, false, false, []⟩,
      ⟨"Address", .composite, false, false, false, [⟨"ΟΔΟΣ-a", .varchar, false, false, false, []⟩,
        ⟨"ΟΔΟΣa", .varchar, false, false, false, []⟩]⟩]⟩,
    ⟨"Branch", .subclass, some "Shop", [⟨"region", .varchar, false, false, false, []⟩]⟩]
  relationships := [⟨"Supplies", ⟨"Shop", some "supplier"⟩, ⟨"Shop", some "Customer_id"⟩, []⟩]

/-- The same shops in other letters; a sigma is still followed by a letter or not. -/
def SchemaDecl.otherShops : SchemaDecl where
  entities := [
    ⟨"SHOP", .regular, none, [⟨"shop_ID", .integer, true, false, false, []⟩,
      ⟨"address", .composite, false, false, false, [⟨"ΟΔΟΣ-A", .varchar, false, false, false, []⟩,
        ⟨"ΟΔΟΣA", .varchar, false, false, false, []⟩]⟩]⟩,
    ⟨"branch", .subclass, some "shoP", [⟨"Region", .varchar, false, false, false, []⟩]⟩]
  relationships := [⟨"SUPPLIES", ⟨"sHOP", some "Supplier"⟩, ⟨"shop", some "CUSTOMER_ID"⟩, []⟩]

/-- Addresses are split where shops are stored, branches stand beside them. -/
def Grouping.ofShops : List (List String) := [
  ["Shop", "Shop.Address.ΟΔΟΣ-a", "Shop.Address.ΟΔΟΣa"], ["Shop", "Branch", "Branch.region"],
  ["Supplies", "Shop", "Shop"]]

/-- The same groupings in other letters. -/
def Grouping.ofOtherShops : List (List String) := [
  ["shop", "SHOP.ADDRESS.ΟΔΟΣ-A", "shop.address.ΟΔΟΣA"], ["SHop", "BRANCH", "branch.REGION"],
  ["supplies", "SHOP", "shop"]]

namespace Compilation

/-- Both spellings give the same tables, in which a sigma that ends a word is a final one. -/
theorem sameResults_shops : ∃ c c',
    ofDecl .shops (Grouping.ofShops.map .ofNames) .standard = .ok c ∧
      ofDecl .otherShops (Grouping.ofOtherShops.map .ofNames) .standard = .ok c' ∧
      SameResults c c' ∧ c.compiled.diagram ≠ c'.compiled.diagram ∧
      c.schema.tables.map (fun t => t.columns.map Column.name) = [
        ["shop_id", "address__οδος-a", "address__οδοσa"], ["shop_id", "region"],
        ["supplier_id", "customer_id"]] := by
  have heval : (ofDecl .shops (Grouping.ofShops.map .ofNames) .standard).toOption.any (fun c =>
      decide ((c.compiled.diagram.find? "shop").map Node.name = some "Shop" ∧
        c.schema.tables.map (fun t => t.columns.map Column.name) = [
          ["shop_id", "address__οδος-a", "address__οδοσa"], ["shop_id", "region"],
          ["supplier_id", "customer_id"]])) = true := by decide +kernel
  have heval' : (ofDecl .otherShops (Grouping.ofOtherShops.map .ofNames) .standard).toOption.any
      (fun c => decide ((c.compiled.diagram.find? "shop").map Node.name = some "SHOP")) = true := by
    decide +kernel
  obtain ⟨c, hc, heval⟩ := exists_of_any heval
  obtain ⟨c', hc', heval'⟩ := exists_of_any heval'
  obtain ⟨hname, hcolumns⟩ := of_decide_eq_true heval
  have hname' := of_decide_eq_true heval'
  have hschema : SchemaDecl.shops.caseless = SchemaDecl.otherShops.caseless := by decide +kernel
  have hnames : Grouping.ofShops.map (List.map Text.asciiLower) =
      Grouping.ofOtherShops.map (List.map Text.asciiLower) := by decide +kernel
  have hagree := sameResults_of_caseless hschema hnames .standard
  rw [hc, hc'] at hagree
  cases hagree with
  | ok hsame =>
    refine ⟨c, c', hc, hc', hsame, fun hdiagram => ?_, hcolumns⟩
    rw [hdiagram, hname'] at hname
    exact absurd hname (by decide)

end Compilation

end EntityLayout
