/-
# What was loaded can be saved

A saved diagram need not have been written by a compilation.  Whatever is accepted fits the
format: what was read from a text leaves room for what is written of it.  So the text that is
written for it is accepted again, and gives the same.

* `PhysicalSchema.fits_of_ofText`, `GraphFile.fits_of_readText`: what was read fits.
* `GraphFile.loadNodes_eq_ok`: the nodes are taken over in order, each with what its record
  says.
* `CompiledDiagram.toFile_of_load`: so the file that is written has the records of the file that
  was loaded, and its edges with the paths that they were found under.
* `CompiledDiagram.ofText_resaved`, `PhysicalSchema.ofText_resaved`: **the texts are accepted
  again.**
-/
import EntityLayout.Proofs.Document.Loading
import EntityLayout.Proofs.Document.Schema
import EntityLayout.Proofs.Document.Tables

namespace EntityLayout

open Json (Reader)
open Sql (SqlType)

/-! ## 1. Tables -/

theorem Json.lt_of_nat64 {n k : Nat} (h : nat64.Gives n k) : k < 0x10000000000000000 :=
  Nat.lt_succ_of_le (Reader.Gives.natural h)

theorem Sql.SqlType.levels_of_readerWithin : ∀ {depth n : Nat} {t : SqlType},
    (readerWithin depth).Gives n t → t.HasWidth ∧ t.levels ≤ n
  | 0, _, _, ⟨_, _, _, h⟩ => nomatch h
  | depth + 1, n, t, h => by
    rcases h.variant with hbare | ⟨r, m, hr, rfl, h⟩
    · simp only [List.map_cons, List.map_nil, List.mem_cons, List.not_mem_nil, or_false,
        Json.Alternative.bare.injEq, reduceCtorEq, false_or] at hbare
      rcases hbare with rfl | rfl
      · exact ⟨trivial, Nat.zero_le n⟩
      · exact ⟨trivial, Nat.zero_le n⟩
    · simp only [List.map_cons, List.map_nil, List.mem_cons, List.not_mem_nil, or_false,
        Json.Alternative.holding.injEq, reduceCtorEq, false_or] at hr
      rcases hr with rfl | rfl | rfl
      · obtain ⟨w, hw, h⟩ := h.bind
        obtain rfl := pure_eq_ok.mp h
        exact ⟨Nat.lt_succ_of_le (Reader.Gives.natural hw), Nat.le_add_left 1 m⟩
      · obtain ⟨name, -, h⟩ := h.bind
        obtain rfl := pure_eq_ok.mp h
        exact ⟨trivial, Nat.le_add_left 1 m⟩
      · obtain ⟨item, hitem, h⟩ := h.bind
        obtain rfl := pure_eq_ok.mp h
        obtain ⟨hwidth, hlevels⟩ := levels_of_readerWithin hitem
        exact ⟨hwidth, Nat.succ_le_succ hlevels⟩

/-- A column type that stands five levels deep in a text fits. -/
theorem Sql.SqlType.fits_of_reader {t : SqlType} (h : reader.Gives 122 t) : t.Fits :=
  ⟨(levels_of_readerWithin h).1, (levels_of_readerWithin h).2⟩

theorem Table.fits_of_reader {t : Table} (h : reader.Gives 125 t) : t.Fits := by
  obtain ⟨⟨name, grouping, columns, ⟨⟩⟩, hrecord, h⟩ := h.bind
  obtain rfl := pure_eq_ok.mp h
  obtain ⟨-, ⟨⟩, -, hgrouping, hcolumns, -⟩ := hrecord.record
  refine ⟨Json.lt_of_nat64 hgrouping.read, fun c hc => ?_⟩
  obtain ⟨-, ⟨⟩, hc⟩ := hcolumns.read.list c hc
  obtain ⟨⟨name, type, source, form, flattenedFrom, ⟨⟩⟩, hrecord, h⟩ := hc.bind
  obtain rfl := pure_eq_ok.mp h
  obtain ⟨-, ⟨⟩, -, htype, -⟩ := hrecord.record
  exact SqlType.fits_of_reader htype.read

theorem CompositeType.fits_of_reader {t : CompositeType} (h : reader.Gives 125 t) : t.Fits := by
  obtain ⟨⟨name, fields, ⟨⟩⟩, hrecord, h⟩ := h.bind
  obtain rfl := pure_eq_ok.mp h
  obtain ⟨-, ⟨⟩, -, hfields, -⟩ := hrecord.record
  intro f hf
  obtain ⟨-, ⟨⟩, hf⟩ := hfields.read.list f hf
  obtain ⟨⟨name, type, ⟨⟩⟩, hrecord, h⟩ := hf.bind
  obtain rfl := pure_eq_ok.mp h
  obtain ⟨-, ⟨⟩, -, htype, -⟩ := hrecord.record
  exact SqlType.fits_of_reader htype.read

namespace PhysicalSchema

variable {text : String} {s : PhysicalSchema}

/-- **Tables and types that were read from a text fit.** -/
theorem fits_of_ofText (h : ofText text = .ok s) : s.Fits := by
  obtain ⟨⟨tables, types, ⟨⟩⟩, hrecord, h⟩ := (Json.gives_of_readText h).bind
  obtain rfl := pure_eq_ok.mp h
  obtain ⟨-, ⟨⟩, htables, htypes, -⟩ := hrecord.record
  constructor
  · intro t ht
    obtain ⟨-, ⟨⟩, ht⟩ := htables.read.list t ht
    exact Table.fits_of_reader ht
  · intro e he
    have hmem := Register.mem_of_mem_ofList he
    rcases htypes.readOr with htypes | rfl
    · obtain ⟨-, ⟨⟩, he⟩ := htypes.entries e hmem
      exact CompositeType.fits_of_reader he
    · exact absurd hmem List.not_mem_nil

/-- **What was read from a text is read from the text that is written for it.** -/
theorem ofText_resaved (h : ofText text = .ok s) : ofText s.toText = .ok s :=
  ofText_toText (fits_of_ofText h)

end PhysicalSchema

/-! ## 2. Nodes -/

theorem Decision.fits_of_reader {n : Nat} {made : Decision} (h : reader.Gives n made) :
    made.Fits := by
  obtain ⟨r, hr, h⟩ := h.tagged
  simp only [List.map_cons, List.map_nil, List.mem_cons, List.not_mem_nil, or_false] at hr
  rcases hr with rfl | rfl
  · obtain ⟨⟨placement, grouping, ⟨⟩⟩, hrecord, h⟩ := h.bind
    obtain rfl := pure_eq_ok.mp h
    obtain ⟨m, -, -, hgrouping, -⟩ := hrecord.record
    exact fun g hg => Json.lt_of_nat64 (hgrouping.readIfNotNull g hg)
  · obtain ⟨⟨alone, grouping, ⟨⟩⟩, hrecord, h⟩ := h.bind
    obtain rfl := pure_eq_ok.mp h
    obtain ⟨m, -, -, hgrouping, -⟩ := hrecord.record
    intro g hg
    obtain rfl := Option.some.inj hg
    exact Json.lt_of_nat64 hgrouping.read

/-- A node that stands two levels deep in a text fits, and its structure three levels deep. -/
theorem NodeRecord.fits_of_reader {r : NodeRecord} (h : reader.Gives 125 r) : r.Fits := by
  obtain ⟨rd, hrd, h⟩ := h.tagged
  simp only [List.map_cons, List.map_nil, List.mem_cons, List.not_mem_nil, or_false] at hrd
  rcases hrd with rfl | rfl | rfl
  · obtain ⟨⟨name, path, kind, parent, attributes, decision, tables, structured, ⟨⟩⟩, hrecord, h⟩ :=
      h.bind
    obtain rfl := pure_eq_ok.mp h
    obtain ⟨-, ⟨⟩, -, -, -, -, -, hdecision, -, hstructured, -⟩ := hrecord.record
    exact ⟨fun made hmade => Decision.fits_of_reader (hdecision.readIfSome made hmade),
      Attribute.fit_of_structureFromJson hstructured.read⟩
  · obtain ⟨⟨name, path, first, second, roles, attributes, tables, structured, ⟨⟩⟩, hrecord, h⟩ :=
      h.bind
    obtain rfl := pure_eq_ok.mp h
    obtain ⟨-, ⟨⟩, -, -, -, -, -, -, -, hstructured, -⟩ := hrecord.record
    exact ⟨rfl, Attribute.fit_of_structureFromJson hstructured.read⟩
  · obtain ⟨⟨name, path, type, multivalued, primaryKey, discriminator, owner, parent, children,
      ⟨⟩⟩, hrecord, h⟩ := h.bind
    obtain rfl := pure_eq_ok.mp h
    obtain ⟨m, -, -, -, htype, -⟩ := hrecord.record
    exact ⟨⟨rfl, rfl, rfl⟩, AttributeType.isSpelled_of_reader htype.read⟩

/-- **A file that was read from a text fits.** -/
theorem GraphFile.fits_of_readText {text : String} {f : GraphFile}
    (h : Json.readText GraphFile.reader text = .ok f) : f.Fits := by
  obtain ⟨⟨nodes, edges, ⟨⟩⟩, hrecord, h⟩ := (Json.gives_of_readText h).bind
  obtain rfl := pure_eq_ok.mp h
  obtain ⟨-, ⟨⟩, hnodes, -⟩ := hrecord.record
  intro r hr
  obtain ⟨-, ⟨⟩, hr⟩ := hnodes.read.list r hr
  exact NodeRecord.fits_of_reader hr

/-! ## 3. Loading -/

/-- What goes into a register for a node: nothing for an attribute. -/
def NodeRecord.held {α : Type} (r : NodeRecord) (o : Option α) : Option α :=
  if r.node.isOwner then o else none

namespace GraphFile

open Register (Fills)

variable {r : NodeRecord} {rs : List NodeRecord} {c c' : CompiledDiagram}

/-- From `c` to `c'`, records were taken over in order. -/
structure Takes (c : CompiledDiagram) (rs : List NodeRecord) (c' : CompiledDiagram) : Prop where
  diagram : c'.diagram = ⟨c.diagram.nodes ++ rs.map NodeRecord.node, c.diagram.edges⟩
  nodup : c.diagram.paths.Nodup → c'.diagram.paths.Nodup
  layout : Fills (·.node.path) (fun _ r o => o = r.held r.decision) rs c.layout c'.layout
  ownership : Fills (·.node.path) (fun _ r o => o = r.held (some r.tables)) rs c.ownership
    c'.ownership
  structures : Fills (·.node.path) (fun _ r o => o = r.held (some r.attributes)) rs c.structures
    c'.structures

/-- A record of a new path is taken over, with all that it says. -/
theorem loadNode_eq_ok : loadNode r c = .ok c' ↔ r.node.path ∉ c.diagram.paths ∧
    c' = ⟨⟨c.diagram.nodes ++ [r.node], c.diagram.edges⟩,
      c.layout.extend r.node.path (r.held r.decision),
      c.ownership.extend r.node.path (r.held (some r.tables)),
      c.structures.extend r.node.path (r.held (some r.attributes))⟩ := by
  obtain ⟨n, decision, tables, attributes⟩ := r
  rw [loadNode]
  split
  · next e hinsert =>
    have htaken : ¬n.path ∉ c.diagram.paths := by
      intro hnew
      rw [Diagram.insertNode_eq_done.mpr ⟨hnew, rfl⟩] at hinsert
      cases hinsert
    simp only [reduceCtorEq, htaken, false_and]
  · next diagram hinsert =>
    obtain ⟨hnew, rfl⟩ := Diagram.insertNode_eq_done.mp hinsert
    rw [Except.ok.injEq, eq_comm, and_iff_right hnew]
    cases n with
    | attr a => rfl
    | entity e => cases decision <;> rfl
    | relationship e => cases decision <;> rfl

/-- **Nodes are taken over in order.** -/
theorem loadNodes_eq_ok : ∀ {rs : List NodeRecord} {c : CompiledDiagram},
    loadNodes rs c = .ok c' → Takes c rs c'
  | [], c, h => by
    obtain rfl := Except.ok.inj h
    exact ⟨by simp, id, rfl, rfl, rfl⟩
  | r :: rs, c, h => by
    obtain ⟨c₁, hfirst, hrest⟩ := bind_eq_ok.mp h
    obtain ⟨hnew, rfl⟩ := loadNode_eq_ok.mp hfirst
    have htakes := loadNodes_eq_ok hrest
    refine ⟨by simpa using htakes.diagram, fun hnodup => htakes.nodup ?_,
      ⟨_, rfl, htakes.layout⟩, ⟨_, rfl, htakes.ownership⟩, ⟨_, rfl, htakes.structures⟩⟩
    rw [Diagram.paths, List.map_append, List.map_singleton, ← List.concat_eq_append]
    exact hnodup.concat hnew

end GraphFile

/-! ## 4. Whole diagrams -/

namespace CompiledDiagram

open GraphFile (Takes)

variable {f : GraphFile} {c : CompiledDiagram} {text : String}

/-- What was recorded is what the record says. -/
theorem record_of_takes {r : NodeRecord} {rs : List NodeRecord} (h : Takes empty rs c)
    (hr : r ∈ rs) (hfits : r.Fits) : c.record r.node = r := by
  have hpaths : (rs.map (·.node.path)).Nodup := by
    have := h.nodup List.nodup_nil
    rw [h.diagram] at this
    simpa [Diagram.paths, empty, Diagram.empty, Function.comp_def] using this
  obtain ⟨-, -, hlayout⟩ := h.layout.get?_of_mem hpaths hr
  obtain ⟨-, -, hownership⟩ := h.ownership.get?_of_mem hpaths hr
  obtain ⟨-, -, hstructures⟩ := h.structures.get?_of_mem hpaths hr
  obtain ⟨n, decision, tables, attributes⟩ := r
  cases n with
  | entity e =>
    rw [record, Ownership.tablesOf]
    exact congr (congr (congrArg _ hlayout) (congrArg (Option.getD · []) hownership))
      (congrArg (Option.getD · []) hstructures)
  | relationship e =>
    rw [record, Ownership.tablesOf, show decision = none from hfits.1]
    exact congr (congrArg _ (congrArg (Option.getD · []) hownership))
      (congrArg (Option.getD · []) hstructures)
  | attr a =>
    -- nothing is kept for attributes, so a record that fits has nothing for them
    obtain ⟨⟨hdecision, htables, hattributes⟩, -⟩ := hfits
    rw [record, show decision = none from hdecision, show tables = [] from htables,
      show attributes = [] from hattributes]

/-- **What is written of a loaded file are its records**, and its edges with the paths that they
were found under. -/
theorem toFile_of_load (hfits : f.Fits) (h : f.load = .ok c) :
    c.toFile = ⟨f.nodes, f.edges.map Edge.lowered⟩ := by
  obtain ⟨c₁, hnodes, -, -, rfl⟩ := GraphFile.load_eq_ok.mp h
  have htakes := GraphFile.loadNodes_eq_ok hnodes
  have hdiagram : c₁.diagram = ⟨f.nodes.map NodeRecord.node, []⟩ := htakes.diagram
  have hrecords : c₁.diagram.nodes.map c₁.record = f.nodes := by
    rw [hdiagram, List.map_map]
    exact (List.map_congr_left fun r hr => record_of_takes htakes hr (hfits r hr)).trans
      (List.map_id _)
  show GraphFile.mk (c₁.diagram.nodes.map c₁.record) (c₁.diagram.edges ++ _) = _
  rw [hrecords, hdiagram]
  rfl

/-- **A loaded file is loaded again from what is written of it.** -/
theorem load_toFile_of_load (hfits : f.Fits) (h : f.load = .ok c) : c.toFile.load = .ok c := by
  rw [toFile_of_load hfits h]
  obtain ⟨c₁, hnodes, hreferences, hends, rfl⟩ := GraphFile.load_eq_ok.mp h
  refine GraphFile.load_eq_ok.mpr
    ⟨c₁, hnodes, hreferences, List.forall_mem_map.mpr fun e he => ?_, ?_⟩
  · obtain ⟨hs, ht⟩ := hends e he
    exact ⟨Diagram.contains_lower.trans hs, Diagram.contains_lower.trans ht⟩
  · simp

/-- **A diagram that was accepted is accepted from the text that is written for it.** -/
theorem ofText_resaved (h : ofText text = .ok c) : ofText c.toText = .ok c := by
  obtain ⟨f, hread, hload⟩ := bind_eq_ok.mp h
  have hfits : f.Fits := GraphFile.fits_of_readText (mapError_eq_ok.mp hread)
  have hfile : c.toFile.Fits := toFile_of_load hfits hload ▸ hfits
  exact ofText_of_load hfile (load_toFile_of_load hfits hload)

end CompiledDiagram

end EntityLayout
