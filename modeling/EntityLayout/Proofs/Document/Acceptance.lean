/-
# Which files are loaded

A file need not have been written by a compilation: its nodes may come in any order and refer to
each other in any spelling.  It is loaded iff no two nodes share a path and every reference leads
to a node.

References are looked up in small letters, and nodes stand under the paths that the file gives
them.  A file may give a node a path with capitals: if nothing refers to it, it is loaded, and no
look-up finds it.

* `GraphFile.IsClosed`: no path is taken twice and no reference dangles.
* `GraphFile.IsLoadedAs`: a diagram is what a file says.
* `GraphFile.exists_load_iff`: **closed files are loaded, as what they say, and no others.**
* `Diagram.KeepsNames`: every node is found under its own path.
* `CompiledDiagram.keepsNames_iff`: **a loaded diagram keeps its names iff they are in small
  letters.**
-/
import EntityLayout.Proofs.Diagram.Failures
import EntityLayout.Proofs.Document.Resaving

namespace EntityLayout

/-! ## 1. References -/

namespace Diagram

variable {d : Diagram} {path : String}

/-- A path leads to a node, by what it is in small letters. -/
def Resolves (d : Diagram) (path : String) : Prop :=
  ∃ n ∈ d.nodes, d.nodeAt path = .ok n ∧ n.path = Text.lower path

theorem resolves_iff : d.Resolves path ↔ Text.lower path ∈ d.paths := by
  refine ⟨fun ⟨n, hn, _, hpath⟩ => hpath ▸ path_mem_paths hn, fun h => ?_⟩
  obtain ⟨n, hfound⟩ := Option.isSome_iff_exists.mp (contains_iff.mpr h)
  exact ⟨n, List.mem_of_find?_eq_some hfound, nodeAt_eq_ok.mpr hfound,
    by simpa using List.find?_some hfound⟩

end Diagram

/-! ## 2. Files -/

namespace GraphFile

/-- The paths of the nodes, in order. -/
def paths (f : GraphFile) : List String := f.nodes.map (·.node.path)

/-- No path is taken twice and no reference dangles. -/
structure IsClosed (f : GraphFile) : Prop where
  distinct : f.paths.Nodup
  /-- what a node refers to is, in small letters, the path of a node -/
  references : ∀ r ∈ f.nodes, ∀ p ∈ GraphFile.references r.node, Text.lower p ∈ f.paths
  /-- and so are both ends of an edge -/
  ends : ∀ e ∈ f.edges, Text.lower e.source ∈ f.paths ∧ Text.lower e.target ∈ f.paths

/-- A compiled diagram is what a file says. -/
structure IsLoadedAs (f : GraphFile) (c : CompiledDiagram) : Prop where
  /-- the nodes stand in the order of the file, with all that it says of them -/
  nodes : c.diagram.nodes = f.nodes.map NodeRecord.node
  /-- so do the edges, each between the nodes that its ends lead to -/
  edges : c.diagram.edges = f.edges.map Edge.lowered
  references : ∀ r ∈ f.nodes, ∀ p ∈ GraphFile.references r.node, c.diagram.Resolves p
  ends : ∀ e ∈ f.edges, c.diagram.Resolves e.source ∧ c.diagram.Resolves e.target
  /-- an entity or relationship has the tables of its own record -/
  tables : ∀ r ∈ f.nodes, r.node.isOwner = true → c.ownership.get? r.node.path = some r.tables
  structures : ∀ r ∈ f.nodes, r.node.isOwner = true →
    c.structures.get? r.node.path = some r.attributes
  layout : ∀ r ∈ f.nodes, r.node.isOwner = true → c.layout.get? r.node.path = r.decision
  /-- and nothing is recorded for anything else -/
  others : ∀ p, (∀ r ∈ f.nodes, r.node.isOwner = true → r.node.path ≠ p) →
    c.ownership.get? p = none ∧ c.structures.get? p = none ∧ c.layout.get? p = none

/-! ## 3. Loading -/

section

open Register (Fills)

variable {α : Type} {rs : List NodeRecord} {held : NodeRecord → Option α} {s : Register α}

/-- What a register holds for an entity or relationship is from its own record. -/
theorem get?_of_isOwner (h : Fills (·.node.path) (fun _ r o => o = r.held (held r)) rs .empty s)
    (hn : (rs.map (·.node.path)).Nodup) {r : NodeRecord} (hr : r ∈ rs)
    (howner : r.node.isOwner = true) : s.get? r.node.path = held r := by
  obtain ⟨-, -, hvalue⟩ := h.get?_of_mem hn hr
  rw [hvalue, NodeRecord.held, if_pos howner]

/-- A register holds nothing for what is no entity or relationship. -/
theorem get?_of_forall_ne
    (h : Fills (·.node.path) (fun _ r o => o = r.held (held r)) rs .empty s)
    (hn : (rs.map (·.node.path)).Nodup) {p : String}
    (hp : ∀ r ∈ rs, r.node.isOwner = true → r.node.path ≠ p) : s.get? p = none := by
  by_cases hmem : p ∈ rs.map (·.node.path)
  · obtain ⟨r, hr, rfl⟩ := List.mem_map.mp hmem
    obtain ⟨-, -, hvalue⟩ := h.get?_of_mem hn hr
    rw [hvalue, NodeRecord.held, if_neg fun howner => hp r hr howner rfl]
  · exact h.get?_of_notMem hmem

end

variable {f : GraphFile} {c : CompiledDiagram}

/-- **Records of new paths can be taken over.** -/
theorem exists_loadNodes : ∀ {rs : List NodeRecord} {c : CompiledDiagram},
    (c.diagram.paths ++ rs.map (·.node.path)).Nodup → ∃ c', loadNodes rs c = .ok c'
  | [], c, _ => ⟨c, rfl⟩
  | r :: rs, c, h => by
    have hnew : r.node.path ∉ c.diagram.paths := fun hmem =>
      (List.nodup_append.mp h).2.2 _ hmem _ List.mem_cons_self rfl
    obtain ⟨c₁, hfirst⟩ : ∃ c₁, loadNode r c = .ok c₁ := ⟨_, loadNode_eq_ok.mpr ⟨hnew, rfl⟩⟩
    have hpaths : c₁.diagram.paths = c.diagram.paths ++ [r.node.path] := by
      obtain ⟨-, rfl⟩ := loadNode_eq_ok.mp hfirst
      rw [Diagram.paths, List.map_append]
      rfl
    obtain ⟨c', hrest⟩ : ∃ c', loadNodes rs c₁ = .ok c' :=
      exists_loadNodes (by rw [hpaths]; simpa using h)
    exact ⟨c', bind_eq_ok.mpr ⟨c₁, hfirst, hrest⟩⟩

theorem paths_of_takes (h : Takes .empty f.nodes c) : c.diagram.paths = f.paths := by
  rw [h.diagram, Diagram.paths, paths, List.map_append, List.map_map]
  rfl

/-- The nodes of a file can be taken over iff no two share a path. -/
theorem exists_takes_iff : (∃ c, loadNodes f.nodes .empty = .ok c) ↔ f.paths.Nodup := by
  refine ⟨fun ⟨c, h⟩ => ?_, fun h => exists_loadNodes h⟩
  have htakes := loadNodes_eq_ok h
  exact paths_of_takes htakes ▸ htakes.nodup List.nodup_nil

/-- What a loaded file refers to is there. -/
theorem isClosed_of_load (h : f.load = .ok c) : f.IsClosed := by
  obtain ⟨c₁, hnodes, hreferences, hends, rfl⟩ := load_eq_ok.mp h
  have htakes := loadNodes_eq_ok hnodes
  have hpaths := paths_of_takes htakes
  rw [checkReferences_eq_ok, hpaths, htakes.diagram] at hreferences
  refine ⟨exists_takes_iff.mp ⟨c₁, hnodes⟩, fun r hr => ?_, fun e he => ?_⟩
  · exact hreferences _ (List.mem_append_right _ (List.mem_map_of_mem hr))
  · simpa only [Diagram.contains_iff, hpaths] using hends e he

/-- A closed file is loaded. -/
theorem exists_load_of_isClosed (h : f.IsClosed) : ∃ c, f.load = .ok c := by
  obtain ⟨c₁, hnodes⟩ := exists_takes_iff.mpr h.distinct
  have htakes := loadNodes_eq_ok hnodes
  have hpaths := paths_of_takes htakes
  refine ⟨_, load_eq_ok.mpr ⟨c₁, hnodes, checkReferences_eq_ok.mpr fun n hn => ?_,
    fun e he => ?_, rfl⟩⟩
  · rw [htakes.diagram] at hn
    obtain ⟨r, hr, rfl⟩ := List.mem_map.mp (show n ∈ f.nodes.map NodeRecord.node from hn)
    exact hpaths ▸ h.references r hr
  · simpa only [Diagram.contains_iff, hpaths] using h.ends e he

/-- What is loaded is what the file says. -/
theorem isLoadedAs_of_load (h : f.load = .ok c) : f.IsLoadedAs c := by
  have hclosed := isClosed_of_load h
  obtain ⟨c₁, hnodes, -, -, rfl⟩ := load_eq_ok.mp h
  have htakes := loadNodes_eq_ok hnodes
  have hdiagram : c₁.diagram = ⟨f.nodes.map NodeRecord.node, []⟩ := htakes.diagram
  have hpaths := paths_of_takes htakes
  have hresolves : ∀ p, Text.lower p ∈ f.paths →
      Diagram.Resolves ⟨c₁.diagram.nodes, c₁.diagram.edges ++ f.edges.map Edge.lowered⟩ p :=
    fun p hp => Diagram.resolves_iff.mpr (hpaths ▸ hp)
  exact {
    nodes := congrArg Diagram.nodes hdiagram
    edges := by rw [hdiagram, List.nil_append]
    references := fun r hr p hp => hresolves p (hclosed.references r hr p hp)
    ends := fun e he => (hclosed.ends e he).imp (hresolves _) (hresolves _)
    tables := fun r => get?_of_isOwner htakes.ownership hclosed.distinct
    structures := fun r => get?_of_isOwner htakes.structures hclosed.distinct
    layout := fun r => get?_of_isOwner htakes.layout hclosed.distinct
    others := fun p hp => ⟨get?_of_forall_ne htakes.ownership hclosed.distinct hp,
      get?_of_forall_ne htakes.structures hclosed.distinct hp,
      get?_of_forall_ne htakes.layout hclosed.distinct hp⟩ }

/-- A text that is read as a file is loaded as the file is. -/
theorem ofText_of_readText {text : String} (h : Json.readText reader text = .ok f) :
    CompiledDiagram.ofText text = f.load := by
  have hread : (Json.readText reader text).mapError LoadError.json = .ok f := mapError_eq_ok.mpr h
  rw [CompiledDiagram.ofText, hread, ok_bind]

/-- **Closed files are loaded, as what they say, and no others.**  So it is with a text that is read
as the file. -/
theorem exists_load_iff (f : GraphFile) :
    ((∃ c, f.load = .ok c) ↔ f.IsClosed) ∧ (∀ c, f.load = .ok c → f.IsLoadedAs c) ∧
      ∀ text, Json.readText reader text = .ok f → CompiledDiagram.ofText text = f.load := by
  exact ⟨⟨fun ⟨_, h⟩ => isClosed_of_load h, exists_load_of_isClosed⟩,
    fun _ h => isLoadedAs_of_load h, fun _ h => ofText_of_readText h⟩

/-- An attribute that stands before its owner, each referring to the other in capitals. -/
def byHand : GraphFile where
  nodes := [⟨.attr ⟨"id", "person.id", .integer, false, true, false, "PERSON", none, []⟩,
      none, [], []⟩,
    ⟨.entity ⟨"Person", "person", .regular, none, ["Person.Id"]⟩, some (.weak true 7), ["t"],
      [⟨"id", .integer, true, false, false, []⟩]⟩]
  edges := [⟨.hasAttribute, "Person", "PERSON.ID"⟩]

/-- Its text, each record written as the list of its fields. -/
def textByHand : String :=
  "[[[\"ATTRIBUTE\",\"id\",\"person.id\",\"int\",false,true,false,\"PERSON\"],"
    ++ "[\"ENTITY\",\"Person\",\"person\",\"REGULAR\",null,[\"Person.Id\"],[1,true,7],[\"t\"],"
    ++ "[[\"id\",\"int\",false,true]]]],[[\"ENTITY_ATTRIBUTE\",\"Person\",\"PERSON.ID\"]]]"

theorem isClosed_byHand : byHand.IsClosed := ⟨by decide, by decide +kernel, by decide +kernel⟩

theorem readText_textByHand : Json.readText reader textByHand = .ok byHand := by decide +kernel

theorem exists_load_iff_by_hand : byHand.IsClosed ∧ ∃ c, byHand.load = .ok c ∧
    byHand.IsLoadedAs c ∧ CompiledDiagram.ofText textByHand = .ok c := by
  obtain ⟨hload, hloadedAs, htext⟩ := exists_load_iff byHand
  obtain ⟨c, hc⟩ := hload.mpr isClosed_byHand
  exact ⟨isClosed_byHand, c, hc, hloadedAs c hc, (htext _ readText_textByHand).trans hc⟩

end GraphFile

/-! ## 4. Names -/

namespace Diagram

variable {d : Diagram}

/-- Every node is found under its own path, and no two paths differ in capitals only. -/
structure KeepsNames (d : Diagram) : Prop where
  own : ∀ n ∈ d.nodes, d.nodeAt n.path = .ok n
  apart : (d.paths.map Text.lower).Nodup

/-- Where no two nodes share a path, those in small letters are found. -/
theorem nodeAt_path_iff (h : d.paths.Nodup) {n : Node} (hn : n ∈ d.nodes) :
    d.nodeAt n.path = .ok n ↔ Text.lower n.path = n.path := by
  rw [nodeAt_eq_ok, find?, find?_eq_some_of_nodup h, and_iff_right hn, eq_comm]

/-- **Names are kept iff they are in small letters.** -/
theorem keepsNames_iff_isIndexed : d.KeepsNames ↔ d.IsIndexed := by
  constructor
  · intro h
    have hnodup : d.paths.Nodup := List.Nodup.of_map _ h.apart
    refine ⟨hnodup, fun p hp => ?_⟩
    obtain ⟨n, hn, rfl⟩ := mem_paths.mp hp
    exact (nodeAt_path_iff hnodup hn).mp (h.own n hn)
  · intro h
    refine ⟨fun n hn => (nodeAt_path_iff h.nodup hn).mpr (h.lower_path hn), ?_⟩
    rw [List.map_congr_left h.lowered, List.map_id']
    exact h.nodup

/-- What is referred to is found under its own path. -/
theorem Resolves.nodeAt_path {path : String} (h : d.paths.Nodup) (hpath : d.Resolves path) :
    ∃ n ∈ d.nodes, d.nodeAt path = .ok n ∧ d.nodeAt n.path = .ok n := by
  obtain ⟨n, hn, hat, hlower⟩ := hpath
  exact ⟨n, hn, hat, (nodeAt_path_iff h hn).mpr (by rw [hlower, Text.lower_lower])⟩

end Diagram

namespace CompiledDiagram

/-- **A loaded diagram keeps its names iff they are in small letters.**  No two nodes share a path,
those in small letters are found under their own, and whatever is referred to is among them. -/
theorem keepsNames_iff {text : String} {c : CompiledDiagram} (h : ofText text = .ok c) :
    (c.diagram.KeepsNames ↔ ∀ n ∈ c.diagram.nodes, Text.lower n.path = n.path) ∧
    c.diagram.paths.Nodup ∧
    (∀ n ∈ c.diagram.nodes, c.diagram.nodeAt n.path = .ok n ↔ Text.lower n.path = n.path) ∧
    (∀ m ∈ c.diagram.nodes, ∀ p ∈ GraphFile.references m,
      ∃ n ∈ c.diagram.nodes, c.diagram.nodeAt p = .ok n ∧ c.diagram.nodeAt n.path = .ok n) ∧
    ∀ e ∈ c.diagram.edges, ∀ p ∈ [e.source, e.target],
      ∃ n ∈ c.diagram.nodes, c.diagram.nodeAt p = .ok n ∧ c.diagram.nodeAt n.path = .ok n := by
  obtain ⟨f, -, hload⟩ := bind_eq_ok.mp h
  have hclosed := GraphFile.isClosed_of_load hload
  have hloaded := GraphFile.isLoadedAs_of_load hload
  have hpaths : c.diagram.paths.Nodup := by
    rw [Diagram.paths, hloaded.nodes, List.map_map]
    exact hclosed.distinct
  refine ⟨?_, hpaths, fun n hn => Diagram.nodeAt_path_iff hpaths hn, fun m hm p hp => ?_,
    fun e he p hp => ?_⟩
  · rw [Diagram.keepsNames_iff_isIndexed]
    refine ⟨fun h n hn => h.lower_path hn, fun h => ⟨hpaths, fun p hp => ?_⟩⟩
    obtain ⟨n, hn, rfl⟩ := Diagram.mem_paths.mp hp
    exact h n hn
  · rw [hloaded.nodes] at hm
    obtain ⟨r, hr, rfl⟩ := List.mem_map.mp hm
    exact (hloaded.references r hr p hp).nodeAt_path hpaths
  · rw [hloaded.edges] at he
    obtain ⟨e', he', rfl⟩ := List.mem_map.mp he
    -- the ends of a loaded edge are what its ends in the file are in small letters
    have hlowered : ∀ q, c.diagram.Resolves q → c.diagram.Resolves (Text.lower q) := fun q hq =>
      Diagram.resolves_iff.mpr (by rw [Text.lower_lower]; exact Diagram.resolves_iff.mp hq)
    have hends : ∀ p ∈ [e'.lowered.source, e'.lowered.target], c.diagram.Resolves p := by
      simpa [Edge.lowered] using (hloaded.ends e' he').imp (hlowered _) (hlowered _)
    exact (hends p hp).nodeAt_path hpaths

theorem keepsNames_iff_by_hand : ∃ c, ofText GraphFile.textByHand = .ok c ∧
    c.diagram.paths = ["person.id", "person"] ∧ c.diagram.KeepsNames := by
  obtain ⟨c, hload⟩ := GraphFile.exists_load_of_isClosed GraphFile.isClosed_byHand
  have hc : ofText GraphFile.textByHand = .ok c :=
    (GraphFile.ofText_of_readText GraphFile.readText_textByHand).trans hload
  have hpaths : c.diagram.paths = ["person.id", "person"] := by
    rw [Diagram.paths, (GraphFile.isLoadedAs_of_load hload).nodes]
    rfl
  refine ⟨c, hc, hpaths, (keepsNames_iff hc).1.mpr fun n hn => ?_⟩
  have hmem := hpaths ▸ Diagram.path_mem_paths hn
  exact (by decide +kernel : ∀ p ∈ ["person.id", "person"], Text.lower p = p) _ hmem

/-- The text of a file with one entity, whose path is its name. -/
def textOfPerson : String :=
  "\x7b\"nodes\":[\x7b\"node_type\":\"ENTITY\",\"name\":\"Person\","
    ++ "\"unique_name\":\"Person\",\"entity_type\":\"REGULAR\",\"attributes\":[],"
    ++ "\"tables\":[],\"structure\":[]\x7d],\"edges\":[]\x7d"

/-- **An entity whose path has a capital is loaded and not found under it.** -/
theorem not_keepsNames_person : ∃ c, ofText textOfPerson = .ok c ∧
    c.diagram.nodes = [.entity ⟨"Person", "Person", .regular, none, []⟩] ∧
    c.diagram.nodeAt "Person" = .error (.unknownNode "person") ∧ ¬c.diagram.KeepsNames := by
  have hread : (ofText textOfPerson).toOption.any
      (fun c => c.diagram.nodes = [.entity ⟨"Person", "Person", .regular, none, []⟩]) = true := by
    decide +kernel
  obtain ⟨c, hc, hnodes⟩ := exists_of_any hread
  have hnodes : c.diagram.nodes = [.entity ⟨"Person", "Person", .regular, none, []⟩] := by
    simpa using hnodes
  have hat : c.diagram.nodeAt "Person" = .error (.unknownNode "person") :=
    Diagram.nodeAt_eq_error.mpr (by rw [Diagram.paths, hnodes]; decide +kernel)
  refine ⟨c, hc, hnodes, hat, fun h => ?_⟩
  have hown := h.own _ (hnodes ▸ List.mem_singleton_self _)
  exact nomatch hat.symm.trans hown

end CompiledDiagram

end EntityLayout
