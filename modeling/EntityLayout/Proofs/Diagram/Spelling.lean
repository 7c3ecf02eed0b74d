/-
# Looking up attributes as they are declared

The path of an attribute is made small level by level, and a look-up makes what it is given small
all at once.  The two differ where a name closes with a capital sigma: by itself it has the final
form of the letter, and none if another letter follows behind the dot.

* `Path.ofNames`: the path that declared names lead to.
* `Path.IsSpelledAlike`: no name closes with a sigma that a letter follows.
* `Path.lower_intercalate_eq_iff`: **exactly then the names joined by dots give the path.**
* `SchemaDecl.DeclaresUnder`: an attribute with the declared names of all that is around it.
* `Diagram.nodeAt_intercalate_iff`: **exactly then the attribute is found as it is declared.**
-/
import EntityLayout.Proofs.Diagram.Declared
import EntityLayout.Proofs.Text.Sigma

namespace EntityLayout

/-! ## 1. Names joined by dots -/

namespace Path

/-- The path that names lead to: that of the owner, and each further name below the one before. -/
def ofNames (owner : String) (names : List String) : String :=
  names.foldl below (Text.lower owner)

/-- No name closes with a capital sigma, behind a letter, that another letter follows behind the
dot; what stands before the first name counts, nearest character first. -/
def IsSpelledAlike (before : List Char) : List String → Prop
  | [] => True
  | name :: names =>
    (Text.closesWithSigma before name.toList = true →
      Text.startsCased (".".intercalate names).toList = false) ∧
    IsSpelledAlike ('.' :: (name.toList.reverse ++ before)) names

/-- Names without capital sigmas are spelled alike. -/
theorem isSpelledAlike_of_notMem : ∀ {names : List String} {before : List Char},
    (∀ name ∈ names, 'Σ' ∉ name.toList) → IsSpelledAlike before names
  | [], _, _ => trivial
  | name :: names, before, h => by
    rw [List.forall_mem_cons] at h
    refine ⟨fun hcloses => ?_, isSpelledAlike_of_notMem h.2⟩
    exact nomatch hcloses.symm.trans (Text.closesWithSigma_of_notMem h.1)

/-- Names, each behind a dot. -/
def dotted (names : List String) : List Char := names.flatMap fun name => '.' :: name.toList

theorem dotted_cons (name : String) (names : List String) :
    dotted (name :: names) = '.' :: (name.toList ++ dotted names) := rfl

theorem toList_intercalate : ∀ (names : List String) (first : String),
    (".".intercalate (first :: names)).toList = first.toList ++ dotted names
  | [], first => (List.append_nil _).symm
  | name :: names, first => by
    have hjoin : ".".intercalate (first :: name :: names) =
        ".".intercalate ((first ++ "." ++ name) :: names) := rfl
    rw [hjoin, toList_intercalate names, String.toList_append, String.toList_append, dotted_cons,
      List.append_assoc, List.append_assoc]
    rfl

theorem startsCased_intercalate : ∀ names : List String,
    Text.startsCased (".".intercalate names).toList = Text.startsCased (dotted names)
  | [] => rfl
  | name :: names => by
    rw [toList_intercalate, dotted_cons,
      Text.startsCased_cons_of_ignorable _ Text.isCaseIgnorable_dot]

/-! ## 2. Small letters level by level -/

/-- Names, each behind a dot and made small without what follows it. -/
def eachLowered (before : List Char) : List String → List Char
  | [] => []
  | name :: names =>
    '.' :: (Text.lowerChars ('.' :: before) name.toList ++
      eachLowered (name.toList.reverse ++ '.' :: before) names)

/-- **Level by level, each name is made small without what follows it.** -/
theorem toList_foldl_below : ∀ (names : List String) {path : String} {before : List Char},
    Text.lower path = path → Text.startsCased path.toList.reverse = Text.startsCased before →
      (names.foldl below path).toList = path.toList ++ eachLowered before names
  | [], path, _, _, _ => (List.append_nil _).symm
  | name :: names, path, before, hlower, hbefore => by
    have hdot := Text.startsCased_cons_congr (c := '.') hbefore
    have hbelow : (below path name).toList =
        path.toList ++ '.' :: Text.lowerChars ('.' :: before) name.toList := by
      rw [toList_below hlower, Text.lowerChars_congr hdot]
    -- behind the longer path, too, a name reads the same whether that is in small letters or not
    have hnext : Text.startsCased (below path name).toList.reverse =
        Text.startsCased (name.toList.reverse ++ '.' :: before) := by
      rw [hbelow, List.reverse_append, List.reverse_cons, List.append_assoc,
        List.singleton_append]
      exact Text.startsCased_reverse_lowerChars _ _ hdot
    rw [List.foldl_cons, toList_foldl_below names (lower_below path name) hnext, hbelow, eachLowered,
      List.append_assoc, List.cons_append]

/-- All at once, the names are what they are level by level iff they are spelled alike. -/
theorem lowerChars_dotted_iff : ∀ (names : List String) {name : String} {before : List Char},
    Text.lowerChars before (name.toList ++ dotted names) = Text.lowerChars before name.toList ++
        eachLowered (name.toList.reverse ++ before) names ↔ IsSpelledAlike before (name :: names)
  | [], name, before => by
    rw [Text.lowerChars_append_iff, IsSpelledAlike, startsCased_intercalate]
    exact and_congr_right fun _ => iff_of_true rfl trivial
  | next :: names, name, before => by
    rw [Text.lowerChars_append_iff, IsSpelledAlike, startsCased_intercalate, dotted_cons,
      Text.lowerChars_dot, eachLowered, List.cons_inj_right, lowerChars_dotted_iff names]

/-- **Names joined by dots give the path iff they are spelled alike.** -/
theorem lower_intercalate_eq_iff {owner : String} {names : List String} :
    Text.lower (".".intercalate (owner :: names)) = ofNames owner names ↔
      IsSpelledAlike [] (owner :: names) := by
  have howner : Text.startsCased (Text.lower owner).toList.reverse =
      Text.startsCased (owner.toList.reverse ++ []) := by
    have h := @Text.startsCased_reverse_lowerChars owner.toList [] [] [] rfl
    rwa [List.append_nil, ← Text.toList_lower] at h
  rw [← lowerChars_dotted_iff, ← String.toList_inj, Text.toList_lower, toList_intercalate, ofNames,
    toList_foldl_below names (Text.lower_lower owner) howner, Text.toList_lower]

end Path

/-! ## 3. Declared attributes -/

namespace SchemaDecl

/-- An attribute that the schema declares, at any depth, with the names, as they are declared, of
its owner and of the attributes around it, outermost first. -/
inductive DeclaresUnder (schema : SchemaDecl) : String → List String → Attribute → Prop where
  | entity {e : EntityDecl} {a : Attribute} :
      e ∈ schema.entities → a ∈ e.attributes → DeclaresUnder schema e.name [] a
  | relationship {r : RelationshipDecl} {a : Attribute} :
      r ∈ schema.relationships → a ∈ r.attributes → DeclaresUnder schema r.name [] a
  | part {owner : String} {names : List String} {a b : Attribute} :
      DeclaresUnder schema owner names a → b ∈ a.shownParts →
        DeclaresUnder schema owner (names ++ [a.name]) b

variable {schema : SchemaDecl} {owner : String} {names : List String} {a : Attribute}

/-- The node of an attribute that is declared under names. -/
def nodeUnder (owner : String) (names : List String) (a : Attribute) : AttributeNode :=
  a.node (Path.ofNames owner names) (Text.lower owner)
    (if names.isEmpty then none else some (Path.ofNames owner names))

theorem path_nodeUnder : (nodeUnder owner names a).path = Path.ofNames owner (names ++ [a.name]) := by
  rw [Path.ofNames, List.foldl_append]
  rfl

/-- The names that lead to an attribute lead to its place. -/
theorem DeclaresUnder.declaresAt (h : schema.DeclaresUnder owner names a) :
    schema.DeclaresAt (Path.ofNames owner names) (Text.lower owner)
      (if names.isEmpty then none else some (Path.ofNames owner names)) a := by
  induction h with
  | entity he ha => exact .own (.entity he) ha
  | relationship hr ha => exact .own (.relationship hr) ha
  | @part owner names a b _ hb ih =>
    have hpath : a.pathBelow (Path.ofNames owner names) =
        Path.ofNames owner (names ++ [a.name]) := path_nodeUnder
    have hpart := ih.part hb
    rw [hpath] at hpart
    simpa using hpart

end SchemaDecl

namespace Diagram

open SchemaDecl (nodeUnder)

/-- **A declared attribute is found under the names that it is declared with, joined by dots, iff
they are spelled alike**, and exactly then a grouping that names it so names its node. -/
theorem nodeAt_intercalate_iff {schema : SchemaDecl} {d : Diagram} {owner : String}
    {names : List String} {a : Attribute} (h : ofDecl schema = .ok d)
    (ha : schema.DeclaresUnder owner names a) :
    .attr (nodeUnder owner names a) ∈ d.nodes ∧
      (d.nodeAt (".".intercalate (owner :: (names ++ [a.name]))) =
          .ok (.attr (nodeUnder owner names a)) ↔
        Path.IsSpelledAlike [] (owner :: (names ++ [a.name]))) ∧
      ((Grouping.ofNames [".".intercalate (owner :: (names ++ [a.name]))]).contains
          (nodeUnder owner names a).path = true ↔
        Path.IsSpelledAlike [] (owner :: (names ++ [a.name]))) := by
  obtain ⟨hw, rfl⟩ := ofDecl_eq_ok.mp h
  have hmem : .attr (nodeUnder owner names a) ∈ schema.diagram.nodes := ha.declaresAt.mem_nodes
  have hpath : Node.path (.attr (nodeUnder owner names a)) =
      Path.ofNames owner (names ++ [a.name]) := SchemaDecl.path_nodeUnder
  refine ⟨hmem, ?_, ?_⟩
  · rw [hw.isIndexed.nodeAt_eq_ok, and_iff_right hmem, hpath, ← Path.lower_intercalate_eq_iff,
      eq_comm]
  · rw [← Path.lower_intercalate_eq_iff, SchemaDecl.path_nodeUnder]
    simp [Grouping.contains, Grouping.ofNames, eq_comm]

end Diagram

/-! ## 4. Streets -/

/-- Persons with a composite name. -/
def EntityDecl.resident : EntityDecl :=
  ⟨"Person", .regular, none, [⟨"Name", .composite, false, false, false,
    [⟨"First", .varchar, false, false, false, []⟩]⟩]⟩

/-- Streets with a number, under a name that closes with a capital sigma. -/
def EntityDecl.street : EntityDecl :=
  ⟨"ΟΔΟΣ", .regular, none, [⟨"number", .integer, true, false, false, []⟩]⟩

/-- Persons and streets. -/
def SchemaDecl.town : SchemaDecl := ⟨[.resident, .street], []⟩

namespace Diagram

open SchemaDecl (nodeUnder)

theorem nodeAt_intercalate_iff_resident : ∃ d, ofDecl .town = .ok d ∧
    SchemaDecl.town.DeclaresUnder "Person" ["Name"] ⟨"First", .varchar, false, false, false, []⟩ ∧
    d.nodeAt "Person.Name.First" = .ok (.attr ⟨"First", "person.name.first", .varchar, false,
      false, false, "person", some "person.name", []⟩) := by
  have heval : (ofDecl .town).isOk = true := by decide +kernel
  obtain ⟨d, hd⟩ := exists_of_isOk heval
  have hname : SchemaDecl.town.DeclaresUnder "Person" []
      ⟨"Name", .composite, false, false, false, [⟨"First", .varchar, false, false, false, []⟩]⟩ :=
    .entity (e := .resident) List.mem_cons_self List.mem_cons_self
  have hfirst : SchemaDecl.town.DeclaresUnder "Person" ["Name"]
      ⟨"First", .varchar, false, false, false, []⟩ := hname.part List.mem_cons_self
  obtain ⟨-, hfound, -⟩ := nodeAt_intercalate_iff hd hfirst
  have hspelled : ".".intercalate ("Person" :: (["Name"] ++ ["First"])) = "Person.Name.First" := by
    decide
  have hnode : nodeUnder "Person" ["Name"] ⟨"First", .varchar, false, false, false, []⟩ =
      ⟨"First", "person.name.first", .varchar, false, false, false, "person", some "person.name",
        []⟩ := by decide +kernel
  refine ⟨d, hd, hfirst, ?_⟩
  rw [← hspelled, ← hnode]
  exact hfound.mpr (Path.isSpelledAlike_of_notMem (by decide))

/-- **The number of a street is not found as it is declared**: the sigma is another letter before
a dot and a further letter. -/
theorem nodeAt_street_number : ∃ d, ofDecl .town = .ok d ∧
    SchemaDecl.town.DeclaresUnder "ΟΔΟΣ" [] ⟨"number", .integer, true, false, false, []⟩ ∧
    .attr ⟨"number", "οδος.number", .integer, false, true, false, "οδος", none, []⟩ ∈ d.nodes ∧
    ".".intercalate ["ΟΔΟΣ", "number"] = "ΟΔΟΣ.number" ∧
    d.nodeAt "ΟΔΟΣ.number" = .error (.unknownNode "οδοσ.number") ∧
    (Grouping.ofNames ["ΟΔΟΣ.number"]).contains "οδος.number" = false := by
  have heval : (ofDecl .town).toOption.any (fun d => decide (
      .attr ⟨"number", "οδος.number", .integer, false, true, false, "οδος", none, []⟩ ∈ d.nodes ∧
        d.nodeAt "ΟΔΟΣ.number" = .error (.unknownNode "οδοσ.number"))) = true := by decide +kernel
  obtain ⟨d, hd, heval⟩ := exists_of_any heval
  obtain ⟨hnode, hlookup⟩ := of_decide_eq_true heval
  have hnumber : SchemaDecl.town.DeclaresUnder "ΟΔΟΣ" []
      ⟨"number", .integer, true, false, false, []⟩ :=
    .entity (e := .street) (List.mem_cons_of_mem _ List.mem_cons_self) List.mem_cons_self
  exact ⟨d, hd, hnumber, hnode, by decide, hlookup, by decide +kernel⟩

end Diagram

end EntityLayout
