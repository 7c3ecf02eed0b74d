/-
# Relationships whose keys cannot be told apart

The structure of a relationship begins with the keys of its two ends.  If both begin with one name,
each is called after its side instead.  That is of no use where the sides are called the same, and it
is not done for weak entities, which are identified by more than one attribute: then the relationship
has no structure.

* `Structures.KeysClash`: when the keys cannot be told apart.
* `Structures.Combines`: what becomes of a relationship, given the structures of its ends.
* `Structures.Reaches`: what is known when it is a node's turn.
* `Structures.settlesKeys_ofDecl`: **clashes are refused, and no others**, one relationship at a time
  and when all structures are derived.
-/
import EntityLayout.Proofs.Compilation.Sides
import EntityLayout.Proofs.Structure.Inheritance

namespace EntityLayout

/-- The declared attributes of a relationship, as queries see them. -/
def RelationshipDecl.own (r : RelationshipDecl) : List Attribute :=
  r.attributes.map Attribute.logical

namespace Structures

variable {schema : SchemaDecl} {d : Diagram} {layout : Layout} {naming : Naming}
  {known : Structures} {r : RelationshipDecl} {e e₁ e₂ : EntityDecl} {s₁ s₂ : List Attribute}

/-! ## 1. Clashes -/

/-- The attributes of a structure that identify its entity in a relationship. -/
def keysOf (e : EntityDecl) (s : List Attribute) : List Attribute := s.take (keyCount e.node)

/-- Two structures begin with one name. -/
def BeginAlike (s₁ s₂ : List Attribute) : Prop :=
  s₁.head?.map Attribute.name = s₂.head?.map Attribute.name

instance (s₁ s₂ : List Attribute) : Decidable (BeginAlike s₁ s₂) :=
  inferInstanceAs (Decidable (_ = _))

/-- The keys of the two ends of a relationship cannot be told apart: they begin with one name, and
one end is weak or both sides are called the same. -/
def KeysClash (naming : Naming) (r : RelationshipDecl) (e₁ e₂ : EntityDecl)
    (s₁ s₂ : List Attribute) : Prop :=
  BeginAlike s₁ s₂ ∧
    ((e₁.kind = .weak ∨ e₂.kind = .weak) ∨ (r.sideNames naming).1 = (r.sideNames naming).2)

instance (naming : Naming) (r : RelationshipDecl) (e₁ e₂ : EntityDecl) (s₁ s₂ : List Attribute) :
    Decidable (KeysClash naming r e₁ e₂ s₁ s₂) :=
  inferInstanceAs (Decidable (_ ∧ _))

/-- What is said of keys that cannot be told apart. -/
def clashOf (naming : Naming) (r : RelationshipDecl) (e₁ e₂ : EntityDecl) : KeyClash :=
  if e₁.kind = .weak ∨ e₂.kind = .weak then .weakEndpoint else .sameName (r.sideNames naming).1

/-- **Without roles** it takes a weak entity, or one entity at both ends. -/
theorem keysClash_iff_of_noRoles (hroles : r.roles = none) : KeysClash naming r e₁ e₂ s₁ s₂ ↔
    BeginAlike s₁ s₂ ∧ ((e₁.kind = .weak ∨ e₂.kind = .weak) ∨ r.firstPath = r.secondPath) := by
  have hnames : (r.sideNames naming).1 = (r.sideNames naming).2 ↔ r.firstPath = r.secondPath := by
    rw [RelationshipDecl.sideNames, hroles]
    exact String.append_left_inj _
  rw [KeysClash, hnames]

/-- **What becomes of a relationship** between `e₁` and `e₂`, whose structures are `s₁` and `s₂`. -/
structure Combines (naming : Naming) (r : RelationshipDecl) (e₁ e₂ : EntityDecl)
    (s₁ s₂ : List Attribute) (outcome : Except StructureError (List Attribute)) : Prop where
  /-- it is refused exactly if the keys clash -/
  refused_iff : (∃ node clash, outcome = .error (.unsupported node clash)) ↔
    KeysClash naming r e₁ e₂ s₁ s₂
  /-- the refusal names the relationship and the reason -/
  refused : KeysClash naming r e₁ e₂ s₁ s₂ →
    outcome = .error (.unsupported r.path (clashOf naming r e₁ e₂))
  /-- keys that begin with one name, but do not clash, are called after the sides -/
  renamed : BeginAlike s₁ s₂ → ¬KeysClash naming r e₁ e₂ s₁ s₂ →
    outcome = .ok (renameFirst (r.sideNames naming).1 (keysOf e₁ s₁) ++
      renameFirst (r.sideNames naming).2 (keysOf e₂ s₂) ++ r.own)
  /-- keys that begin with different names stay as they are -/
  unchanged : ¬BeginAlike s₁ s₂ → outcome = .ok (keysOf e₁ s₁ ++ keysOf e₂ s₂ ++ r.own)
  /-- nothing but first names is ever changed, and in the end they differ -/
  distinct : ∀ as, outcome = .ok as → ∃ a b rest₁ rest₂, as = a :: rest₁ ++ b :: rest₂ ++ r.own ∧
    SameButFirstName (a :: rest₁) (keysOf e₁ s₁) ∧ SameButFirstName (b :: rest₂) (keysOf e₂ s₂) ∧
      a.name ≠ b.name

/-! ## 2. One relationship -/

theorem head?_keysOf (e : EntityDecl) (s : List Attribute) : (keysOf e s).head? = s.head? := by
  rw [keysOf, List.head?_take, if_neg (Nat.ne_of_gt (keyCount_pos e.node))]

theorem exists_keysOf_eq (hlen : keyCount e.node ≤ s₁.length) :
    ∃ a rest, keysOf e s₁ = a :: rest := by
  refine List.exists_cons_of_length_pos ?_
  rw [keysOf, List.length_take, Nat.min_eq_left hlen]
  exact keyCount_pos e.node

theorem isWeak_node_or : (e₁.node.isWeak || e₂.node.isWeak) = true ↔
    e₁.kind = .weak ∨ e₂.kind = .weak := by
  rw [Bool.or_eq_true]
  exact or_congr decide_eq_true_iff decide_eq_true_iff

/-- The keys of both sides are found unless they clash. -/
theorem sideKeys_node (hfirst : e₁.path = r.firstPath) (hsecond : e₂.path = r.secondPath) :
    sideKeys naming r.node e₁.node e₂.node (keysOf e₁ s₁) (keysOf e₂ s₂) =
      if BeginAlike s₁ s₂ then
        if KeysClash naming r e₁ e₂ s₁ s₂ then
          .error (.unsupported r.path (clashOf naming r e₁ e₂))
        else .ok (renameFirst (r.sideNames naming).1 (keysOf e₁ s₁),
          renameFirst (r.sideNames naming).2 (keysOf e₂ s₂))
      else .ok (keysOf e₁ s₁, keysOf e₂ s₂) := by
  rw [sideKeys, head?_keysOf, head?_keysOf, RelationshipDecl.sideNames_node hfirst hsecond]
  by_cases halike : BeginAlike s₁ s₂
  · rw [if_pos halike, if_pos (show _ = _ from halike)]
    by_cases hweak : e₁.kind = .weak ∨ e₂.kind = .weak
    · rw [if_pos (isWeak_node_or.mpr hweak), if_pos ⟨halike, .inl hweak⟩, clashOf, if_pos hweak]
      rfl
    · rw [if_neg (isWeak_node_or.not.mpr hweak), clashOf, if_neg hweak]
      dsimp only
      by_cases hnames : (r.sideNames naming).1 = (r.sideNames naming).2
      · rw [if_pos hnames, if_pos ⟨halike, .inr hnames⟩]
        rfl
      · rw [if_neg hnames, if_neg fun hclash => hclash.2.elim hweak hnames]
  · rw [if_neg halike, if_neg (show ¬_ = _ from halike)]

/-- The structures of the two ends are known and have enough attributes. -/
def EndsKnown (known : Structures) (e₁ e₂ : EntityDecl) (s₁ s₂ : List Attribute) : Prop :=
  (known.get? e₁.path = some s₁ ∧ keyCount e₁.node ≤ s₁.length) ∧
    known.get? e₂.path = some s₂ ∧ keyCount e₂.node ≤ s₂.length

section

variable (hschema : schema.IsWellFormed) (hr : r ∈ schema.relationships)
  (hends : schema.diagram.endpoints r.path = .ok (e₁.node, e₂.node))

include hschema hr hends

/-- Where the ends are known, the keys of both sides decide. -/
theorem ofRelationship_eq (hknown : EndsKnown known e₁ e₂ s₁ s₂) :
    ofRelationship schema.diagram naming known r.node =
      sideKeys naming r.node e₁.node e₂.node (keysOf e₁ s₁) (keysOf e₂ s₂) >>= fun keys =>
        .ok (keys.1 ++ keys.2 ++ r.own) := by
  obtain ⟨⟨h₁, hlen₁⟩, h₂, hlen₂⟩ := hknown
  have hleft : known.leading e₁.node.path (keyCount e₁.node) = .ok (keysOf e₁ s₁) :=
    leading_eq_ok.mpr ⟨s₁, h₁, hlen₁, rfl⟩
  have hright : known.leading e₂.node.path (keyCount e₂.node) = .ok (keysOf e₂ s₂) :=
    leading_eq_ok.mpr ⟨s₂, h₂, hlen₂, rfl⟩
  have hown : own schema.diagram r.node.path = .ok r.own := hschema.own_relationship hr
  have hends : schema.diagram.endpoints r.node.path = .ok (e₁.node, e₂.node) := hends
  rw [ofRelationship, hends, liftDiagram_eq_ok.mpr rfl, ok_bind]
  dsimp only
  rw [hleft, liftDiagram_eq_ok.mpr rfl, ok_bind, hright, liftDiagram_eq_ok.mpr rfl, ok_bind, hown]
  rfl

omit hschema hr in
/-- Unless it fails to consult the diagram, the ends are known. -/
theorem exists_endsKnown (hnot : ∀ fault,
    ofRelationship schema.diagram naming known r.node ≠ .error (.diagram fault)) :
    ∃ s₁ s₂, EndsKnown known e₁ e₂ s₁ s₂ := by
  have hends : schema.diagram.endpoints r.node.path = .ok (e₁.node, e₂.node) := hends
  rw [ofRelationship, hends, liftDiagram_eq_ok.mpr rfl, ok_bind] at hnot
  dsimp only at hnot
  cases hleft : known.leading e₁.node.path (keyCount e₁.node) with
  | error fault =>
    rw [hleft] at hnot
    exact absurd rfl (hnot fault)
  | ok left =>
    cases hright : known.leading e₂.node.path (keyCount e₂.node) with
    | error fault =>
      rw [hleft, hright] at hnot
      exact absurd rfl (hnot fault)
    | ok right =>
      obtain ⟨s₁, h₁, hlen₁, -⟩ := leading_eq_ok.mp hleft
      obtain ⟨s₂, h₂, hlen₂, -⟩ := leading_eq_ok.mp hright
      exact ⟨s₁, s₂, ⟨h₁, hlen₁⟩, h₂, hlen₂⟩

/-- **The structures of its ends decide what becomes of a relationship.** -/
theorem combines_ofRelationship (hfirst : e₁.path = r.firstPath) (hsecond : e₂.path = r.secondPath)
    (hknown : EndsKnown known e₁ e₂ s₁ s₂) :
    Combines naming r e₁ e₂ s₁ s₂ (ofRelationship schema.diagram naming known r.node) := by
  obtain ⟨a, rest₁, hleft⟩ := exists_keysOf_eq hknown.1.2
  obtain ⟨b, rest₂, hright⟩ := exists_keysOf_eq hknown.2.2
  rw [ofRelationship_eq hschema hr hends hknown, sideKeys_node hfirst hsecond]
  by_cases halike : BeginAlike s₁ s₂
  · rw [if_pos halike]
    by_cases hclash : KeysClash naming r e₁ e₂ s₁ s₂
    · rw [if_pos hclash]
      exact {
        refused_iff := iff_of_true ⟨_, _, rfl⟩ hclash
        refused := fun _ => rfl
        renamed := fun _ hnot => absurd hclash hnot
        unchanged := fun hnot => absurd halike hnot
        distinct := fun _ has => nomatch has }
    · rw [if_neg hclash]
      refine {
        refused_iff := iff_of_false (fun ⟨_, _, h⟩ => nomatch h) hclash
        refused := fun h => absurd h hclash
        renamed := fun _ _ => rfl
        unchanged := fun hnot => absurd halike hnot
        distinct := fun as has => ?_ }
      obtain rfl := Except.ok.inj has
      rw [hleft, hright]
      -- keys that got one name would have clashed
      exact ⟨_, _, rest₁, rest₂, rfl, .cons a _ rest₁, .cons b _ rest₂,
        fun hnames => hclash ⟨halike, .inr hnames⟩⟩
  · rw [if_neg halike]
    have hclash : ¬KeysClash naming r e₁ e₂ s₁ s₂ := fun h => halike h.1
    refine {
      refused_iff := iff_of_false (fun ⟨_, _, h⟩ => nomatch h) hclash
      refused := fun h => absurd h hclash
      renamed := fun h => absurd h halike
      unchanged := fun _ => rfl
      distinct := fun as has => ?_ }
    obtain rfl := Except.ok.inj has
    refine ⟨a, b, rest₁, rest₂, by rw [hleft, hright], ?_, ?_, fun hnames => halike ?_⟩
    · exact hleft ▸ .refl _
    · exact hright ▸ .refl _
    · rw [BeginAlike, ← head?_keysOf e₁ s₁, ← head?_keysOf e₂ s₂, hleft, hright]
      exact congrArg some hnames

end

/-! ## 3. All structures -/

/-- When all structures are derived, the nodes before this one have the structures `known`. -/
def Reaches (d : Diagram) (layout : Layout) (naming : Naming) (n : Node) (known : Structures) :
    Prop :=
  ∃ before after, d.nodes = before ++ n :: after ∧
    deriveEach d layout naming before .empty = .ok known

theorem deriveEach_append (after : List Node) : ∀ (before : List Node) (known : Structures),
    deriveEach d layout naming (before ++ after) known =
      deriveEach d layout naming before known >>= deriveEach d layout naming after
  | [], _ => rfl
  | .entity e :: before, known => by
    rw [List.cons_append, deriveEach, deriveEach, bind_assoc]
    simp only [deriveEach_append after before]
  | .relationship r :: before, known => by
    rw [List.cons_append, deriveEach, deriveEach, bind_assoc]
    simp only [deriveEach_append after before]
  | .attr a :: before, known => by
    rw [List.cons_append, deriveEach, deriveEach, deriveEach_append after before]

/-- A relationship that is refused when it is its turn is refused for all. -/
theorem derive_eq_error_of_reaches {q : RelationshipNode} {fault : StructureError}
    (hreach : Reaches d layout naming (.relationship q) known)
    (h : ofRelationship d naming known q = .error fault) : derive d layout naming = .error fault := by
  obtain ⟨before, after, hnodes, hbefore⟩ := hreach
  rw [derive, hnodes, deriveEach_append, hbefore, ok_bind, deriveEach, h]
  rfl

/-- **A refusal comes from the relationship that it names**, when it is its turn. -/
theorem exists_reaches_of_refused (hd : d.IsIndexed) {q : RelationshipNode}
    (hq : .relationship q ∈ d.nodes) {clash : KeyClash}
    (h : derive d layout naming = .error (.unsupported q.path clash)) :
    ∃ known, Reaches d layout naming (.relationship q) known ∧
      ofRelationship d naming known q = .error (.unsupported q.path clash) := by
  obtain ⟨before, n, after, known, hnodes, hfills, hrefused⟩ := deriveEach_eq_error h
  have hn : n ∈ d.nodes := hnodes ▸ by simp
  cases n with
  | entity e =>
    obtain ⟨_, -, hfault⟩ := hrefused
    exact nomatch hfault
  | attr a => exact absurd hrefused id
  | relationship q' =>
    have hrefused : ofRelationship d naming known q' = .error (.unsupported q.path clash) := hrefused
    have hpath : q'.path = q.path := by
      obtain ⟨_, -, hfault⟩ | ⟨_, _, _, -, -, hfault⟩ | ⟨_, -, hfault⟩ | ⟨_, hfault⟩ :=
        ofRelationship_eq_error hrefused
      · exact nomatch hfault
      · exact nomatch hfault
      · exact nomatch hfault
      · exact (StructureError.unsupported.inj hfault).1.symm
    obtain rfl := Node.relationship.inj (hd.eq_of_path hn hq hpath)
    exact ⟨known, ⟨before, after, hnodes, deriveEach_eq_ok.mpr hfills⟩, hrefused⟩

/-- The nodes of entities come before those of relationships. -/
theorem entity_mem_before {q : RelationshipNode} {before after : List Node}
    (hnodes : schema.diagram.nodes = before ++ .relationship q :: after) (he : e ∈ schema.entities) :
    .entity e.node ∈ before := by
  have hmem : .entity e.node ∈ schema.entities.flatMap EntityDecl.nodes :=
    Diagram.mem_entityNodes.mpr ⟨e, he, rfl⟩
  have hnot : .relationship q ∉ schema.entities.flatMap EntityDecl.nodes := by
    simp [EntityDecl.nodes]
  rcases List.append_eq_append_iff.mp hnodes with ⟨rest, hbefore, -⟩ | ⟨rest, hentities, hrest⟩
  · exact hbefore ▸ List.mem_append_left _ hmem
  · cases rest with
    | nil => rwa [hentities, List.append_nil] at hmem
    | cons n rest =>
      obtain rfl := (List.cons.inj hrest).1
      exact absurd (hentities ▸ by simp) hnot

/-- When it is a relationship's turn, all entities have structures. -/
theorem exists_get?_of_reaches (hschema : schema.IsWellFormed) {q : RelationshipNode}
    (hreach : Reaches schema.diagram layout naming (.relationship q) known)
    (he : e ∈ schema.entities) : ∃ as, known.get? e.path = some as := by
  obtain ⟨before, after, hnodes, hbefore⟩ := hreach
  have hnodup := hschema.nodup
  rw [hnodes, List.map_append] at hnodup
  obtain ⟨-, -, as, has, -⟩ := (deriveEach_eq_ok.mp hbefore).get?_of_mem
    (List.nodup_append.mp hnodup).1 (entity_mem_before hnodes he)
  exact ⟨as, has⟩

/-- **The keys of a relationship between `e₁` and `e₂` are settled**, under every layout. -/
structure SettlesKeys (d : Diagram) (naming : Naming) (r : RelationshipDecl) (e₁ e₂ : EntityDecl) :
    Prop where
  /-- whatever is known, the structures of the ends decide, if they have enough attributes -/
  combines : ∀ known s₁ s₂, EndsKnown known e₁ e₂ s₁ s₂ →
    Combines naming r e₁ e₂ s₁ s₂ (ofRelationship d naming known r.node)
  /-- the ends have structures when it is the relationship's turn -/
  reached : ∀ layout known, Reaches d layout naming (.relationship r.node) known →
    ∃ s₁ s₂, known.get? e₁.path = some s₁ ∧ known.get? e₂.path = some s₂
  /-- all structures are refused for this one exactly if it is its turn and then its keys clash -/
  refused_iff : ∀ layout, (∃ clash, derive d layout naming = .error (.unsupported r.path clash)) ↔
    ∃ known s₁ s₂, Reaches d layout naming (.relationship r.node) known ∧
      EndsKnown known e₁ e₂ s₁ s₂ ∧ KeysClash naming r e₁ e₂ s₁ s₂
  /-- where all structures are derived, the keys are those of the ends and do not clash -/
  derived : ∀ layout s, derive d layout naming = .ok s → ∃ s₁ s₂ as, EndsKnown s e₁ e₂ s₁ s₂ ∧
    s.get? r.path = some as ∧ Combines naming r e₁ e₂ s₁ s₂ (.ok as)

/-- **The keys of every relationship are settled**, under every naming. -/
theorem settlesKeys_ofDecl (hd : Diagram.ofDecl schema = .ok d) (naming : Naming)
    (hr : r ∈ schema.relationships) : ∃ e₁ ∈ schema.entities, ∃ e₂ ∈ schema.entities,
      e₁.path = r.firstPath ∧ e₂.path = r.secondPath ∧ SettlesKeys d naming r e₁ e₂ := by
  obtain ⟨hschema, rfl⟩ := Diagram.ofDecl_eq_ok.mp hd
  obtain ⟨e₁, he₁, e₂, he₂, hends, hfirst, hsecond⟩ := hschema.exists_ends hr
  have hcombines : ∀ known s₁ s₂, EndsKnown known e₁ e₂ s₁ s₂ →
      Combines naming r e₁ e₂ s₁ s₂ (ofRelationship schema.diagram naming known r.node) :=
    fun _ _ _ => combines_ofRelationship hschema hr hends hfirst hsecond
  refine ⟨e₁, he₁, e₂, he₂, hfirst, hsecond, hcombines, fun layout known hreach => ?_,
    fun layout => ⟨?_, ?_⟩, fun layout s hderive => ?_⟩
  · obtain ⟨s₁, h₁⟩ := exists_get?_of_reaches hschema hreach he₁
    obtain ⟨s₂, h₂⟩ := exists_get?_of_reaches hschema hreach he₂
    exact ⟨s₁, s₂, h₁, h₂⟩
  · rintro ⟨clash, hderive⟩
    obtain ⟨known, hreach, hrefused⟩ := exists_reaches_of_refused hschema.isIndexed
      (SchemaDecl.relationship_mem_nodes hr) hderive
    obtain ⟨s₁, s₂, hknown⟩ := exists_endsKnown hends fun fault h => nomatch h.symm.trans hrefused
    exact ⟨known, s₁, s₂, hreach, hknown,
      (hcombines known s₁ s₂ hknown).refused_iff.mp ⟨_, _, hrefused⟩⟩
  · rintro ⟨known, s₁, s₂, hreach, hknown, hclash⟩
    exact ⟨_, derive_eq_error_of_reaches hreach ((hcombines known s₁ s₂ hknown).refused hclash)⟩
  · obtain ⟨as, hget, hof⟩ := derive_relationship hderive hschema.isIndexed
      (SchemaDecl.relationship_mem_nodes hr)
    obtain ⟨s₁, s₂, hknown⟩ := exists_endsKnown hends fun fault h => nomatch h.symm.trans hof
    exact ⟨s₁, s₂, as, hknown, hget, hof ▸ hcombines s s₁ s₂ hknown⟩

end Structures

/-! ## 4. An example -/

/-- Courses require other courses. -/
def RelationshipDecl.prereq : RelationshipDecl :=
  ⟨"Prereq", ⟨"Course", some "course"⟩, ⟨"Course", some "prereq_course_id"⟩,
    [⟨"Grade", .varchar, false, false, false, []⟩]⟩

/-- Courses offer their sections. -/
def RelationshipDecl.offers : RelationshipDecl := ⟨"Offers", ⟨"Course", none⟩, ⟨"Section", none⟩, []⟩

/-- Courses, with their sections, which begin with the key of the course. -/
def SchemaDecl.curriculum : SchemaDecl where
  entities := [
    ⟨"Course", .regular, none, [⟨"course_id", .integer, true, false, false, []⟩,
      ⟨"title", .varchar, false, false, false, []⟩]⟩,
    ⟨"Section", .weak, some "Course", [⟨"sec_id", .integer, false, true, false, []⟩]⟩]
  relationships := [.prereq, .offers]

/-- Courses and sections begin alike and sections are weak, so it cannot be said which course offers
a section and which one it is a section of. -/
theorem Structures.settlesKeys_curriculum : ∃ d, Diagram.ofDecl .curriculum = .ok d ∧
    derive d .empty .standard = .error (.unsupported "offers" .weakEndpoint) ∧
    ∃ e₁ e₂, SettlesKeys d .standard .offers e₁ e₂ ∧ ∃ known s₁ s₂,
      Reaches d .empty .standard (.relationship RelationshipDecl.offers.node) known ∧
        EndsKnown known e₁ e₂ s₁ s₂ ∧ KeysClash .standard .offers e₁ e₂ s₁ s₂ := by
  have heval : (Diagram.ofDecl .curriculum).toOption.any (fun d =>
      match derive d .empty .standard with
      | .ok _ => false
      | .error fault => decide (fault = .unsupported "offers" .weakEndpoint)) = true := by
    decide +kernel
  obtain ⟨d, hd, hrefused⟩ := exists_of_any heval
  have hderive : derive d .empty .standard = .error (.unsupported "offers" .weakEndpoint) := by
    split at hrefused
    · exact nomatch hrefused
    · next hfault => rw [hfault, of_decide_eq_true hrefused]
  obtain ⟨e₁, -, e₂, -, -, -, hsettles⟩ := settlesKeys_ofDecl hd .standard
    (show .offers ∈ SchemaDecl.curriculum.relationships from List.mem_cons_of_mem _ List.mem_cons_self)
  have hpath : RelationshipDecl.offers.path = "offers" := by decide +kernel
  exact ⟨d, hd, hderive, e₁, e₂, hsettles, (hsettles.refused_iff _).mp ⟨_, hpath ▸ hderive⟩⟩

/-- Where nothing is offered, required courses are told apart by their roles. -/
example : ((Diagram.ofDecl { SchemaDecl.curriculum with relationships := [.prereq] }).toOption.bind
    fun d => (Structures.derive d .empty .standard).toOption.bind
      fun s => (s.get? "prereq").map (·.map Attribute.name)) =
    some ["course_id", "prereq_course_id", "grade"] := by
  decide +kernel

end EntityLayout
