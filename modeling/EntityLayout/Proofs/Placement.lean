/-
# What the layout says

The layout is settled entity by entity, and no decision depends on another one.

* `Diagram.classify_names`: decisions stand in the order of the entities.
* `Diagram.classify_entity`: what is recorded for an entity is the decision for it.
* `Diagram.grouping_lt_of_decision`: a decision names one of the groupings.
* `Diagram.attributes_ne_nil_of_decision`: nothing is decided for an entity without attributes.
* `Diagram.decision_append`, `Diagram.classify_append`: groupings further on change no decision but
  that to stand alone.
* `Diagram.classifyEach_eq_error`, `Diagram.decision_eq_error`: why no layout is settled.
-/
import EntityLayout.Placement
import EntityLayout.Proofs.Diagram.Lookup
import EntityLayout.Proofs.Register

namespace EntityLayout.Diagram

variable {d : Diagram} {groupings : List Grouping} {layout : Layout} {e : EntityNode}

/-! ## 1. Entity by entity -/

theorem classifyEach_eq_ok : ∀ {es : List EntityNode} {settled layout : Layout},
    d.classifyEach groupings es settled = .ok layout ↔
      Register.Fills EntityNode.path (fun _ e o => d.decision groupings e = .ok o) es settled
        layout
  | [], settled, layout => by
    rw [classifyEach, Except.ok.injEq]
    exact eq_comm
  | e :: es, settled, layout => by
    rw [classifyEach, bind_eq_ok]
    refine exists_congr fun o => and_congr_right fun _ => ?_
    cases o with
    | none => exact classifyEach_eq_ok
    | some made => exact classifyEach_eq_ok

theorem map_path_entities (d : Diagram) :
    d.entities.map EntityNode.path = d.nodes.filterMap fun n => n.entity?.map EntityNode.path :=
  List.map_filterMap

theorem mem_entities : e ∈ d.entities ↔ .entity e ∈ d.nodes := Node.mem_filterMap_entity?

theorem entities_sublist : ∀ ns : List Node,
    ((ns.filterMap Node.entity?).map EntityNode.path).Sublist (ns.map Node.path)
  | [] => .slnil
  | .entity e :: ns => (entities_sublist ns).cons_cons e.path
  | .relationship r :: ns => (entities_sublist ns).cons r.path
  | .attr a :: ns => (entities_sublist ns).cons a.path

section

variable (h : d.classify groupings = .ok layout) (hd : d.IsIndexed)

include h hd

/-- Decisions stand in the order of the entities. -/
theorem classify_names : layout.names.Sublist (d.entities.map EntityNode.path) :=
  (classifyEach_eq_ok.mp h).names_sublist (hd.nodup.sublist (entities_sublist d.nodes))

/-- **What is recorded for an entity is the decision for it.** -/
theorem classify_entity (he : .entity e ∈ d.nodes) :
    d.decision groupings e = .ok (layout.get? e.path) := by
  obtain ⟨before, after, hsplit⟩ := List.append_of_mem (mem_entities.mpr he)
  have hfills := classifyEach_eq_ok.mp h
  have hnodup := hd.nodup.sublist (entities_sublist d.nodes)
  rw [show d.nodes.filterMap Node.entity? = before ++ e :: after from hsplit] at hnodup
  rw [hsplit] at hfills
  obtain ⟨settled, -, -, hvalue⟩ := hfills.get? hnodup
  exact hvalue

end

/-! ## 2. Evidence -/

/-- **The evidence for an entity is that of the first grouping that qualifies.** -/
theorem evidence_eq_ok {parent : String} (hp : e.parent = some parent) {found : Option Evidence} :
    d.evidence groupings e = .ok found ↔ ∃ own inherited,
      d.attributesOf e.path = .ok own ∧ d.attributesOf parent = .ok inherited ∧
        match groupings.zipIdx.find? fun g => qualifies e.path parent own g.1 with
        | none => found = none
        | some g => ∃ holds, d.namesRelationship g.1.names = .ok holds ∧
            found = some ⟨g.2, holds, inherited.any fun a => g.1.contains a.path⟩ := by
  simp only [evidence, hp, bind_eq_ok]
  constructor
  · rintro ⟨own, hown, inherited, hinherited, h⟩
    refine ⟨own, inherited, hown, hinherited, ?_⟩
    cases hfind : groupings.zipIdx.find? fun g => qualifies e.path parent own g.1 with
    | none =>
      simp only [hfind] at h
      exact (pure_eq_ok.mp h).symm
    | some g =>
      simp only [hfind, bind_eq_ok] at h
      obtain ⟨holds, hholds, h⟩ := h
      exact ⟨holds, hholds, (pure_eq_ok.mp h).symm⟩
  · rintro ⟨own, inherited, hown, hinherited, h⟩
    refine ⟨own, hown, inherited, hinherited, ?_⟩
    cases hfind : groupings.zipIdx.find? fun g => qualifies e.path parent own g.1 with
    | none =>
      simp only [hfind] at h
      simp only [h, pure_eq_ok]
    | some g =>
      simp only [hfind] at h
      obtain ⟨holds, hholds, rfl⟩ := h
      simp only [hholds, bind_eq_ok]
      exact ⟨holds, rfl, rfl⟩

theorem index_lt_of_evidence {found : Evidence} (h : d.evidence groupings e = .ok (some found)) :
    found.index < groupings.length := by
  cases hp : e.parent with
  | none => simp [evidence, hp] at h
  | some parent =>
    obtain ⟨own, inherited, -, -, h⟩ := (evidence_eq_ok hp).mp h
    cases hfind : groupings.zipIdx.find? fun g => qualifies e.path parent own g.1 with
    | none => simp [hfind] at h
    | some g =>
      simp only [hfind, Option.some.injEq] at h
      obtain ⟨holds, -, rfl⟩ := h
      exact (List.mem_zipIdx' (List.mem_of_find?_eq_some hfind)).1

/-- The evidence for an entity comes from a grouping that qualifies. -/
theorem exists_grouping_of_evidence {found : Evidence}
    (h : d.evidence groupings e = .ok (some found)) : ∃ parent own g, e.parent = some parent ∧
      d.attributesOf e.path = .ok own ∧ groupings[found.index]? = some g ∧
        qualifies e.path parent own g = true := by
  cases hp : e.parent with
  | none => simp [evidence, hp] at h
  | some parent =>
    obtain ⟨own, inherited, hown, -, h⟩ := (evidence_eq_ok hp).mp h
    cases hfind : groupings.zipIdx.find? fun g => qualifies e.path parent own g.1 with
    | none => simp [hfind] at h
    | some g =>
      simp only [hfind, Option.some.injEq] at h
      obtain ⟨holds, -, rfl⟩ := h
      have hqualifies := List.find?_some hfind
      exact ⟨parent, own, g.1, rfl, hown,
        List.mem_zipIdx_iff_getElem?.mp (List.mem_of_find?_eq_some hfind), hqualifies⟩

/-- **Groupings further on do not change the evidence**, unless there was none and one of them
qualifies. -/
theorem evidence_append {further : List Grouping} {found : Option Evidence}
    (h : d.evidence groupings e = .ok found)
    (hnone : found = none → ∀ parent own, e.parent = some parent →
      d.attributesOf e.path = .ok own → ∀ g ∈ further, qualifies e.path parent own g = false) :
    d.evidence (groupings ++ further) e = .ok found := by
  cases hp : e.parent with
  | none => simpa [evidence, hp] using h
  | some parent =>
    obtain ⟨own, inherited, hown, hinherited, h⟩ := (evidence_eq_ok hp).mp h
    refine (evidence_eq_ok hp).mpr ⟨own, inherited, hown, hinherited, ?_⟩
    rw [List.zipIdx_append, List.find?_append]
    cases hfind : groupings.zipIdx.find? fun g => qualifies e.path parent own g.1 with
    | some g => simpa only [hfind, Option.some_or] using h
    | none =>
      simp only [hfind] at h
      have hrest : ((further.zipIdx (0 + groupings.length)).find? fun g =>
          qualifies e.path parent own g.1) = none := by
        refine List.find?_eq_none.mpr fun g hg => ?_
        rw [hnone h parent own hp hown g.1 (List.fst_mem_of_mem_zipIdx hg)]
        exact Bool.false_ne_true
      simpa only [Option.none_or, hrest] using h

/-! ## 3. Decisions -/

/-- What a decision was made from: the evidence for a subclass or weak entity. -/
theorem decision_eq_some {made : Decision} (h : d.decision groupings e = .ok (some made)) :
    (∃ found placement, d.evidence groupings e = .ok found ∧
      placementBy e.path found = .ok placement ∧
        made = .subclass placement (found.map Evidence.index)) ∨
    ∃ found, d.evidence groupings e = .ok (some found) ∧
      made = .weak (!found.holdsParentAttribute) found.index := by
  unfold decision at h
  split at h
  · exact nomatch h
  · obtain ⟨found, hfound, h⟩ := bind_eq_ok.mp h
    obtain ⟨placement, hplacement, h⟩ := bind_eq_ok.mp h
    exact .inl ⟨found, placement, mapError_eq_ok.mp hfound, hplacement,
      (Option.some.inj (pure_eq_ok.mp h)).symm⟩
  · obtain ⟨found, hfound, h⟩ := bind_eq_ok.mp h
    cases found with
    | none => exact absurd h throw_ne_ok
    | some found => exact .inr ⟨found, mapError_eq_ok.mp hfound,
        (Option.some.inj (pure_eq_ok.mp h)).symm⟩

/-- For a subclass it is a placement that is decided on. -/
theorem decision_subclass {o : Option Decision} (h : d.decision groupings e = .ok o)
    (he : e.isSubclass = true) : ∃ placement grouping, o = some (.subclass placement grouping) := by
  have hkind : e.kind = .subclass := of_decide_eq_true he
  rw [decision, hkind] at h
  obtain ⟨found, -, h⟩ := bind_eq_ok.mp h
  obtain ⟨placement, -, h⟩ := bind_eq_ok.mp h
  exact ⟨placement, _, (pure_eq_ok.mp h).symm⟩

/-- Only subclasses are placed. -/
theorem kind_of_placement? {o : Option Decision} {placement : Placement}
    (h : d.decision groupings e = .ok o) (ho : o.bind Decision.placement? = some placement) :
    e.kind = .subclass := by
  obtain ⟨made, rfl, hmade⟩ := Option.bind_eq_some_iff.mp ho
  unfold decision at h
  cases hkind : e.kind with
  | subclass => rfl
  | regular =>
    rw [hkind] at h
    exact nomatch h
  | weak =>
    rw [hkind] at h
    obtain ⟨found, -, h⟩ := bind_eq_ok.mp h
    cases found with
    | none => exact absurd h throw_ne_ok
    | some found =>
      obtain rfl := Option.some.inj (pure_eq_ok.mp h)
      exact nomatch hmade

/-- **A decision names one of the groupings**, if it names any. -/
theorem grouping_lt_of_decision {made : Decision}
    (h : d.decision groupings e = .ok (some made)) :
    ∀ g ∈ made.grouping, g < groupings.length := by
  intro g hg
  rcases decision_eq_some h with ⟨found, placement, hfound, -, rfl⟩ | ⟨found, hfound, rfl⟩
  · obtain ⟨found, rfl, rfl⟩ := Option.map_eq_some_iff.mp hg
    exact index_lt_of_evidence hfound
  · obtain rfl := Option.some.inj hg
    exact index_lt_of_evidence hfound

/-- A subclass that stands alone is placed so. -/
theorem placement?_of_isAlone (h : d.classify groupings = .ok layout) (hd : d.IsIndexed)
    (he : .entity e ∈ d.nodes) (hsub : e.isSubclass = true)
    (halone : layout.isAlone e.path = true) : layout.placement? e.path = some .alone := by
  obtain ⟨placement, grouping, hget⟩ := decision_subclass (classify_entity h hd he) hsub
  rw [Layout.isAlone, hget] at halone
  obtain rfl : placement = .alone := of_decide_eq_true halone
  rw [Layout.placement?, hget]
  rfl

/-- Something is decided for every weak entity and subclass. -/
theorem exists_decision {o : Option Decision} (h : d.decision groupings e = .ok o)
    (he : e.kind ≠ .regular) : ∃ made, o = some made := by
  unfold decision at h
  split at h
  · next hkind => exact absurd hkind he
  · obtain ⟨found, -, h⟩ := bind_eq_ok.mp h
    obtain ⟨placement, -, h⟩ := bind_eq_ok.mp h
    exact ⟨_, (pure_eq_ok.mp h).symm⟩
  · obtain ⟨found, -, h⟩ := bind_eq_ok.mp h
    cases found with
    | none => exact absurd h throw_ne_ok
    | some found => exact ⟨_, (pure_eq_ok.mp h).symm⟩

/-- A weak entity is placed by a grouping that qualifies. -/
theorem exists_grouping_of_weak {o : Option Decision} (h : d.decision groupings e = .ok o)
    (he : e.kind = .weak) : ∃ alone found parent own g, o = some (.weak alone found) ∧
      e.parent = some parent ∧ d.attributesOf e.path = .ok own ∧ groupings[found]? = some g ∧
        qualifies e.path parent own g = true := by
  rw [decision, he] at h
  obtain ⟨found, hfound, h⟩ := bind_eq_ok.mp h
  cases found with
  | none => exact absurd h throw_ne_ok
  | some found =>
    obtain ⟨parent, own, g, hrest⟩ := exists_grouping_of_evidence (mapError_eq_ok.mp hfound)
    exact ⟨_, found.index, parent, own, g, (pure_eq_ok.mp h).symm, hrest⟩

/-- **Groupings further on do not change the decision for an entity**, unless it is a subclass that
stands alone and one of them qualifies. -/
theorem decision_append {further : List Grouping} {o : Option Decision}
    (h : d.decision groupings e = .ok o)
    (halone : o.bind Decision.placement? = some .alone → ∀ parent own, e.parent = some parent →
      d.attributesOf e.path = .ok own → ∀ g ∈ further, qualifies e.path parent own g = false) :
    d.decision (groupings ++ further) e = .ok o := by
  unfold decision at h ⊢
  cases hkind : e.kind with
  | regular => simpa only [hkind] using h
  | subclass =>
    simp only [hkind] at h ⊢
    obtain ⟨found, hfound, h⟩ := bind_eq_ok.mp h
    have hsame := evidence_append (mapError_eq_ok.mp hfound) fun hnone => halone (by
      subst hnone
      rw [← pure_eq_ok.mp h]
      rfl)
    rw [hsame]
    exact h
  | weak =>
    simp only [hkind] at h ⊢
    obtain ⟨found, hfound, h⟩ := bind_eq_ok.mp h
    cases found with
    | none => exact absurd h throw_ne_ok
    | some found =>
      rw [evidence_append (mapError_eq_ok.mp hfound) nofun]
      exact h

theorem classifyEach_congr {groupings' : List Grouping} : ∀ {es : List EntityNode} {layout : Layout},
    (∀ e ∈ es, d.decision groupings e = d.decision groupings' e) →
      d.classifyEach groupings es layout = d.classifyEach groupings' es layout
  | [], _, _ => rfl
  | e :: es, layout, h => by
    rw [classifyEach, classifyEach, h e List.mem_cons_self]
    refine congrArg (d.decision groupings' e >>= ·) (funext fun o => ?_)
    have hrest : ∀ x ∈ es, d.decision groupings x = d.decision groupings' x := fun x hx =>
      h x (List.mem_cons_of_mem _ hx)
    cases o with
    | none => exact classifyEach_congr hrest
    | some made => exact classifyEach_congr hrest

/-- **Groupings further on do not change the layout**, unless one of them qualifies for a subclass
that stands alone. -/
theorem classify_append {further : List Grouping} (h : d.classify groupings = .ok layout)
    (hd : d.IsIndexed) (halone : ∀ e, .entity e ∈ d.nodes →
      layout.placement? e.path = some .alone → ∀ parent own, e.parent = some parent →
        d.attributesOf e.path = .ok own → ∀ g ∈ further, qualifies e.path parent own g = false) :
    d.classify (groupings ++ further) = .ok layout := by
  rw [← h]
  refine classifyEach_congr fun e he => ?_
  have hdecision := classify_entity h hd (mem_entities.mp he)
  rw [hdecision]
  exact decision_append hdecision (halone e (mem_entities.mp he))

/-- An entity whose attributes can be listed has some. -/
theorem attributes_ne_nil_of_attributesOf (hd : d.IsIndexed) (he : .entity e ∈ d.nodes)
    {as : List AttributeNode} (h : d.attributesOf e.path = .ok as) : e.attributes ≠ [] := by
  obtain ⟨q, hq, h⟩ := bind_eq_ok.mp h
  have hat : d.entityAt e.path = .ok e := hd.entityAt_eq_ok.mpr ⟨he, (hd.lower_path he).symm⟩
  obtain rfl := Except.ok.inj (hat.symm.trans hq)
  intro hempty
  rw [hempty, List.isEmpty_nil, if_pos rfl] at h
  exact nomatch h

/-- **A subclass or weak entity is placed only if it and its parent have attributes.** -/
theorem attributes_ne_nil_of_decision (hd : d.IsIndexed) {made : Decision}
    (h : d.decision groupings e = .ok (some made)) (he : .entity e ∈ d.nodes) {p : EntityNode}
    (hp : .entity p ∈ d.nodes) (hparent : e.parent = some p.path) :
    e.attributes ≠ [] ∧ p.attributes ≠ [] := by
  obtain ⟨found, hfound⟩ : ∃ found, d.evidence groupings e = .ok found := by
    rcases decision_eq_some h with ⟨found, -, hfound, -⟩ | ⟨found, hfound, -⟩
    · exact ⟨found, hfound⟩
    · exact ⟨some found, hfound⟩
  obtain ⟨own, inherited, hown, hinherited, -⟩ := (evidence_eq_ok hparent).mp hfound
  exact ⟨attributes_ne_nil_of_attributesOf hd he hown,
    attributes_ne_nil_of_attributesOf hd hp hinherited⟩

/-! ## 4. Failures -/

theorem namesRelationship_eq_error {fault : DiagramError} : ∀ {names : List String},
    d.namesRelationship names = .error fault → ∃ name ∈ names, d.nodeAt name = .error fault
  | [], h => nomatch h
  | n :: ns, h => by
    rcases bind_eq_error.mp h with h | ⟨m, -, h⟩
    · exact ⟨n, List.mem_cons_self, h⟩
    · cases m with
      | relationship r => exact nomatch h
      | entity e | attr a =>
        obtain ⟨name, hname, h⟩ := namesRelationship_eq_error h
        exact ⟨name, List.mem_cons_of_mem _ hname, h⟩

/-- No evidence can be had if the attributes of the entity or of its parent cannot be listed, or if
a grouping names what is not there. -/
theorem evidence_eq_error {fault : DiagramError} (h : d.evidence groupings e = .error fault) :
    ∃ parent, e.parent = some parent ∧
      (d.attributesOf e.path = .error fault ∨ d.attributesOf parent = .error fault ∨
        ∃ g ∈ groupings, ∃ name ∈ g.names, d.nodeAt name = .error fault) := by
  cases hp : e.parent with
  | none => simp [evidence, hp] at h
  | some parent =>
    refine ⟨parent, rfl, ?_⟩
    simp only [evidence, hp] at h
    rcases bind_eq_error.mp h with h | ⟨own, -, h⟩
    · exact .inl h
    rcases bind_eq_error.mp h with h | ⟨inherited, -, h⟩
    · exact .inr (.inl h)
    cases hfind : groupings.zipIdx.find? fun g => qualifies e.path parent own g.1 with
    | none =>
      simp only [hfind] at h
      exact nomatch h
    | some g =>
      simp only [hfind] at h
      obtain ⟨name, hname, h⟩ := namesRelationship_eq_error (bind_pure_eq_error.mp h)
      have hg := List.mem_zipIdx' (List.mem_of_find?_eq_some hfind)
      exact .inr (.inr ⟨g.1, hg.2 ▸ List.getElem_mem hg.1, name, hname, h⟩)

theorem decision_eq_error {fault : LayoutError} (h : d.decision groupings e = .error fault) :
    (∃ g, fault = .conflict e.path g) ∨ fault = .missingGrouping e.path ∨
      ∃ f, d.evidence groupings e = .error f ∧ fault = .diagram f := by
  unfold decision at h
  split at h
  · exact nomatch h
  · rcases bind_eq_error.mp h with h | ⟨found, -, h⟩
    · obtain ⟨f, hf, rfl⟩ := mapError_eq_error.mp h
      exact .inr (.inr ⟨f, hf, rfl⟩)
    · have hplacement := bind_pure_eq_error.mp h
      unfold placementBy at hplacement
      split at hplacement
      · exact nomatch hplacement
      · split at hplacement
        · exact .inl ⟨_, (Except.error.inj hplacement).symm⟩
        · exact nomatch hplacement
  · rcases bind_eq_error.mp h with h | ⟨found, -, h⟩
    · obtain ⟨f, hf, rfl⟩ := mapError_eq_error.mp h
      exact .inr (.inr ⟨f, hf, rfl⟩)
    · cases found with
      | none => exact .inr (.inl (throw_eq_error.mp h).symm)
      | some found => exact nomatch h

/-- **No layout is settled if nothing can be decided for one of the entities.** -/
theorem classifyEach_eq_error {fault : LayoutError} : ∀ {es : List EntityNode} {settled : Layout},
    d.classifyEach groupings es settled = .error fault →
      ∃ e ∈ es, d.decision groupings e = .error fault
  | [], _, h => nomatch h
  | e :: es, settled, h => by
    rcases bind_eq_error.mp h with h | ⟨o, -, h⟩
    · exact ⟨e, List.mem_cons_self, h⟩
    · have hrest : ∃ x ∈ es, d.decision groupings x = .error fault := by
        cases o with
        | none => exact classifyEach_eq_error h
        | some made => exact classifyEach_eq_error h
      obtain ⟨x, hx, h⟩ := hrest
      exact ⟨x, List.mem_cons_of_mem _ hx, h⟩

end EntityLayout.Diagram
