/-
# Compiled diagrams survive being written

The file of a compiled diagram is read back from its text as it was.  What can stand in the
way is the room that the format has: numbers of 64 bits, and 127 levels of nesting.  A
structure begins four levels deep, and each attribute takes a level for itself and one for
the list of its parts, which leaves room for 62 attributes one inside the other.

* `Attribute.reads`, `Decision.reads`, `NodeRecord.reads`, `Edge.reads`: the parts of a file.
* `GraphFile.readText_toJson`: reading a file that was written.
-/
import EntityLayout.Document.Compiled
import EntityLayout.Proofs.Attribute
import EntityLayout.Proofs.Json.Reading

namespace EntityLayout

open Json (Reads)

/-! ## 1. Structures -/

theorem AttributeType.IsSpelled.reads {t : AttributeType} (h : t.IsSpelled) :
    Reads AttributeType.reader t.toJson t :=
  .andThen (.string _) (congrArg Except.ok h)

namespace Attribute

/-- The greatest height of an attribute for which the format has room in a structure. -/
def heightLimit : Nat := 62

/-- The format has room for a structure. -/
structure Fit (as : List Attribute) : Prop where
  spelled : ∀ a ∈ as, a.IsSpelled
  height : ∀ a ∈ as, a.height ≤ heightLimit

theorem structuresToJson_eq_map : ∀ as : List Attribute,
    structuresToJson as = as.map structureToJson
  | [] => rfl
  | a :: as => by rw [structuresToJson, structuresToJson_eq_map as, List.map_cons]

mutual

/-- An attribute of a structure is read back, given a level for each of its own. -/
theorem reads : ∀ (depth : Nat) (a : Attribute), a.IsSpelled → a.height ≤ depth →
    Reads (structureReader depth) a.structureToJson a
  | 0, a, _, h => absurd (height_eq a) (by omega)
  | depth + 1, ⟨name, type, primaryKey, discriminator, multivalued, parts⟩, hs, h => by
    rw [IsSpelled] at hs
    rw [height] at h
    have hnames : ["attr_name", "attr_type", "is_multivalued", "is_primary_key",
      "is_discriminator", "sub_attributes"].Nodup := by decide
    refine .andThen (.record ?_ hnames) rfl (a := (name, type, multivalued, primaryKey,
      discriminator, parts, ()))
    rw [List.cons_append, List.cons_append, List.cons_append, List.cons_append,
      List.cons_append, List.nil_append]
    refine .required (.string _) (.required hs.1.reads (.withDefault (.boolean _)
      (.withDefault (.boolean _) (.withDefault (.boolean _) ?_))))
    have hparts := readsAll depth parts hs.2 (Nat.le_of_succ_le_succ h)
    cases parts with
    | nil => exact .absent rfl Json.Fields.written_nil
    | cons p ps => exact .withDefault (.items hparts) Json.Fields.written_nil

theorem readsAll : ∀ (depth : Nat) (as : List Attribute), AreSpelled as → heightOf as ≤ depth →
    List.Forall₂ (Reads (structureReader depth)) (structuresToJson as) as
  | _, [], _, _ => .nil
  | depth, a :: as, hs, h => by
    rw [AreSpelled] at hs
    rw [heightOf, Nat.max_le] at h
    exact .cons (reads depth a hs.1 h.1) (readsAll depth as hs.2 h.2)

end

mutual

/-- An attribute and its parts take two levels each, without the list of no parts. -/
theorem fits_structureToJson : ∀ (n : Nat) (a : Attribute), a.height ≤ n + 1 →
    a.structureToJson.Fits (2 * n + 1)
  | n, ⟨name, type, primaryKey, discriminator, multivalued, parts⟩, h => by
    rw [height] at h
    refine Json.fits_object fun f hf => ?_
    simp only [List.mem_append, List.mem_cons, List.not_mem_nil, or_false] at hf
    rcases hf with (rfl | rfl | rfl | rfl | rfl) | hf
    · exact Json.fits_text _ _
    · exact Json.fits_text _ _
    · exact Json.fits_bool _ _
    · exact Json.fits_bool _ _
    · exact Json.fits_bool _ _
    · split at hf
      · exact absurd hf List.not_mem_nil
      next hparts =>
      obtain ⟨m, rfl⟩ : ∃ m, n = m + 1 := by
        cases parts with
        | nil => exact absurd rfl hparts
        | cons p ps =>
          have := height_eq p
          rw [heightOf] at h
          exact ⟨n - 1, by omega⟩
      rw [List.mem_singleton.mp hf]
      exact (Json.fits_array (fits_structuresToJson m parts (Nat.le_of_succ_le_succ h))).mono
        (by omega)

theorem fits_structuresToJson : ∀ (n : Nat) (as : List Attribute), heightOf as ≤ n + 1 →
    ∀ j ∈ structuresToJson as, j.Fits (2 * n + 1)
  | _, [], _, _, hj => absurd hj List.not_mem_nil
  | n, a :: as, h, j, hj => by
    rw [heightOf, Nat.max_le] at h
    rw [structuresToJson, List.mem_cons] at hj
    rcases hj with rfl | hj
    · exact fits_structureToJson n a h.1
    · exact fits_structuresToJson n as h.2 j hj

end

theorem Fit.reads {as : List Attribute} (h : Fit as) :
    Reads structureFromJson (.array (structuresToJson as)) as :=
  .items (readsAll _ as (areSpelled_iff.mpr h.spelled)
    (Nat.le_trans (heightOf_le.mpr h.height) (by decide)))

theorem Fit.fits_structuresToJson {as : List Attribute} (h : Fit as) :
    (Json.array (structuresToJson as)).Fits 124 :=
  Json.fits_array (Attribute.fits_structuresToJson 61 as (heightOf_le.mpr h.height))

end Attribute

/-! ## 2. Decisions -/

theorem EntityKind.reads (k : EntityKind) : Reads EntityKind.reader (.text k.name) k :=
  .choice (by cases k <;> rfl)

namespace Decision

theorem reads_placement (p : Placement) : Reads Placement.reader (.text p.name) p :=
  .choice (by cases p <;> rfl)

/-- The format has room for the index of the grouping. -/
def Fits (d : Decision) : Prop := ∀ g ∈ d.grouping, g < 0x10000000000000000

theorem reads {d : Decision} (h : d.Fits) : Reads reader d.toJson d := by
  cases d with
  | subclass placement g =>
    have hgrouping : Reads (Json.optional Json.nat64) (Json.orNull .nat g) g := by
      cases g with
      | none => exact .absent
      | some n =>
        exact .present (.natural (Nat.le_of_lt_succ (h n rfl))) (by simp [Json.orNull])
    refine .taggedRecord (v := ?values) rfl ?written (by decide) ?made
    case values => exact (placement, g, ())
    case written =>
      exact .required (reads_placement placement) (.nullable hgrouping Json.Fields.written_nil)
    case made => rfl
  | weak alone g =>
    refine .taggedRecord (v := ?values) rfl ?written (by decide) ?made
    case values => exact (alone, g, ())
    case written =>
      exact .required (.boolean _)
        (.required (.natural (Nat.le_of_lt_succ (h g rfl))) Json.Fields.written_nil)
    case made => rfl

theorem fits_toJson {d : Decision} (h : d.Fits) : d.toJson.Fits 1 := by
  cases d with
  | subclass placement g =>
    refine Json.fits_object fun f hf => ?_
    simp only [List.mem_cons, List.not_mem_nil, or_false] at hf
    rcases hf with rfl | rfl | rfl
    · exact Json.fits_text _ _
    · exact Json.fits_text _ _
    · cases g with
      | none => exact Json.fits_null _
      | some n => exact Json.fits_nat (h n rfl)
  | weak alone g =>
    refine Json.fits_object fun f hf => ?_
    simp only [List.mem_cons, List.not_mem_nil, or_false] at hf
    rcases hf with rfl | rfl | rfl
    · exact Json.fits_text _ _
    · exact Json.fits_bool _ _
    · exact Json.fits_nat (h g rfl)

theorem toJson_ne_null (d : Decision) : d.toJson ≠ .null := by
  cases d <;> simp [toJson]

end Decision

/-! ## 3. Nodes and edges -/

namespace NodeRecord

/-- The format has room for a node, and nothing stands beside it that its kind does not
have. -/
def Fits (r : NodeRecord) : Prop :=
  match r.node with
  | .entity _ => (∀ d ∈ r.decision, d.Fits) ∧ Attribute.Fit r.attributes
  | .relationship _ => r.decision = none ∧ Attribute.Fit r.attributes
  | .attr a => (r.decision = none ∧ r.tables = [] ∧ r.attributes = []) ∧ a.type.IsSpelled

theorem reads {r : NodeRecord} (h : r.Fits) : Reads reader r.toJson r := by
  obtain ⟨n, decision, tables, attributes⟩ := r
  cases n with
  | entity e =>
    simp only [toJson, List.cons_append, List.nil_append, List.append_assoc]
    refine .taggedRecord (v := ?values) rfl ?written (by decide) ?made
    case values =>
      exact (e.name, e.path, e.kind, e.parent, e.attributes, decision, tables, attributes, ())
    case written =>
      exact .required (.string _) (.required (.string _) (.required (EntityKind.reads _)
        (.optional _ (fun s _ => ⟨.string s, by simp⟩) (.required (.texts _)
          (.optional _ (fun d hd => ⟨Decision.reads (h.1 d hd), d.toJson_ne_null⟩)
            (.required (.texts _) (.required h.2.reads Json.Fields.written_nil)))))))
    case made => rfl
  | relationship e =>
    obtain ⟨hdecision, hfit⟩ := h
    obtain rfl : decision = none := hdecision
    simp only [toJson, List.cons_append, List.nil_append]
    refine .taggedRecord (v := ?values) rfl ?written (by decide) ?made
    case values =>
      exact (e.name, e.path, e.first, e.second, e.roles, e.attributes, tables, attributes, ())
    case written =>
      exact .required (.string _) (.required (.string _) (.required (.string _)
        (.required (.string _)
          (.optional _ (fun p _ => ⟨.pair (.string p.1) (.string p.2), by simp [Json.texts]⟩)
            (.required (.texts _) (.required (.texts _)
              (.required hfit.reads Json.Fields.written_nil)))))))
    case made => rfl
  | attr a =>
    obtain ⟨⟨hdecision, htables, hattributes⟩, htype⟩ := h
    obtain rfl : decision = none := hdecision
    obtain rfl : tables = [] := htables
    obtain rfl : attributes = [] := hattributes
    have hchildren : @Json.Fields.Written [List String]
        (.withDefault "sub_attributes" (Json.list Json.string) [], ())
        (if a.children.isEmpty then [] else [("sub_attributes", .texts a.children)])
        (a.children, ()) := by
      cases a.children with
      | nil => exact .absent rfl Json.Fields.written_nil
      | cons c cs => exact .withDefault (.texts _) Json.Fields.written_nil
    simp only [toJson, List.cons_append, List.nil_append]
    refine .taggedRecord (v := ?values) rfl ?written (by decide) ?made
    case values =>
      exact (a.name, a.path, a.type, a.multivalued, a.primaryKey, a.discriminator, a.owner,
        a.parent, a.children, ())
    case written =>
      exact .required (.string _) (.required (.string _) (.required htype.reads
        (.required (.boolean _) (.required (.boolean _) (.required (.boolean _)
          (.required (.string _)
            (.optional _ (fun s _ => ⟨.string s, by simp⟩) hchildren)))))))
    case made => rfl

/-- What stands in a node has room of 124 levels. -/
theorem fits_toJson {r : NodeRecord} (h : r.Fits) : r.toJson.Fits 125 := by
  obtain ⟨n, decision, tables, attributes⟩ := r
  have hdecision : ∀ d ∈ decision, d.toJson.Fits 124 := by
    cases n with
    | entity e => exact fun d hd => (Decision.fits_toJson (h.1 d hd)).mono (by decide)
    | relationship e => rw [show decision = none from h.1]; exact fun d hd => nomatch hd
    | attr a => rw [show decision = none from h.1.1]; exact fun d hd => nomatch hd
  cases n with
  | entity e =>
    refine Json.fits_object fun f hf => ?_
    simp only [List.mem_append, List.mem_cons, List.not_mem_nil, or_false] at hf
    rcases hf with ((((rfl | rfl | rfl | rfl) | hf) | rfl) | hf) | rfl | rfl
    all_goals try exact Json.fits_text _ _
    · exact Json.fits_fieldIfSome (fun _ _ => Json.fits_text _ _) f hf
    · exact Json.fits_texts _ _
    · exact Json.fits_fieldIfSome hdecision f hf
    · exact Json.fits_texts _ _
    · exact h.2.fits_structuresToJson
  | relationship e =>
    refine Json.fits_object fun f hf => ?_
    simp only [List.mem_append, List.mem_cons, List.not_mem_nil, or_false] at hf
    rcases hf with ((rfl | rfl | rfl | rfl | rfl) | hf) | rfl | rfl | rfl
    all_goals try exact Json.fits_text _ _
    · exact Json.fits_fieldIfSome (fun _ _ => Json.fits_texts _ _) f hf
    · exact Json.fits_texts _ _
    · exact Json.fits_texts _ _
    · exact h.2.fits_structuresToJson
  | attr a =>
    refine Json.fits_object fun f hf => ?_
    simp only [List.mem_append, List.mem_cons, List.not_mem_nil, or_false] at hf
    rcases hf with ((rfl | rfl | rfl | rfl | rfl | rfl | rfl | rfl) | hf) | hf
    all_goals try exact Json.fits_text _ _
    all_goals try exact Json.fits_bool _ _
    · exact Json.fits_fieldIfSome (fun _ _ => Json.fits_text _ _) f hf
    · split at hf
      · exact absurd hf List.not_mem_nil
      · rw [List.mem_singleton.mp hf]
        exact Json.fits_texts _ _

end NodeRecord

theorem Edge.reads (e : Edge) : Reads Edge.reader e.toJson e := by
  refine .andThen (.record ?_ (by decide)) rfl (a := (e.kind, e.source, e.target, ()))
  exact .required (.choice (by cases e.kind <;> rfl)) (.required (.string _)
    (.required (.string _) Json.Fields.written_nil))

theorem Edge.fits_toJson (e : Edge) : e.toJson.Fits 1 := Json.fits_object (by simp)

/-! ## 4. Files -/

namespace GraphFile

/-- The format has room for a file. -/
def Fits (f : GraphFile) : Prop := ∀ r ∈ f.nodes, r.Fits

theorem reads {f : GraphFile} (h : f.Fits) : Reads reader f.toJson f := by
  refine .andThen (.record ?_ (by decide)) rfl (a := (f.nodes, f.edges, ()))
  exact .required (.list_map fun r hr => NodeRecord.reads (h r hr))
    (.required (.list_map fun e _ => e.reads) Json.Fields.written_nil)

theorem fits_toJson {f : GraphFile} (h : f.Fits) : f.toJson.Fits Json.nestingLimit := by
  refine Json.fits_object fun g hg => ?_
  simp only [List.mem_cons, List.not_mem_nil, or_false] at hg
  rcases hg with rfl | rfl
  · refine Json.fits_array fun j hj => ?_
    obtain ⟨r, hr, rfl⟩ := List.mem_map.mp hj
    exact NodeRecord.fits_toJson (h r hr)
  · refine Json.fits_array fun j hj => ?_
    obtain ⟨e, -, rfl⟩ := List.mem_map.mp hj
    exact e.fits_toJson.mono (by decide)

/-- **A file is read back from its text.** -/
theorem readText_toJson {f : GraphFile} (h : f.Fits) :
    Json.readText reader f.toJson.pretty = .ok f :=
  Json.readText_pretty (reads h) (fits_toJson h)

end GraphFile

end EntityLayout
