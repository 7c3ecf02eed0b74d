/-
# What a derived structure is

Structures are derived one after another, each from those before it.  Since no structure is
changed later, in the end every structure is the one that its node has by all structures
together.

* `Structures.derive_names`: the entities and relationships have structures, in order.
* `Structures.derive_entity`, `Structures.derive_relationship`: the equation of a node.
* `Structures.take_names_ofRelationship`: the names of the two keys of a relationship.
* `Structures.derive_forall`: what holds of the declared attributes, whatever their names, holds
  of all attributes of all structures.
-/
import EntityLayout.Proofs.Diagram.Lookup
import EntityLayout.Proofs.Register
import EntityLayout.Structure

namespace EntityLayout.Structures

variable {d : Diagram} {layout : Layout} {naming : Naming} {known known' : Structures}

/-! ## 1. Structures of nodes dealt with before -/

theorem require_eq_ok {path : String} {as : List Attribute} :
    known.require path = .ok as ↔ known.get? path = some as := by
  unfold require
  split
  · next h => simp [h]
  · next h => simp [h]

theorem leading_eq_ok {path : String} {count : Nat} {as : List Attribute} :
    known.leading path count = .ok as ↔
      ∃ s, known.get? path = some s ∧ count ≤ s.length ∧ as = s.take count := by
  rw [leading, bind_eq_ok]
  refine exists_congr fun s => and_congr require_eq_ok ?_
  by_cases h : s.length < count
  · rw [if_pos h]
    exact ⟨fun e => absurd e throw_ne_ok, fun e => absurd e.1 (Nat.not_le.mpr h)⟩
  · rw [if_neg h]
    exact pure_eq_ok.trans ⟨fun e => ⟨Nat.le_of_not_lt h, e.symm⟩, fun e => e.2.symm⟩

theorem require_eq_error {path : String} {fault : DiagramError} :
    known.require path = .error fault ↔ known.get? path = none ∧ .unknownNode path = fault := by
  unfold require
  split
  · next h => simp [h]
  · next h => simp [h]

theorem leading_eq_error {path : String} {count : Nat} {fault : DiagramError} :
    known.leading path count = .error fault ↔
      known.get? path = none ∧ .unknownNode path = fault ∨
        ∃ s, known.get? path = some s ∧ s.length < count ∧
          .misuse path (.tooFewAttributes count s.length) = fault := by
  rw [leading, bind_eq_error, require_eq_error]
  refine or_congr_right (exists_congr fun s => and_congr require_eq_ok ?_)
  by_cases h : s.length < count
  · rw [if_pos h]
    exact (bind_pure_eq_error.trans throw_eq_error).trans (and_iff_right h).symm
  · rw [if_neg h]
    refine ⟨fun e => ?_, fun e => absurd e.1 h⟩
    exact nomatch e

theorem liftDiagram_eq_ok {α : Type} {x : Except DiagramError α} {a : α} :
    liftDiagram x = .ok a ↔ x = .ok a := mapError_eq_ok

/-! ## 2. The structure of an entity -/

/-- The attributes that an entity has besides its own, by the structures that are known. -/
inductive Inherits (layout : Layout) (known : Structures) (e : EntityNode) :
    List Attribute → Prop where
  | regular : e.parent = none → Inherits layout known e []
  | weak {parent : String} {s : List Attribute} {key : Attribute} :
      e.parent = some parent → e.isWeak = true → known.get? parent = some (key :: s) →
        Inherits layout known e [key]
  | subclass {parent : String} {s : List Attribute} :
      e.parent = some parent → e.isWeak = false → known.get? parent = some s →
        Inherits layout known e s

namespace Inherits

variable {e : EntityNode} {inherited : List Attribute} {parent : String}

/-- Without a parent nothing is inherited. -/
theorem iff_of_none (hparent : e.parent = none) :
    Inherits layout known e inherited ↔ inherited = [] := by
  constructor
  · intro h
    cases h with
    | regular => rfl
    | weak hsome => exact nomatch hparent.symm.trans hsome
    | subclass hsome => exact nomatch hparent.symm.trans hsome
  · rintro rfl
    exact .regular hparent

/-- A weak entity inherits the first attribute of its owner. -/
theorem iff_of_weak (hparent : e.parent = some parent) (hweak : e.isWeak = true) :
    Inherits layout known e inherited ↔
      ∃ key s, known.get? parent = some (key :: s) ∧ inherited = [key] := by
  constructor
  · intro h
    cases h with
    | regular hnone => exact nomatch hparent.symm.trans hnone
    | weak hsome _ hs =>
      obtain rfl := Option.some.inj (hparent.symm.trans hsome)
      exact ⟨_, _, hs, rfl⟩
    | subclass _ hplain => exact nomatch hweak.symm.trans hplain
  · rintro ⟨key, s, hs, rfl⟩
    exact .weak hparent hweak hs

/-- A subclass inherits all attributes of its parent. -/
theorem iff_of_subclass (hparent : e.parent = some parent) (hweak : e.isWeak = false) :
    Inherits layout known e inherited ↔ known.get? parent = some inherited := by
  constructor
  · intro h
    cases h with
    | regular hnone => exact nomatch hparent.symm.trans hnone
    | weak _ hweak' => exact nomatch hweak.symm.trans hweak'
    | subclass hsome _ hs =>
      obtain rfl := Option.some.inj (hparent.symm.trans hsome)
      exact hs
  · exact .subclass hparent hweak

end Inherits

/-- The structure of an entity from the attributes it inherits and its own: the first one may
be renamed after the key column. -/
def withInherited (layout : Layout) (naming : Naming) (e : EntityNode)
    (inherited own : List Attribute) : List Attribute :=
  match e.parent with
  | none => withKeyColumn naming e.path (inherited ++ own)
  | some _ =>
    if e.isWeak = false ∧ layout.isAlone e.path then
      renameFirst (naming.keyColumn e.path) (inherited ++ own)
    else inherited ++ own

/-- **The structure of an entity** is made of the attributes it inherits and its own. -/
theorem ofEntity_eq_ok {e : EntityNode} {as : List Attribute} :
    ofEntity d layout naming known e = .ok as ↔ ∃ inherited own,
      Inherits layout known e inherited ∧ Structures.own d e.path = .ok own ∧
        as = withInherited layout naming e inherited own := by
  rw [ofEntity, bind_eq_ok]
  cases hparent : e.parent with
  | none =>
    simp only [pure_eq_ok, withInherited, hparent, Inherits.iff_of_none hparent]
    constructor
    · rintro ⟨own, hown, rfl⟩
      exact ⟨[], own, rfl, hown, rfl⟩
    · rintro ⟨inherited, own, rfl, hown, rfl⟩
      exact ⟨own, hown, rfl⟩
  | some parent =>
    simp only [withInherited, hparent]
    cases hweak : e.isWeak with
    | true =>
      simp only [if_true, bind_eq_ok, pure_eq_ok, leading_eq_ok, Inherits.iff_of_weak hparent hweak]
      constructor
      · rintro ⟨own, hown, key, ⟨s, hs, hlen, rfl⟩, rfl⟩
        obtain ⟨k, s, rfl⟩ := List.exists_cons_of_length_pos hlen
        exact ⟨[k], own, ⟨k, s, hs, rfl⟩, hown, by simp⟩
      · rintro ⟨inherited, own, ⟨k, s, hs, rfl⟩, hown, rfl⟩
        exact ⟨own, hown, _, ⟨_, hs, by simp, rfl⟩, by simp⟩
    | false =>
      simp only [bind_eq_ok, require_eq_ok, Bool.false_eq_true, if_false, true_and,
        Inherits.iff_of_subclass hparent hweak]
      constructor
      · rintro ⟨own, hown, inherited, hs, h⟩
        refine ⟨inherited, own, hs, hown, ?_⟩
        split at h
        · next halone => rw [if_pos halone, pure_eq_ok.mp h]
        · next halone => rw [if_neg halone, pure_eq_ok.mp h]
      · rintro ⟨inherited, own, hs, hown, rfl⟩
        refine ⟨own, hown, inherited, hs, ?_⟩
        split <;> rfl

/-- An entity is refused if its own attributes cannot be told, or those of its parent. -/
theorem ofEntity_eq_error {e : EntityNode} {fault : DiagramError}
    (h : ofEntity d layout naming known e = .error fault) : Structures.own d e.path = .error fault ∨
      ∃ parent, e.parent = some parent ∧
        (e.isWeak = true ∧ known.leading parent 1 = .error fault ∨
          known.require parent = .error fault) := by
  rw [ofEntity] at h
  rcases bind_eq_error.mp h with h | ⟨own, -, h⟩
  · exact .inl h
  cases hparent : e.parent with
  | none =>
    simp only [hparent] at h
    exact nomatch h
  | some parent =>
    refine .inr ⟨parent, rfl, ?_⟩
    simp only [hparent] at h
    cases hweak : e.isWeak with
    | true =>
      simp only [hweak, if_true] at h
      exact .inl ⟨rfl, bind_pure_eq_error.mp h⟩
    | false =>
      simp only [hweak, Bool.false_eq_true, if_false] at h
      rcases bind_eq_error.mp h with h | ⟨inherited, -, h⟩
      · exact .inr h
      · split at h <;> exact nomatch h

theorem Inherits.within {e : EntityNode} {inherited : List Attribute} (hwithin : known.Within known')
    (h : Inherits layout known e inherited) : Inherits layout known' e inherited := by
  cases h with
  | regular h => exact .regular h
  | weak h hweak hs => exact .weak h hweak (hwithin _ _ hs)
  | subclass h hweak hs => exact .subclass h hweak (hwithin _ _ hs)

theorem length_renameFirst {name : String} : ∀ {as : List Attribute},
    (renameFirst name as).length = as.length
  | [] => rfl
  | _ :: _ => rfl

theorem length_withInherited {e : EntityNode} {inherited own : List Attribute} :
    (withInherited layout naming e inherited own).length = inherited.length + own.length := by
  have hkey : ∀ as : List Attribute, (withKeyColumn naming e.path as).length = as.length
    | [] => rfl
    | _ :: _ => by rw [withKeyColumn]; split <;> rfl
  unfold withInherited
  split
  · rw [hkey, List.length_append]
  · split
    · rw [length_renameFirst, List.length_append]
    · rw [List.length_append]

/-- **Own attributes that are no keys keep their names**, also those of an entity that stands
alone if it inherits any attributes. -/
theorem withInherited_eq_append (naming : Naming) {e : EntityNode} {inherited : List Attribute}
    (own : List Attribute) (hinherits : Inherits layout known e inherited)
    (halone : e.parent.isSome = true → layout.isAlone e.path = true → inherited ≠ []) :
    ∃ front rest, withInherited layout naming e inherited own = front ++ rest ∧
      List.Forall₂ (fun a b : Attribute => naming.isKeyName a.name = false → b = a) own rest := by
  have hsame : ∀ as : List Attribute,
      List.Forall₂ (fun a b => naming.isKeyName a.name = false → b = a) as as :=
    fun as => List.forall₂_same.mpr fun a _ _ => rfl
  unfold withInherited
  cases hparent : e.parent with
  | none =>
    obtain rfl := (Inherits.iff_of_none hparent).mp hinherits
    refine ⟨[], withKeyColumn naming e.path own, rfl, ?_⟩
    cases own with
    | nil => exact .nil
    | cons a as =>
      rw [withKeyColumn]
      split
      · next hkey =>
        exact .cons (fun hfalse => absurd (hkey.symm.trans hfalse) (by decide)) (hsame as)
      · exact hsame (a :: as)
  | some parent =>
    simp only
    split
    · next hrenamed =>
      obtain ⟨first, others, rfl⟩ := List.exists_cons_of_ne_nil
        (halone (by rw [hparent]; rfl) hrenamed.2)
      exact ⟨_ :: others, own, rfl, hsame own⟩
    · exact ⟨inherited, own, rfl, hsame own⟩

/-! ## 3. The structure of a relationship -/

/-- **The structure of a relationship** is made of the keys of its sides and its own
attributes. -/
theorem ofRelationship_eq_ok {r : RelationshipNode} {as : List Attribute} :
    ofRelationship d naming known r = .ok as ↔ ∃ e₁ e₂ left right first second own,
      d.endpoints r.path = .ok (e₁, e₂) ∧ known.leading e₁.path (keyCount e₁) = .ok left ∧
        known.leading e₂.path (keyCount e₂) = .ok right ∧
          sideKeys naming r e₁ e₂ left right = .ok (first, second) ∧
            Structures.own d r.path = .ok own ∧ as = first ++ second ++ own := by
  simp only [ofRelationship, bind_eq_ok, liftDiagram_eq_ok, pure_eq_ok, Prod.exists]
  constructor
  · rintro ⟨e₁, e₂, hends, left, hleft, right, hright, first, second, hkeys, own, hown, rfl⟩
    exact ⟨e₁, e₂, left, right, first, second, own, hends, hleft, hright, hkeys, hown, rfl⟩
  · rintro ⟨e₁, e₂, left, right, first, second, own, hends, hleft, hright, hkeys, hown, rfl⟩
    exact ⟨e₁, e₂, hends, left, hleft, right, hright, first, second, hkeys, own, hown, rfl⟩

/-- The keys of a relationship clash, or they are found. -/
theorem sideKeys_eq_error {r : RelationshipNode} {e₁ e₂ : EntityNode} {left right : List Attribute}
    {fault : StructureError} (h : sideKeys naming r e₁ e₂ left right = .error fault) :
    ∃ clash, fault = .unsupported r.path clash := by
  unfold sideKeys at h
  split at h
  · split at h
    · exact ⟨_, (Except.error.inj h).symm⟩
    · dsimp only at h
      split at h
      · exact ⟨_, (Except.error.inj h).symm⟩
      · exact nomatch h
  · exact nomatch h

/-- A relationship is refused if its ends, their keys or its own attributes cannot be told, or if
the keys clash. -/
theorem ofRelationship_eq_error {r : RelationshipNode} {fault : StructureError}
    (h : ofRelationship d naming known r = .error fault) :
    (∃ f, d.endpoints r.path = .error f ∧ fault = .diagram f) ∨
      (∃ e₁ e₂ f, d.endpoints r.path = .ok (e₁, e₂) ∧
        (known.leading e₁.path (keyCount e₁) = .error f ∨
          known.leading e₂.path (keyCount e₂) = .error f) ∧ fault = .diagram f) ∨
      (∃ f, Structures.own d r.path = .error f ∧ fault = .diagram f) ∨
        ∃ clash, fault = .unsupported r.path clash := by
  rw [ofRelationship] at h
  rcases bind_eq_error.mp h with h | ⟨⟨e₁, e₂⟩, hends, h⟩
  · obtain ⟨f, hf, rfl⟩ := mapError_eq_error.mp h
    exact .inl ⟨f, hf, rfl⟩
  have hends := liftDiagram_eq_ok.mp hends
  rcases bind_eq_error.mp h with h | ⟨left, -, h⟩
  · obtain ⟨f, hf, rfl⟩ := mapError_eq_error.mp h
    exact .inr (.inl ⟨e₁, e₂, f, hends, .inl hf, rfl⟩)
  rcases bind_eq_error.mp h with h | ⟨right, -, h⟩
  · obtain ⟨f, hf, rfl⟩ := mapError_eq_error.mp h
    exact .inr (.inl ⟨e₁, e₂, f, hends, .inr hf, rfl⟩)
  rcases bind_eq_error.mp h with h | ⟨⟨first, second⟩, -, h⟩
  · exact .inr (.inr (.inr (sideKeys_eq_error h)))
  · obtain ⟨f, hf, rfl⟩ := mapError_eq_error.mp (bind_pure_eq_error.mp h)
    exact .inr (.inr (.inl ⟨f, hf, rfl⟩))

/-- **The keys of both sides are renamed exactly if they begin with one name.** -/
theorem sideKeys_eq_ok {r : RelationshipNode} {e₁ e₂ : EntityNode}
    {left right first second : List Attribute}
    (h : sideKeys naming r e₁ e₂ left right = .ok (first, second)) :
    (left.head?.map Attribute.name = right.head?.map Attribute.name ∧
      first = renameFirst (sideNames naming r e₁ e₂).1 left ∧
        second = renameFirst (sideNames naming r e₁ e₂).2 right) ∨
    (left.head?.map Attribute.name ≠ right.head?.map Attribute.name ∧
      first = left ∧ second = right) := by
  unfold sideKeys at h
  split at h
  · next hsame =>
    split at h
    · exact nomatch h
    · dsimp only at h
      split at h
      · exact nomatch h
      · cases h
        exact .inl ⟨hsame, rfl, rfl⟩
  · next hdiffer =>
    cases h
    exact .inr ⟨hdiffer, rfl, rfl⟩

/-- The keys of both sides stay as many as they are. -/
theorem length_sideKeys {r : RelationshipNode} {e₁ e₂ : EntityNode}
    {left right first second : List Attribute}
    (h : sideKeys naming r e₁ e₂ left right = .ok (first, second)) :
    first.length = left.length ∧ second.length = right.length := by
  obtain ⟨-, rfl, rfl⟩ | ⟨-, rfl, rfl⟩ := sideKeys_eq_ok h
  · exact ⟨length_renameFirst, length_renameFirst⟩
  · exact ⟨rfl, rfl⟩

theorem keyCount_pos (e : EntityNode) : 0 < keyCount e := by
  unfold keyCount
  split <;> decide

/-- **The names by which the structure of a relationship begins**: those of its sides if both ends
begin with one name, else those by which they begin. -/
theorem take_names_ofRelationship {r : RelationshipNode} {as : List Attribute} {e₁ e₂ : EntityNode}
    (h : ofRelationship d naming known r = .ok as) (hends : d.endpoints r.path = .ok (e₁, e₂))
    (hweak : e₁.isWeak = false) : ∃ a b s₁ s₂, known.get? e₁.path = some (a :: s₁) ∧
      known.get? e₂.path = some (b :: s₂) ∧ (as.map Attribute.name).take 2 =
        if a.name = b.name then [(sideNames naming r e₁ e₂).1, (sideNames naming r e₁ e₂).2]
        else [a.name, b.name] := by
  obtain ⟨_, _, left, right, first, second, own, hends', hleft, hright, hkeys, -, rfl⟩ :=
    ofRelationship_eq_ok.mp h
  obtain ⟨rfl, rfl⟩ := Prod.mk.inj (Except.ok.inj (hends.symm.trans hends'))
  obtain ⟨s₁, hs₁, hlen₁, rfl⟩ := leading_eq_ok.mp hleft
  obtain ⟨s₂, hs₂, hlen₂, rfl⟩ := leading_eq_ok.mp hright
  obtain ⟨n, hn⟩ := Nat.exists_eq_add_of_lt (keyCount_pos e₂)
  have hone : keyCount e₁ = 1 := by simp [keyCount, hweak]
  rw [hone] at hlen₁ hkeys
  rw [hn, Nat.zero_add] at hlen₂ hkeys
  obtain ⟨a, s₁, rfl⟩ := List.exists_cons_of_length_pos hlen₁
  obtain ⟨b, s₂, rfl⟩ := List.exists_cons_of_length_pos (Nat.lt_of_lt_of_le n.succ_pos hlen₂)
  refine ⟨a, b, s₁, s₂, hs₁, hs₂, ?_⟩
  obtain ⟨hsame, rfl, rfl⟩ | ⟨hdiffer, rfl, rfl⟩ := sideKeys_eq_ok hkeys
  · have hnames : a.name = b.name := by simpa using hsame
    simp [renameFirst, hnames]
  · have hnames : a.name ≠ b.name := by simpa using hdiffer
    simp [hnames]

theorem leading_within (hwithin : known.Within known') {path : String} {count : Nat}
    {as : List Attribute} (h : known.leading path count = .ok as) :
    known'.leading path count = .ok as := by
  obtain ⟨s, hs, hlen⟩ := leading_eq_ok.mp h
  exact leading_eq_ok.mpr ⟨s, hwithin _ _ hs, hlen⟩

theorem ofRelationship_within (hwithin : known.Within known') {r : RelationshipNode}
    {as : List Attribute} (h : ofRelationship d naming known r = .ok as) :
    ofRelationship d naming known' r = .ok as := by
  obtain ⟨e₁, e₂, left, right, first, second, own, hends, hleft, hright, hrest⟩ :=
    ofRelationship_eq_ok.mp h
  exact ofRelationship_eq_ok.mpr ⟨e₁, e₂, left, right, first, second, own, hends,
    leading_within hwithin hleft, leading_within hwithin hright, hrest⟩

/-! ## 4. All structures -/

/-- The structure that a node has by the structures that are known; attributes have none. -/
def IsValue (d : Diagram) (layout : Layout) (naming : Naming) (known : Structures) :
    Node → Option (List Attribute) → Prop
  | .entity e, o => ∃ as, o = some as ∧ ofEntity d layout naming known e = .ok as
  | .relationship r, o => ∃ as, o = some as ∧ ofRelationship d naming known r = .ok as
  | .attr _, o => o = none

theorem deriveEach_eq_ok : ∀ {ns : List Node} {known s : Structures},
    deriveEach d layout naming ns known = .ok s ↔
      Register.Fills Node.path (IsValue d layout naming) ns known s
  | [], known, s => by
    rw [deriveEach, Except.ok.injEq]
    exact eq_comm
  | .entity e :: ns, known, s => by
    rw [deriveEach, bind_eq_ok]
    constructor
    · rintro ⟨as, has, h⟩
      exact ⟨some as, ⟨as, rfl, liftDiagram_eq_ok.mp has⟩, deriveEach_eq_ok.mp h⟩
    · rintro ⟨_, ⟨as, rfl, has⟩, h⟩
      exact ⟨as, liftDiagram_eq_ok.mpr has, deriveEach_eq_ok.mpr h⟩
  | .relationship r :: ns, known, s => by
    rw [deriveEach, bind_eq_ok]
    constructor
    · rintro ⟨as, has, h⟩
      exact ⟨some as, ⟨as, rfl, has⟩, deriveEach_eq_ok.mp h⟩
    · rintro ⟨_, ⟨as, rfl, has⟩, h⟩
      exact ⟨as, has, deriveEach_eq_ok.mpr h⟩
  | .attr a :: ns, known, s => by
    rw [deriveEach, deriveEach_eq_ok]
    constructor
    · exact fun h => ⟨none, rfl, h⟩
    · rintro ⟨_, rfl, h⟩
      exact h

/-- Why a node has no structure by the structures that are known; attributes need none. -/
def IsRefused (d : Diagram) (layout : Layout) (naming : Naming) (known : Structures) :
    Node → StructureError → Prop
  | .entity e, fault => ∃ f, ofEntity d layout naming known e = .error f ∧ fault = .diagram f
  | .relationship r, fault => ofRelationship d naming known r = .error fault
  | .attr _, _ => False

/-- **A node is refused by the structures of the nodes before it.** -/
theorem deriveEach_eq_error {fault : StructureError} : ∀ {ns : List Node} {known : Structures},
    deriveEach d layout naming ns known = .error fault →
      ∃ before n after known', ns = before ++ n :: after ∧
        Register.Fills Node.path (IsValue d layout naming) before known known' ∧
          IsRefused d layout naming known' n fault
  | [], _, h => nomatch h
  | .entity e :: ns, known, h => by
    rcases bind_eq_error.mp h with h | ⟨as, has, h⟩
    · obtain ⟨f, hf, rfl⟩ := mapError_eq_error.mp h
      exact ⟨[], .entity e, ns, known, rfl, rfl, f, hf, rfl⟩
    · obtain ⟨before, n, after, known', rfl, hfills, hrefused⟩ := deriveEach_eq_error h
      exact ⟨.entity e :: before, n, after, known', rfl,
        ⟨some as, ⟨as, rfl, liftDiagram_eq_ok.mp has⟩, hfills⟩, hrefused⟩
  | .relationship r :: ns, known, h => by
    rcases bind_eq_error.mp h with h | ⟨as, has, h⟩
    · exact ⟨[], .relationship r, ns, known, rfl, rfl, h⟩
    · obtain ⟨before, n, after, known', rfl, hfills, hrefused⟩ := deriveEach_eq_error h
      exact ⟨.relationship r :: before, n, after, known', rfl, ⟨some as, ⟨as, rfl, has⟩, hfills⟩,
        hrefused⟩
  | .attr a :: ns, known, h => by
    rw [deriveEach] at h
    obtain ⟨before, n, after, known', rfl, hfills, hrefused⟩ := deriveEach_eq_error h
    exact ⟨.attr a :: before, n, after, known', rfl, ⟨none, rfl, hfills⟩, hrefused⟩

section

variable {s : Structures} (hderive : derive d layout naming = .ok s) (hd : d.IsIndexed)

include hderive hd

/-- The entities and relationships have structures, in order. -/
theorem derive_names : s.names = (d.nodes.filter Node.isOwner).map Node.path := by
  refine ((deriveEach_eq_ok.mp hderive).names_eq Node.isOwner ?_ hd.nodup).trans rfl
  intro known n o h
  cases n with
  | entity e => obtain ⟨as, rfl, -⟩ := h; rfl
  | relationship r => obtain ⟨as, rfl, -⟩ := h; rfl
  | attr a => obtain rfl : o = none := h; rfl

/-- The structure of a node is its value by structures that have not changed since. -/
theorem derive_node {n : Node} (hn : n ∈ d.nodes) : ∃ known : Structures, known.Within s ∧
    IsValue d layout naming known n (s.get? n.path) :=
  (deriveEach_eq_ok.mp hderive).get?_of_mem hd.nodup hn

/-- **Every entity has the structure that it has by all structures.** -/
theorem derive_entity {e : EntityNode} (he : .entity e ∈ d.nodes) :
    ∃ inherited own, Inherits layout s e inherited ∧ Structures.own d e.path = .ok own ∧
      s.get? e.path = some (withInherited layout naming e inherited own) := by
  obtain ⟨known, hwithin, as, hget, has⟩ := derive_node hderive hd he
  obtain ⟨inherited, own, hinherits, hown, rfl⟩ := ofEntity_eq_ok.mp has
  exact ⟨inherited, own, hinherits.within hwithin, hown, hget⟩

/-- **Every relationship has the structure that it has by all structures.** -/
theorem derive_relationship {r : RelationshipNode} (hr : .relationship r ∈ d.nodes) :
    ∃ as, s.get? r.path = some as ∧ ofRelationship d naming s r = .ok as := by
  obtain ⟨known, hwithin, as, hget, has⟩ := derive_node hderive hd hr
  exact ⟨as, hget, ofRelationship_within hwithin has⟩

end

/-! ## 5. All attributes of all structures -/

section

variable {P : Attribute → Prop} (hrename : ∀ (a : Attribute) (name : String), P a →
  P { a with name })

include hrename

theorem forall_renameFirst {name : String} : ∀ {as : List Attribute}, (∀ a ∈ as, P a) →
    ∀ a ∈ renameFirst name as, P a
  | [], h => h
  | a :: as, h => by
    rw [renameFirst, List.forall_mem_cons]
    exact ⟨hrename a name (h a List.mem_cons_self), (List.forall_mem_cons.mp h).2⟩

theorem forall_withKeyColumn {entity : String} : ∀ {as : List Attribute}, (∀ a ∈ as, P a) →
    ∀ a ∈ withKeyColumn naming entity as, P a
  | [], h => h
  | a :: as, h => by
    rw [withKeyColumn]
    split
    · show ∀ b ∈ renameFirst (naming.keyColumn entity) (a :: as), P b
      exact forall_renameFirst hrename h
    · exact h

theorem forall_withInherited {e : EntityNode} {inherited own : List Attribute}
    (hinherited : ∀ a ∈ inherited, P a) (hown : ∀ a ∈ own, P a) :
    ∀ a ∈ withInherited layout naming e inherited own, P a := by
  have hall : ∀ a ∈ inherited ++ own, P a := List.forall_mem_append.mpr ⟨hinherited, hown⟩
  unfold withInherited
  split
  · exact forall_withKeyColumn hrename hall
  · split
    · exact forall_renameFirst hrename hall
    · exact hall

theorem forall_sideKeys {r : RelationshipNode} {e₁ e₂ : EntityNode}
    {left right first second : List Attribute}
    (h : sideKeys naming r e₁ e₂ left right = .ok (first, second)) (hleft : ∀ a ∈ left, P a)
    (hright : ∀ a ∈ right, P a) : (∀ a ∈ first, P a) ∧ ∀ a ∈ second, P a := by
  obtain ⟨-, rfl, rfl⟩ | ⟨-, rfl, rfl⟩ := sideKeys_eq_ok h
  · exact ⟨forall_renameFirst hrename hleft, forall_renameFirst hrename hright⟩
  · exact ⟨hleft, hright⟩

/-- **What holds of the declared attributes, whatever their names, holds of all attributes of
all structures.** -/
theorem derive_forall {s : Structures} (hderive : derive d layout naming = .ok s)
    (hd : d.IsIndexed) (hown : ∀ n ∈ d.nodes, n.isOwner = true → ∀ own,
      Structures.own d n.path = .ok own → ∀ a ∈ own, P a) :
    ∀ e ∈ s.entries, ∀ a ∈ e.2, P a := by
  have hempty : ∀ e ∈ (Register.empty : Structures).entries, ∀ a ∈ e.2, P a :=
    fun e he => absurd he List.not_mem_nil
  refine (deriveEach_eq_ok.mp hderive).forall_mem (P := fun as => ∀ a ∈ as, P a) hd.nodup ?_
    hempty
  intro known n as hn hknown hvalue
  have hget : ∀ {path as}, known.get? path = some as → ∀ a ∈ as, P a := fun h =>
    hknown _ (Register.get?_eq_some.mp h)
  have hleading : ∀ {path count as}, leading known path count = .ok as → ∀ a ∈ as, P a := by
    intro path count as h a ha
    obtain ⟨s, hs, -, rfl⟩ := leading_eq_ok.mp h
    exact hget hs a (List.mem_of_mem_take ha)
  cases n with
  | entity e =>
    obtain ⟨_, has, hof⟩ := hvalue
    obtain rfl := Option.some.inj has
    obtain ⟨inherited, own, hinherits, hown', rfl⟩ := ofEntity_eq_ok.mp hof
    refine forall_withInherited hrename ?_ (hown _ hn rfl own hown')
    cases hinherits with
    | regular => exact fun a ha => absurd ha List.not_mem_nil
    | weak _ _ hs =>
      intro a ha
      rw [List.mem_singleton.mp ha]
      exact hget hs _ List.mem_cons_self
    | subclass _ _ hs => exact hget hs
  | relationship r =>
    obtain ⟨_, has, hof⟩ := hvalue
    obtain rfl := Option.some.inj has
    obtain ⟨e₁, e₂, left, right, first, second, own, -, hleft, hright, hkeys, hown', rfl⟩ :=
      ofRelationship_eq_ok.mp hof
    obtain ⟨hfirst, hsecond⟩ :=
      forall_sideKeys hrename hkeys (hleading hleft) (hleading hright)
    exact List.forall_mem_append.mpr ⟨List.forall_mem_append.mpr ⟨hfirst, hsecond⟩,
      hown _ hn rfl own hown'⟩
  | attr a => exact nomatch (show some as = none from hvalue)

end

end EntityLayout.Structures
