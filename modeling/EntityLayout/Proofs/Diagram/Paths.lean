/-
# Paths of plain names

Names of ASCII letters, digits and underscores have no dot in them, so the path of an attribute
can be taken apart again at its dots.

* `Text.IsPlain`, `EntityDecl.IsPlain`: plain names, and entities that have only such.
* `Attribute.path_of_mem_nodes`: the path of a part goes on behind that of the whole.
* `IsPlain.columnName_path`, `IsPlain.rootPart_path`: what the columns of an attribute and of
  its parts are called.
* `IsPlain.isKeyName_path`: whether an attribute is a key is seen in its name.
-/
import EntityLayout.Naming
import EntityLayout.Proofs.Diagram.Listing
import Mathlib.Data.List.TakeWhile

namespace EntityLayout

/-! ## 1. Plain names -/

namespace Text

/-- A name of ASCII letters, digits and underscores. -/
def IsPlain (s : String) : Prop := ∀ c ∈ s.toList, c.isAlphanum = true ∨ c = '_'

instance (s : String) : Decidable (IsPlain s) :=
  List.decidableBAll (fun c : Char => c.isAlphanum = true ∨ c = '_') s.toList

theorem ascii_of_isAlphanum {c : Char} (h : c.isAlphanum = true) : c.toNat < 128 := by
  have hranges : ((decide (c.val ≥ 65 ∧ c.val ≤ 90) || c.val ≥ 97 && c.val ≤ 122)
      || c.val ≥ 48 && c.val ≤ 57) = true := h
  simp only [Bool.or_eq_true, Bool.and_eq_true, decide_eq_true_eq] at hranges
  rcases hranges with (⟨-, h⟩ | ⟨-, h⟩) | ⟨-, h⟩
  · exact Nat.lt_of_le_of_lt (show c.toNat ≤ 90 from h) (by decide)
  · exact Nat.lt_of_le_of_lt (show c.toNat ≤ 122 from h) (by decide)
  · exact Nat.lt_of_le_of_lt (show c.toNat ≤ 57 from h) (by decide)

theorem IsPlain.ascii {s : String} (h : IsPlain s) : ∀ c ∈ s.toList, c.toNat < 128 := by
  intro c hc
  rcases h c hc with h | rfl
  · exact ascii_of_isAlphanum h
  · decide

/-- The small form of a plain name has no dot. -/
theorem IsPlain.dot_notMem {s : String} (h : IsPlain s) : '.' ∉ (lower s).toList := by
  rw [toList_lower]
  refine dot_notMem_lowerChars fun hdot => ?_
  rcases h _ hdot with h | h <;> exact absurd h (by decide)

theorem IsPlain.ascii_lower {s : String} (h : IsPlain s) :
    ∀ c ∈ (lower s).toList, c.toNat < 128 := by
  rw [lower_of_ascii h.ascii]
  intro c hc
  obtain ⟨d, hd, rfl⟩ := List.mem_map.mp hc
  exact toNat_toLower_lt (h.ascii d hd)

end Text

/-! ## 2. Dots in paths -/

namespace Path

theorem isDot_eq_false {c : Char} {cs : List Char} (h : '.' ∉ cs) (hc : c ∈ cs) :
    isDot c = false := by
  have : c ≠ '.' := fun e => h (e ▸ hc)
  simp [isDot, this]

theorem takeWhile_eq_self {cs : List Char} (h : '.' ∉ cs) : cs.takeWhile (!isDot ·) = cs :=
  List.takeWhile_eq_self_iff.mpr fun c hc => by simp [isDot_eq_false h hc]

theorem takeWhile_append_dot {cs rest : List Char} (h : '.' ∉ cs) :
    (cs ++ '.' :: rest).takeWhile (!isDot ·) = cs := by
  rw [List.takeWhile_append, takeWhile_eq_self h, if_pos rfl, List.takeWhile_cons_of_neg (by decide),
    List.append_nil]

theorem afterFirstDot_append_dot {cs rest : List Char} (h : '.' ∉ cs) :
    afterFirstDot (cs ++ '.' :: rest) = rest := by
  have hcs : cs.dropWhile (!isDot ·) = [] := List.dropWhile_eq_nil_iff.mpr fun c hc => by
    simp [isDot_eq_false h hc]
  rw [afterFirstDot, List.dropWhile_append, hcs, List.isEmpty_nil, if_pos rfl,
    List.dropWhile_cons_of_neg (by decide)]

/-- The last name of a path is what was added last, if that has no dot. -/
theorem toList_leaf_below {above name : String} (h : Text.lower above = above)
    (hname : '.' ∉ name.toList) : (leaf (below above name)).toList =
      Text.lowerChars ('.' :: above.toList.reverse) name.toList := by
  have hrest : '.' ∉ (Text.lowerChars ('.' :: above.toList.reverse) name.toList).reverse := by
    rw [List.mem_reverse]
    exact Text.dot_notMem_lowerChars hname
  rw [leaf, String.toList_ofList, Path.toList_below h, List.reverse_append, List.reverse_cons,
    List.append_assoc, List.singleton_append, takeWhile_append_dot hrest, List.reverse_reverse]

/-- Without a dot nothing is replaced. -/
theorem separatedBy_of_notMem {separator path : String} (h : '.' ∉ path.toList) :
    separatedBy separator path = path := by
  have hcs : ∀ cs : List Char, '.' ∉ cs →
      (cs.flatMap fun c => if isDot c then separator.toList else [c]) = cs := by
    intro cs
    induction cs with
    | nil => exact fun _ => rfl
    | cons c cs ih =>
      intro h
      rw [List.mem_cons, not_or] at h
      rw [List.flatMap_cons, ih h.2, if_neg (by simpa [isDot] using Ne.symm h.1)]
      rfl
  rw [separatedBy, hcs _ h, String.ofList_toList]

/-- A path in small letters of ASCII, to which names can be added. -/
structure IsBase (path : String) : Prop where
  ascii : ∀ c ∈ path.toList, c.toNat < 128
  lowered : Text.lower path = path

/-- A plain name goes behind a dot. -/
theorem IsBase.toList_below {path name : String} (h : IsBase path) (hname : Text.IsPlain name) :
    (below path name).toList = path.toList ++ '.' :: (Text.lower name).toList := by
  rw [Path.toList_below h.lowered, Text.lowerChars_of_ascii _ _ hname.ascii,
    Text.lower_of_ascii hname.ascii]

theorem IsBase.below {path name : String} (h : IsBase path) (hname : Text.IsPlain name) :
    IsBase (Path.below path name) := by
  refine ⟨fun c hc => ?_, Text.lower_lower _⟩
  rw [h.toList_below hname, List.mem_append, List.mem_cons] at hc
  rcases hc with hc | rfl | hc
  · exact h.ascii c hc
  · decide
  · exact hname.ascii_lower c hc

theorem isBase_lower {name : String} (h : Text.IsPlain name) : IsBase (Text.lower name) :=
  ⟨h.ascii_lower, Text.lower_lower _⟩

end Path

/-! ## 3. Attributes -/

namespace Attribute

/-- **The path of a part goes on behind that of the whole.** -/
theorem path_of_mem_nodes {n : AttributeNode} : ∀ {a : Attribute} {above owner : String}
    {parent : Option String}, Path.IsBase above →
      (∀ m ∈ a.nodes above owner parent, Text.IsPlain m.name) → n ∈ a.nodes above owner parent →
        n = a.node above owner parent ∨
          ∃ rest, n.path.toList = (a.pathBelow above).toList ++ '.' :: rest := by
  intro a
  induction a using Attribute.induction with
  | step a ih =>
    intro above owner parent habove hplain hn
    have hname : Text.IsPlain a.name := hplain _ (a.node_mem_nodes above owner parent)
    have hbase : Path.IsBase (a.pathBelow above) := habove.below hname
    rcases mem_nodes_iff.mp hn with hn | ⟨b, hb, hn⟩
    · exact .inl hn
    · have hparts : ∀ m ∈ b.nodes (a.pathBelow above) owner (some (a.pathBelow above)),
          Text.IsPlain m.name := fun m hm => hplain m (mem_nodes_of_part hb hm)
      have hbelow : (b.pathBelow (a.pathBelow above)).toList =
          (a.pathBelow above).toList ++ '.' :: (Text.lower b.name).toList :=
        hbase.toList_below (hparts _ (b.node_mem_nodes _ _ _))
      right
      rcases ih b (shownParts_subset hb) hbase hparts hn with rfl | ⟨rest, hrest⟩
      · exact ⟨_, hbelow⟩
      · exact ⟨(Text.lower b.name).toList ++ '.' :: rest, by rw [hrest, hbelow]; simp⟩

end Attribute

/-! ## 4. Names of columns and keys -/

namespace Naming

theorem suffix_append_cons_iff {c : Char} {suffix xs ys : List Char} (h : c ∉ suffix) :
    suffix <:+ xs ++ c :: ys ↔ suffix <:+ ys := by
  constructor
  · rintro ⟨front, hfront⟩
    rcases List.append_eq_append_iff.mp hfront with ⟨zs, -, hzs⟩ | ⟨zs, -, hzs⟩
    · exact absurd (hzs ▸ List.mem_append_right zs List.mem_cons_self) h
    · cases zs with
      | nil =>
        rw [List.nil_append] at hzs
        exact absurd (hzs ▸ List.mem_cons_self) h
      | cons z zs => exact ⟨zs, (List.cons.inj hzs).2.symm⟩
  · exact fun hys => (hys.trans (List.suffix_cons c ys)).trans (List.suffix_append xs _)

/-- Whether a path is that of a key is seen in what follows a dot, if keys have no dot. -/
theorem isKeyName_of_append {naming : Naming} (h : '.' ∉ naming.keyModifier.toList)
    {path name : String} {front : List Char}
    (hpath : path.toList = front ++ '.' :: name.toList) :
    naming.isKeyName path = naming.isKeyName name := by
  have hsuffix : '.' ∉ naming.keySuffix.toList := by
    simp only [keySuffix, String.toList_append, List.mem_append, not_or]
    exact ⟨⟨by decide, h⟩, by decide⟩
  rw [Bool.eq_iff_iff]
  simp only [isKeyName, Bool.or_eq_true, List.isSuffixOf_iff_suffix, hpath,
    suffix_append_cons_iff hsuffix, suffix_append_cons_iff (show '.' ∉ "_id".toList by decide)]

end Naming

/-- The names of an entity and of all its attributes are plain. -/
structure EntityDecl.IsPlain (e : EntityDecl) : Prop where
  name : Text.IsPlain e.name
  attributes : ∀ n ∈ e.attributeNodes, Text.IsPlain n.name

theorem EntityDecl.mem_attributeNodes {e : EntityDecl} {a : Attribute} (ha : a ∈ e.attributes)
    {n : AttributeNode} (hn : n ∈ a.nodes e.path e.path none) : n ∈ e.attributeNodes := by
  rw [attributeNodes, Attribute.nodesOf_eq_flatMap]
  exact List.mem_flatMap.mpr ⟨a, ha, hn⟩

namespace EntityDecl.IsPlain

variable {e : EntityDecl} {a : Attribute} (h : e.IsPlain) (ha : a ∈ e.attributes)

include h

theorem isBase_path : Path.IsBase e.path := Path.isBase_lower h.name

theorem dot_notMem_path : '.' ∉ e.path.toList := h.name.dot_notMem

include ha

theorem isPlain_name : Text.IsPlain a.name :=
  h.attributes _ (mem_attributeNodes ha (a.node_mem_nodes _ _ _))

theorem toList_path : (a.pathBelow e.path).toList =
    e.path.toList ++ '.' :: (Text.lower a.name).toList :=
  h.isBase_path.toList_below (h.isPlain_name ha)

/-- **The column of a declared attribute is called as queries call the attribute.** -/
theorem columnName_path :
    Naming.columnName (Path.localPart (a.pathBelow e.path)) = Text.lower a.name := by
  have hlocal : Path.localPart (a.pathBelow e.path) = Text.lower a.name := by
    rw [Path.localPart, h.toList_path ha, Path.afterFirstDot_append_dot h.dot_notMem_path,
      String.ofList_toList]
  rw [hlocal, Naming.columnName, Path.separatedBy_of_notMem (h.isPlain_name ha).dot_notMem]

/-- **The columns of the parts of an attribute name the attribute as their origin.** -/
theorem rootPart_path {n : AttributeNode} (hn : n ∈ a.nodes e.path e.path none) :
    Path.rootPart n.path = Text.lower a.name := by
  have hdot := (h.isPlain_name ha).dot_notMem
  have hplain : ∀ m ∈ a.nodes e.path e.path none, Text.IsPlain m.name := fun m hm =>
    h.attributes m (mem_attributeNodes ha hm)
  rcases Attribute.path_of_mem_nodes h.isBase_path hplain hn with rfl | ⟨rest, hrest⟩
  · have hpath : (a.node e.path e.path none).path.toList =
        e.path.toList ++ '.' :: (Text.lower a.name).toList := h.toList_path ha
    rw [Path.rootPart, hpath, Path.afterFirstDot_append_dot h.dot_notMem_path,
      Path.takeWhile_eq_self hdot, String.ofList_toList]
  · rw [h.toList_path ha, List.append_assoc, List.cons_append] at hrest
    rw [Path.rootPart, hrest, Path.afterFirstDot_append_dot h.dot_notMem_path,
      Path.takeWhile_append_dot hdot, String.ofList_toList]

/-- Whether a declared attribute is a key is seen in its name. -/
theorem isKeyName_path {naming : Naming} (hmodifier : '.' ∉ naming.keyModifier.toList) :
    naming.isKeyName (a.pathBelow e.path) = naming.isKeyName (Text.lower a.name) :=
  Naming.isKeyName_of_append hmodifier (h.toList_path ha)

end EntityDecl.IsPlain

end EntityLayout
