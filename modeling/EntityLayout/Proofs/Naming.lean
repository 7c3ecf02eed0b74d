/-
# Names of keys

A name is that of a key by its ending, which begins with an underscore and has no dot unless the
modifier has one.  Settings with such a modifier are refused.

* `Naming.isKeyName_lower_dotted`: a dotted path is that of a key if what follows a dot is.
* `Settings.agreesOnKeys_ofText`: **tables and structures agree on which attributes are keys.**
* `Naming.roleStem`: what a role is called without the ending of a key.
* `Naming.roleKeyColumn_twice_iff`: **the key column of a role may be declared as the role itself,
  if the modifier is in small letters, and only then.**
-/
import EntityLayout.Proofs.Diagram.Consistency
import EntityLayout.Proofs.Diagram.Paths
import EntityLayout.Proofs.Text.Endings
import EntityLayout.Settings

namespace EntityLayout

namespace Naming

variable {n : Naming}

/-! ## 1. The ending of keys -/

theorem toList_keySuffix (n : Naming) :
    n.keySuffix.toList = '_' :: (n.keyModifier.toList ++ ['i', 'd']) := by
  simp [keySuffix]

/-- What stands before a text does not matter to whether its small form is the name of a key. -/
theorem isKeyName_lowerChars (n : Naming) (name before before' : List Char) :
    n.isKeyName (String.ofList (Text.lowerChars before name)) =
      n.isKeyName (String.ofList (Text.lowerChars before' name)) := by
  rw [Bool.eq_iff_iff]
  simp only [isKeyName, Bool.or_eq_true, List.isSuffixOf_iff_suffix, String.toList_ofList,
    toList_keySuffix]
  exact or_congr Text.suffix_lowerChars_iff Text.suffix_lowerChars_iff

/-- **Whether a dotted path is that of a key is seen in what follows a dot**, if the modifier has
no dot. -/
theorem isKeyName_lower_dotted (h : '.' ∉ n.keyModifier.toList) (path name : String) :
    n.isKeyName (Text.lower (path ++ "." ++ name)) = n.isKeyName (Text.lower name) := by
  obtain ⟨front, hfront⟩ := Text.exists_lowerChars_append ('.' :: name.toList) path.toList []
  have hlower : (Text.lower (path ++ "." ++ name)).toList = front ++
      '.' :: (String.ofList (Text.lowerChars ('.' :: (path.toList.reverse ++ []))
        name.toList)).toList := by
    rw [String.toList_ofList, ← Text.lowerChars_dot, ← hfront, Text.toList_lower]
    simp
  rw [isKeyName_of_append h hlower, Text.lower]
  exact n.isKeyName_lowerChars _ _ _

end Naming

/-! ## 2. Keys under settings -/

namespace Settings

/-- The names of accepted settings have no fault. -/
theorem fault?_of_ofText {text : String} {s : Settings} (h : ofText text = .ok s) :
    s.naming.fault? = none := by
  unfold ofText at h
  split at h
  · exact nomatch h
  · next t _ =>
    split at h
    · exact nomatch h
    · next hfault =>
      obtain rfl := Except.ok.inj h
      exact hfault

/-- The modifier of accepted settings has no dot. -/
theorem dot_notMem_keyModifier {text : String} {s : Settings} (h : ofText text = .ok s) :
    '.' ∉ s.naming.keyModifier.toList := by
  have hfault := fault?_of_ofText h
  unfold Naming.fault? at hfault
  split at hfault
  · exact nomatch hfault
  split at hfault
  · exact nomatch hfault
  split at hfault
  · exact nomatch hfault
  · next hdot => simpa using hdot

/-- **Tables and structures agree on which attributes are keys**, whatever settings were accepted.
Tables leave out an attribute by its path, and structures rename one by its own name in small
letters; for any path and any name the two tests come out alike, so they do for every attribute of
a diagram. -/
theorem agreesOnKeys_ofText {text : String} {s : Settings} (h : ofText text = .ok s) :
    (∀ path name : String, s.naming.isKeyName (Text.lower (path ++ "." ++ name)) =
      s.naming.isKeyName (Text.lower name)) ∧
      ∀ (schema : SchemaDecl) (d : Diagram), Diagram.ofDecl schema = .ok d →
        ∀ a, .attr a ∈ d.nodes →
          s.naming.isKeyName a.path = s.naming.isKeyName (Text.lower a.name) := by
  have hdotted := Naming.isKeyName_lower_dotted (dot_notMem_keyModifier h)
  refine ⟨hdotted, fun schema d hd a ha => ?_⟩
  obtain ⟨-, rfl⟩ := Diagram.ofDecl_eq_ok.mp hd
  obtain ⟨above, parent, x, -, hax⟩ := SchemaDecl.exists_declaresAt ha
  rw [hax]
  exact hdotted above x.name

/-- Under the modifier `internal_`: a key behind a name that ends with a sigma, a name that would
be a key without the dot before it, and the attributes of rooms. -/
theorem agreesOnKeys_internal : ∃ s d,
    ofText "[naming]\nkey_modifier = \"internal_\"\n" = .ok s ∧
      Diagram.ofDecl .rooms = .ok d ∧
        (s.naming.isKeyName (Text.lower ("Οδός" ++ "." ++ "ΟΔΟΣ_Internal_ID")) =
            s.naming.isKeyName (Text.lower "ΟΔΟΣ_Internal_ID") ∧
          s.naming.isKeyName (Text.lower "ΟΔΟΣ_Internal_ID") = true) ∧
        (s.naming.isKeyName (Text.lower ("key_" ++ "." ++ "id")) =
            s.naming.isKeyName (Text.lower "id") ∧
          s.naming.isKeyName (Text.lower "id") = false) ∧
        ∀ a, .attr a ∈ d.nodes →
          s.naming.isKeyName a.path = s.naming.isKeyName (Text.lower a.name) := by
  have heval : (ofText "[naming]\nkey_modifier = \"internal_\"\n").toOption.any (fun s =>
      s.naming.isKeyName (Text.lower "ΟΔΟΣ_Internal_ID") &&
        !s.naming.isKeyName (Text.lower "id")) = true := by decide +kernel
  obtain ⟨s, hs, heval⟩ := exists_of_any heval
  obtain ⟨d, hd⟩ := exists_of_isOk (show (Diagram.ofDecl .rooms).isOk = true by decide +kernel)
  obtain ⟨hkey, hid⟩ := Bool.and_eq_true_iff.mp heval
  obtain ⟨hnames, hdiagram⟩ := agreesOnKeys_ofText hs
  exact ⟨s, d, hs, hd, ⟨hnames _ _, hkey⟩, ⟨hnames _ _, by simpa using hid⟩, hdiagram _ d hd⟩

end Settings

/-! ## 3. Keys named after roles -/

namespace Naming

variable {n : Naming}

theorem withoutSuffix?_eq_some {suffix s stem : String} :
    withoutSuffix? suffix s = some stem ↔ s = stem ++ suffix := by
  unfold withoutSuffix?
  split
  · next h =>
    obtain ⟨front, hfront⟩ := List.isSuffixOf_iff_suffix.mp h
    rw [← hfront, List.length_append, Nat.add_sub_cancel, List.take_left, Option.some.injEq]
    constructor
    · rintro rfl
      rw [← String.toList_inj, String.toList_append, String.toList_ofList, hfront]
    · rintro rfl
      rw [String.toList_append] at hfront
      rw [List.append_cancel_right hfront, String.ofList_toList]
  · next h =>
    refine iff_of_false nofun fun hs => h ?_
    rw [hs, String.toList_append]
    exact List.isSuffixOf_iff_suffix.mpr (List.suffix_append _ _)

/-- What a role in small letters is called without the ending of a key. -/
def roleStem (n : Naming) (role : String) : String :=
  ((withoutSuffix? n.keySuffix role).orElse fun _ => withoutSuffix? "_id" role).getD role

theorem roleKeyColumn_eq (n : Naming) (role : String) :
    n.roleKeyColumn role = n.keyColumn (n.roleStem (Text.lower role)) := rfl

/-- The ending of keys is taken off, or else the plain one, or there is none. -/
theorem roleStem_cases (n : Naming) (role : String) : role = n.roleStem role ++ n.keySuffix ∨
    role = n.roleStem role ++ "_id" ∨ role = n.roleStem role := by
  unfold roleStem
  cases hown : withoutSuffix? n.keySuffix role with
  | some stem => exact .inl (withoutSuffix?_eq_some.mp hown)
  | none =>
    cases hplain : withoutSuffix? "_id" role with
    | some stem => exact .inr (.inl (withoutSuffix?_eq_some.mp hplain))
    | none => exact .inr (.inr rfl)

/-- The ending of keys goes first. -/
theorem roleStem_keyColumn (n : Naming) (stem : String) : n.roleStem (n.keyColumn stem) = stem := by
  have hown : withoutSuffix? n.keySuffix (n.keyColumn stem) = some stem :=
    withoutSuffix?_eq_some.mpr rfl
  rw [roleStem, hown]
  rfl

theorem isSmall_roleStem {role : String} (h : ∀ c ∈ role.toList, Text.IsSmall c) :
    ∀ c ∈ (n.roleStem role).toList, Text.IsSmall c := by
  intro c hc
  apply h
  rcases n.roleStem_cases role with hrole | hrole | hrole
  · rw [hrole, String.toList_append]
    exact List.mem_append_left _ hc
  · rw [hrole, String.toList_append]
    exact List.mem_append_left _ hc
  · rwa [hrole]

/-- The ending of keys is in small letters if the modifier is. -/
theorem isSmall_keySuffix_iff :
    (∀ c ∈ n.keySuffix.toList, Text.IsSmall c) ↔ Text.lower n.keyModifier = n.keyModifier := by
  constructor
  · intro h
    apply String.toList_injective
    rw [Text.toList_lower, Text.lowerChars_of_isSmall]
    intro c hc
    refine h c ?_
    rw [toList_keySuffix]
    exact List.mem_cons_of_mem _ (List.mem_append_left _ hc)
  · intro h c hc
    have hmark : Text.lower "_id" = "_id" := by decide +kernel
    rw [toList_keySuffix, List.mem_cons, List.mem_append] at hc
    rcases hc with rfl | hc | hc
    · exact Text.isSmall_of_lower_eq hmark _ (by decide)
    · exact Text.isSmall_of_lower_eq h c hc
    · exact Text.isSmall_of_lower_eq hmark c (List.mem_cons_of_mem _ hc)

/-- The ending is found again in the small form of a key column if it is in small letters. -/
theorem roleStem_lower_keyColumn_iff {stem : String} (hstem : ∀ c ∈ stem.toList, Text.IsSmall c) :
    n.roleStem (Text.lower (n.keyColumn stem)) = stem ↔
      Text.lower n.keyModifier = n.keyModifier := by
  rw [← isSmall_keySuffix_iff]
  have hlower : (Text.lower (n.keyColumn stem)).toList =
      stem.toList ++ Text.lowerChars (stem.toList.reverse ++ []) n.keySuffix.toList := by
    rw [Text.toList_lower, keyColumn, String.toList_append,
      Text.lowerChars_append_of_isSmall _ _ _ hstem]
  constructor
  · intro h
    have hlength := Text.length_le_length_lowerChars n.keySuffix.toList (stem.toList.reverse ++ [])
    have hcases := n.roleStem_cases (Text.lower (n.keyColumn stem))
    rw [h] at hcases
    rcases hcases with hrole | hrole | hrole
    · -- the ending was found, so it is a part of a text in small letters
      intro c hc
      refine Text.isSmall_of_lower_eq (Text.lower_lower (n.keyColumn stem)) c ?_
      rw [hrole, String.toList_append]
      exact List.mem_append_right _ hc
    · -- the small form of the ending is the plain one, so there is no modifier
      rw [hrole, String.toList_append] at hlower
      rw [← List.append_cancel_left hlower, toList_keySuffix, List.length_cons,
        List.length_append, show "_id".toList.length = 3 from rfl] at hlength
      have hempty : n.keyModifier.toList = [] := by
        apply List.eq_nil_of_length_eq_zero
        simp only [List.length_cons, List.length_nil] at hlength
        omega
      rw [isSmall_keySuffix_iff, String.toList_eq_nil_iff.mp hempty]
      decide +kernel
    · -- nothing was taken off, but the ending is not empty
      rw [hrole] at hlower
      have hnil := List.self_eq_append_right.mp hlower
      rw [hnil, toList_keySuffix] at hlength
      simp at hlength
  · intro h
    rw [show Text.lower (n.keyColumn stem) = n.keyColumn stem from ?_, roleStem_keyColumn]
    apply String.toList_injective
    rw [hlower, Text.lowerChars_of_isSmall _ _ h, keyColumn, String.toList_append]

/-- **The key column of a role may be declared as the role itself if the modifier is in small
letters**, and under no other modifier, whatever the role. -/
theorem roleKeyColumn_twice_iff (n : Naming) (role : String) :
    n.roleKeyColumn (n.roleKeyColumn role) = n.roleKeyColumn role ↔
      Text.lower n.keyModifier = n.keyModifier := by
  have hstem : ∀ c ∈ (n.roleStem (Text.lower role)).toList, Text.IsSmall c :=
    isSmall_roleStem (Text.isSmall_of_lower_eq (Text.lower_lower role))
  rw [← roleStem_lower_keyColumn_iff hstem, roleKeyColumn_eq n (n.roleKeyColumn role),
    roleKeyColumn_eq n role, keyColumn, keyColumn, String.append_left_inj]

/-- **Under a modifier with a capital the key column of a role is no role of its own**: the ending
is not found again in small letters, and the modifier comes a second time. -/
theorem roleKeyColumn_twice_ne_internal : ∃ s,
    Settings.ofText "[naming]\nkey_modifier = \"Internal_\"\n" = .ok s ∧
      s.naming.roleKeyColumn "prereq_course" = "prereq_course_Internal_id" ∧
        s.naming.roleKeyColumn (s.naming.roleKeyColumn "prereq_course") =
          "prereq_course_internal_Internal_id" ∧
        s.naming.roleKeyColumn (s.naming.roleKeyColumn "prereq_course") ≠
          s.naming.roleKeyColumn "prereq_course" := by
  have heval : (Settings.ofText "[naming]\nkey_modifier = \"Internal_\"\n").toOption.any (fun s =>
      decide (s.naming.roleKeyColumn "prereq_course" = "prereq_course_Internal_id") &&
        decide (s.naming.roleKeyColumn "prereq_course_Internal_id" =
          "prereq_course_internal_Internal_id")) = true := by decide +kernel
  obtain ⟨s, hs, heval⟩ := exists_of_any heval
  obtain ⟨hfirst, hsecond⟩ := Bool.and_eq_true_iff.mp heval
  have hfirst := of_decide_eq_true hfirst
  have hsecond := of_decide_eq_true hsecond
  refine ⟨s, hs, hfirst, ?_, ?_⟩
  · rw [hfirst, hsecond]
  · rw [hfirst, hsecond]
    decide

end Naming

end EntityLayout
