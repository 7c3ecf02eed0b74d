/-
# Files in a tree

Where a path leads depends on the directories only.  So files that are written do not change
where paths lead, and a directory keeps all that is put into it.

* `FilePath.pieces_inside`: the path of a file goes on behind that of its directory.
* `FileTree.placeOf_inside_eq_ok`: the file lies in the directory that its path names.
* `FileTree.write_inside_eq_ok`: **what writing a file in a directory changes.**
* `FileTree.receives_putAll`: several files, and nothing but these.
* `FileTree.makeFrom_moves`: making directories changes no file.
-/
import EntityLayout.Files.Tree
import EntityLayout.Proofs.Outcome

namespace EntityLayout

/-! ## 1. Paths -/

namespace FilePath

theorem splitAtSlashes_ne_nil : ∀ cs : List Char, splitAtSlashes cs ≠ []
  | [] => List.cons_ne_nil _ _
  | c :: cs => by
    rw [splitAtSlashes]
    split
    · exact List.cons_ne_nil _ _
    · obtain ⟨piece, pieces, h⟩ := List.exists_cons_of_ne_nil (splitAtSlashes_ne_nil cs)
      rw [h]
      exact List.cons_ne_nil _ _

/-- A text is split at each of its slashes by itself. -/
theorem splitAtSlashes_append : ∀ cs ds : List Char,
    splitAtSlashes (cs ++ '/' :: ds) = splitAtSlashes cs ++ splitAtSlashes ds
  | [], ds => by simp [splitAtSlashes]
  | c :: cs, ds => by
    rw [List.cons_append, splitAtSlashes, splitAtSlashes, splitAtSlashes_append cs ds]
    obtain ⟨piece, pieces, h⟩ := List.exists_cons_of_ne_nil (splitAtSlashes_ne_nil cs)
    split <;> simp [h]

theorem splitAtSlashes_of_notMem : ∀ {cs : List Char}, '/' ∉ cs → splitAtSlashes cs = [cs]
  | [], _ => rfl
  | c :: cs, h => by
    rw [List.mem_cons, not_or] at h
    rw [splitAtSlashes, if_neg (Ne.symm h.1), splitAtSlashes_of_notMem h.2]
    rfl

/-- A name that a file can have: it has no slash and stands for no directory. -/
structure IsFileName (name : String) : Prop where
  slash : '/' ∉ name.toList
  nonempty : name ≠ ""
  here : name ≠ "."
  above : name ≠ ".."

instance (name : String) : Decidable (IsFileName name) :=
  decidable_of_iff ('/' ∉ name.toList ∧ name ≠ "" ∧ name ≠ "." ∧ name ≠ "..")
    ⟨fun ⟨hslash, hne, hhere, habove⟩ => ⟨hslash, hne, hhere, habove⟩,
      fun h => ⟨h.slash, h.nonempty, h.here, h.above⟩⟩

variable {directory file : String}

theorem pieces_append_slash (cs ds : List Char) : pieces (String.ofList (cs ++ '/' :: ds)) =
    pieces (String.ofList cs) ++ pieces (String.ofList ds) := by
  simp only [pieces, String.toList_ofList, splitAtSlashes_append, List.filter_append,
    List.map_append]

theorem IsFileName.pieces_eq (h : IsFileName file) : pieces file = [file] := by
  have hne : file.toList ≠ [] := mt String.toList_eq_nil_iff.mp h.nonempty
  rw [pieces, splitAtSlashes_of_notMem h.slash]
  simp [hne]

/-- Between the path of a directory and a file in it there is a slash, unless there is no path. -/
theorem inside_cases (directory file : String) : directory = "" ∧ inside directory file = file ∨
    ∃ cs, (inside directory file).toList = cs ++ '/' :: file.toList ∧
      (directory.toList = cs ∨ directory.toList = cs ++ ['/']) ∧ directory.toList ≠ [] := by
  by_cases hempty : directory = ""
  · exact .inl ⟨hempty, by rw [inside, hempty]; simp⟩
  have hne : directory.toList ≠ [] := mt String.toList_eq_nil_iff.mp hempty
  right
  by_cases hslash : directory.toList.getLast? = some '/'
  · obtain ⟨cs, hcs⟩ := List.getLast?_eq_some_iff.mp hslash
    exact ⟨cs, by rw [inside, if_pos (by simp [hslash])]; simp [hcs], .inr hcs, hne⟩
  · exact ⟨directory.toList, by rw [inside, if_neg (by simp [hslash, hempty])]; simp, .inl rfl, hne⟩

/-- **The path of a file goes on behind that of its directory.** -/
theorem pieces_inside (h : IsFileName file) :
    pieces (inside directory file) = pieces directory ++ [file] := by
  rcases inside_cases directory file with ⟨rfl, heq⟩ | ⟨cs, hinside, hcs | hcs, -⟩
  · rw [heq, h.pieces_eq]
    rfl
  · rw [← String.ofList_toList (s := inside directory file), hinside, pieces_append_slash,
      String.ofList_toList, h.pieces_eq, ← hcs, String.ofList_toList]
  · have hdirectory : pieces directory = pieces (String.ofList cs) := by
      rw [← String.ofList_toList (s := directory), hcs, pieces_append_slash]
      exact List.append_nil _
    rw [← String.ofList_toList (s := inside directory file), hinside, pieces_append_slash,
      String.ofList_toList, h.pieces_eq, hdirectory]

theorem isAbsolute_inside (h : IsFileName file) :
    isAbsolute (inside directory file) = isAbsolute directory := by
  rcases inside_cases directory file with ⟨rfl, heq⟩ | ⟨cs, hinside, hcs, hne⟩
  · rw [heq, isAbsolute, isAbsolute, decide_eq_decide]
    refine iff_of_false (fun hhead => ?_) nofun
    exact h.slash (List.mem_of_mem_head? hhead)
  · rw [isAbsolute, isAbsolute, hinside]
    rcases hcs with hcs | hcs <;> rw [hcs] at hne ⊢ <;> cases cs <;> simp_all

theorem getLast?_inside (directory : String) (h : IsFileName file) :
    (inside directory file).toList ≠ [] ∧ (inside directory file).toList.getLast? ≠ some '/' := by
  have hne : file.toList ≠ [] := mt String.toList_eq_nil_iff.mp h.nonempty
  have hlast : file.toList.getLast? ≠ some '/' := fun hlast =>
    h.slash (List.mem_of_getLast? hlast)
  rcases inside_cases directory file with ⟨rfl, heq⟩ | ⟨cs, hinside, -, -⟩
  · rw [heq]
    exact ⟨hne, hlast⟩
  · rw [hinside]
    refine ⟨by simp, ?_⟩
    rw [List.getLast?_append_of_ne_nil _ (List.cons_ne_nil _ _),
      List.getLast?_cons_of_ne_nil hne]
    exact hlast

end FilePath

/-! ## 2. Places -/

namespace FileTree

open FilePath (IsFileName)

variable {t t' : FileTree} {place place' : Place} {path directory file text : String}

theorem follow_append : ∀ (xs ys : List String) (place : Place),
    t.follow place (xs ++ ys) = t.follow place xs >>= fun place => t.follow place ys
  | [], _, _ => rfl
  | x :: xs, ys, place => by
    rw [List.cons_append, follow, follow]
    split
    · split
      · exact follow_append xs ys place
      split
      · exact follow_append xs ys place.dropLast
      · exact follow_append xs ys (place ++ [x])
    · split <;> rfl

/-- A name is followed inside a directory. -/
theorem follow_name_eq_ok (h : IsFileName file) : t.follow place [file] = .ok place' ↔
    t.hasDirectory place = true ∧ place' = place ++ [file] := by
  rw [follow]
  split
  · next hdirectory => simp [h.here, h.above, follow, hdirectory, eq_comm]
  · next hdirectory => split <;> simp [hdirectory]

/-- Where a path leads depends on the directories only. -/
theorem follow_congr (h : t'.directories = t.directories) : ∀ {names : List String}
    {place : Place}, t'.follow place names = .ok place' ↔ t.follow place names = .ok place'
  | [], _ => Iff.rfl
  | name :: names, place => by
    have hdirectory : t'.hasDirectory place = t.hasDirectory place := by
      rw [hasDirectory, hasDirectory, h]
    rw [follow, follow, hdirectory]
    split
    · split
      · exact follow_congr h
      split <;> exact follow_congr h
    · refine iff_of_false ?_ ?_ <;> split <;> nofun

/-- A path leads to a directory. -/
def LeadsTo (t : FileTree) (path : String) (place : Place) : Prop :=
  t.follow (if FilePath.isAbsolute path then [] else t.home) (FilePath.pieces path) = .ok place ∧
    t.hasDirectory place = true

theorem LeadsTo.unique (h : t.LeadsTo path place) (h' : t.LeadsTo path place') : place = place' :=
  Except.ok.inj (h.1.symm.trans h'.1)

theorem leadsTo_congr (hhome : t'.home = t.home) (hdirectories : t'.directories = t.directories) :
    t'.LeadsTo path place ↔ t.LeadsTo path place := by
  rw [LeadsTo, LeadsTo, hhome, follow_congr hdirectories, hasDirectory, hasDirectory, hdirectories]

/-- **A file lies in the directory that its path names.** -/
theorem placeOf_inside_eq_ok (h : IsFileName file) :
    t.placeOf (FilePath.inside directory file) = .ok place ↔
      ∃ outer, t.LeadsTo directory outer ∧ place = outer ++ [file] := by
  obtain ⟨hne, hlast⟩ := FilePath.getLast?_inside directory h
  have hempty : (FilePath.inside directory file).isEmpty = false := by
    simpa [String.isEmpty_iff] using mt String.toList_eq_nil_iff.mpr hne
  simp only [placeOf, hempty, Bool.false_eq_true, if_false, hlast, List.append_nil,
    FilePath.pieces_inside h, FilePath.isAbsolute_inside h, follow_append, bind_eq_ok,
    follow_name_eq_ok h, LeadsTo, and_assoc]

/-! ## 3. Operations -/

theorem read_eq_ok : t.read path = .ok text ↔ ∃ place, t.placeOf path = .ok place ∧
    t.hasDirectory place = false ∧ t.content? place = some text := by
  rw [read, bind_eq_ok]
  refine exists_congr fun place => and_congr_right fun _ => ?_
  cases t.hasDirectory place with
  | true => exact iff_of_false nofun fun h => nomatch h.1
  | false =>
    cases t.content? place with
    | none => exact iff_of_false nofun fun h => nomatch h.2
    | some found => simp [pure, Except.pure]

/-- Paths that lead to one place are read alike. -/
theorem read_congr {path' : String} (h : t.placeOf path = t.placeOf path') :
    t.read path = t.read path' := by
  rw [read, read, h]

/-- The tree with a file put at a place. -/
def put (t : FileTree) (place : Place) (text : String) : FileTree :=
  { t with files := putFile place text t.files }

theorem write_eq_ok : t.write path text = .ok t' ↔ ∃ place, t.placeOf path = .ok place ∧
    t.hasDirectory place = false ∧ t.hasDirectory place.dropLast = true ∧
      t' = t.put place text := by
  rw [write, bind_eq_ok]
  refine exists_congr fun place => and_congr_right fun _ => ?_
  cases t.hasDirectory place with
  | true => exact iff_of_false nofun fun h => nomatch h.1
  | false =>
    cases t.hasDirectory place.dropLast with
    | false => exact iff_of_false nofun fun h => nomatch h.2.1
    | true => simp [pure, Except.pure, put, eq_comm]

/-- **What writing a file in a directory changes**: it puts the file there. -/
theorem write_inside_eq_ok (h : IsFileName file) :
    t.write (FilePath.inside directory file) text = .ok t' ↔ ∃ outer, t.LeadsTo directory outer ∧
      t.hasDirectory (outer ++ [file]) = false ∧ t' = t.put (outer ++ [file]) text := by
  simp only [write_eq_ok, placeOf_inside_eq_ok h]
  constructor
  · rintro ⟨_, ⟨outer, houter, rfl⟩, hfree, -, rfl⟩
    exact ⟨outer, houter, hfree, rfl⟩
  · rintro ⟨outer, houter, hfree, rfl⟩
    exact ⟨_, ⟨outer, houter, rfl⟩, hfree, by rw [List.dropLast_concat]; exact houter.2, rfl⟩

theorem lookup_cons_eq {q p : Place} {old : String} {files : List (Place × String)} :
    ((q, old) :: files).lookup p = if p = q then some old else files.lookup p := by
  rw [List.lookup_cons]
  by_cases hp : p = q
  · simp [hp]
  · simp [hp, beq_eq_false_iff_ne.mpr hp]

@[simp] theorem content?_put (t : FileTree) (place : Place) (text : String) (p : Place) :
    (t.put place text).content? p = if p = place then some text else t.content? p := by
  have hfiles : ∀ files : List (Place × String), (putFile place text files).lookup p =
      if p = place then some text else files.lookup p := by
    intro files
    induction files with
    | nil => rw [putFile, lookup_cons_eq]
    | cons entry files ih =>
      obtain ⟨q, old⟩ := entry
      rw [putFile]
      by_cases hq : q = place
      · rw [if_pos hq, lookup_cons_eq, lookup_cons_eq, hq]
        by_cases hp : p = place
        · rw [if_pos hp, if_pos hp]
        · rw [if_neg hp, if_neg hp, if_neg hp]
      · rw [if_neg hq, lookup_cons_eq, lookup_cons_eq, ih]
        by_cases hp : p = place
        · rw [if_pos hp, if_neg (hp ▸ Ne.symm hq), if_pos hp]
        · rw [if_neg hp, if_neg hp]
  exact hfiles t.files

@[simp] theorem leadsTo_put : (t.put place text).LeadsTo path place' ↔ t.LeadsTo path place' :=
  leadsTo_congr rfl rfl

/-! ## 4. Directories -/

/-- Directories have been added to a tree, and nothing else. -/
structure Grows (t t' : FileTree) : Prop where
  home : t'.home = t.home
  directories : t.directories <+: t'.directories
  files : t'.files = t.files

theorem Grows.refl (t : FileTree) : t.Grows t := ⟨rfl, List.prefix_rfl, rfl⟩

theorem Grows.trans {t₁ t₂ t₃ : FileTree} (h : t₁.Grows t₂) (h' : t₂.Grows t₃) : t₁.Grows t₃ :=
  ⟨h'.home.trans h.home, h.directories.trans h'.directories, h'.files.trans h.files⟩

/-- Making one directory adds it, or changes nothing. -/
theorem makeDirectory_grows (t : FileTree) (path : String) :
    t.Grows (t.commit (t.makeDirectory path)).2 := by
  cases hmade : t.makeDirectory path with
  | error fault => exact .refl t
  | ok t' =>
    obtain ⟨place, -, hmade⟩ := bind_eq_ok.mp hmade
    cases hthere : t.hasDirectory place || (t.content? place).isSome with
    | true =>
      rw [hthere] at hmade
      exact nomatch hmade
    | false =>
      rw [hthere] at hmade
      cases houter : t.hasDirectory place.dropLast with
      | false =>
        rw [houter] at hmade
        exact nomatch hmade
      | true =>
        rw [houter] at hmade
        obtain rfl := pure_eq_ok.mp hmade
        exact ⟨rfl, List.prefix_append _ _, rfl⟩

/-- Whatever tree an action starts from is related to the one that it leaves. -/
def Moves {α : Type} (R : FileTree → FileTree → Prop) (act : StateM FileTree α) : Prop :=
  ∀ t : FileTree, R t (act.run t).2

section

variable {α β : Type} {R : FileTree → FileTree → Prop}

theorem Moves.pure [Std.Refl R] (a : α) : Moves R (pure a : StateM FileTree α) := fun t =>
  Std.Refl.refl t

theorem Moves.bind [IsTrans FileTree R] {act : StateM FileTree α} {next : α → StateM FileTree β}
    (h : Moves R act) (hnext : ∀ a, Moves R (next a)) : Moves R (act >>= next) := fun t =>
  IsTrans.trans _ _ _ (h t) (hnext _ (act.run t).2)

/-- An action that only looks at the tree. -/
theorem Moves.look [Std.Refl R] (look : FileTree → α) :
    Moves R (do return look (← get) : StateM FileTree α) := fun t => Std.Refl.refl t

end

instance : Std.Refl Grows := ⟨Grows.refl⟩

instance : IsTrans FileTree Grows := ⟨fun _ _ _ => Grows.trans⟩

theorem makeDirectory_moves (path : String) : Moves Grows (fileSystem.makeDirectory path) :=
  fun t => t.makeDirectory_grows path

theorem unlessThere_moves (path : String) (fault : FileFault) :
    Moves Grows (fileSystem.unlessThere path fault) := by
  refine .bind (.look fun t => t.isDirectory path) fun found => ?_
  split <;> exact .pure _

/-- **Making a directory with those around it changes no file.** -/
theorem makeFrom_moves (absolute : Bool) : ∀ pieces : List String,
    Moves Grows (fileSystem.makeFrom absolute pieces)
  | [] => .pure _
  | piece :: outer => by
    -- the directory is tried, then those around it are made, and then it is tried again
    refine .bind (makeDirectory_moves _) fun made => ?_
    split
    · exact .pure _
    · refine .bind (makeFrom_moves absolute outer) fun made => ?_
      split
      · exact .pure _
      · refine .bind (makeDirectory_moves _) fun made => ?_
        split
        · exact .pure _
        · exact unlessThere_moves _ _
    · exact unlessThere_moves _ _

/-! ## 5. Several files -/

/-- The tree with several files put into a directory. -/
def putAll (t : FileTree) (outer : Place) (files : List (String × String)) : FileTree :=
  files.foldl (fun t entry => t.put (outer ++ [entry.1]) entry.2) t

section

variable (t) (outer : Place) (files : List (String × String))

theorem home_putAll : (t.putAll outer files).home = t.home := by
  induction files generalizing t with
  | nil => rfl
  | cons entry files ih => exact ih (t.put _ _)

theorem directories_putAll : (t.putAll outer files).directories = t.directories := by
  induction files generalizing t with
  | nil => rfl
  | cons entry files ih => exact ih (t.put _ _)

/-- A file elsewhere is what it was. -/
theorem content?_putAll_of_ne {p : Place} (h : ∀ entry ∈ files, p ≠ outer ++ [entry.1]) :
    (t.putAll outer files).content? p = t.content? p := by
  induction files generalizing t with
  | nil => rfl
  | cons entry files ih =>
    rw [putAll, List.foldl_cons, ← putAll, ih _ fun e he => h e (List.mem_cons_of_mem _ he),
      content?_put, if_neg (h entry List.mem_cons_self)]

/-- **Files of different names are all there in the end.** -/
theorem content?_putAll (h : (files.map Prod.fst).Nodup) :
    ∀ entry ∈ files, (t.putAll outer files).content? (outer ++ [entry.1]) = some entry.2 := by
  induction files generalizing t with
  | nil => exact fun entry hentry => absurd hentry List.not_mem_nil
  | cons first files ih =>
    rw [List.map_cons] at h
    obtain ⟨hfirst, hrest⟩ := List.nodup_cons.mp h
    intro entry hentry
    rw [putAll, List.foldl_cons, ← putAll]
    rcases List.mem_cons.mp hentry with rfl | hentry
    · rw [content?_putAll_of_ne _ _ _ fun e he heq => ?_, content?_put, if_pos rfl]
      have hname : entry.1 = e.1 := List.singleton_inj.mp (List.append_cancel_left heq)
      exact hfirst (hname ▸ List.mem_map_of_mem he)
    · exact ih _ hrest entry hentry

end

/-- A directory of a tree has received files, and no other file of the tree has changed. -/
structure Receives (t t' : FileTree) (directory : String) (files : List (String × String)) :
    Prop where
  home : t'.home = t.home
  directories : t.directories <+: t'.directories
  contents : ∃ outer, t'.LeadsTo directory outer ∧
    (∀ entry ∈ files, t'.placeOf (FilePath.inside directory entry.1) = .ok (outer ++ [entry.1]) ∧
      t'.read (FilePath.inside directory entry.1) = .ok entry.2) ∧
    ∀ p, (∀ entry ∈ files, p ≠ outer ++ [entry.1]) → t'.content? p = t.content? p

/-- **Files that are put into a directory, after more directories were made, are received.** -/
theorem receives_putAll {t₁ : FileTree} {outer : Place} (files : List (String × String))
    (hgrows : t.Grows t₁) (hleads : t₁.LeadsTo directory outer)
    (hnames : ∀ entry ∈ files, IsFileName entry.1)
    (hfree : ∀ entry ∈ files, t₁.hasDirectory (outer ++ [entry.1]) = false)
    (hnodup : (files.map Prod.fst).Nodup) :
    t.Receives (t₁.putAll outer files) directory files where
  home := (t₁.home_putAll outer files).trans hgrows.home
  directories := t₁.directories_putAll outer files ▸ hgrows.directories
  contents := by
    have hdirectories := t₁.directories_putAll outer files
    have hleads' : (t₁.putAll outer files).LeadsTo directory outer :=
      (leadsTo_congr (t₁.home_putAll outer files) hdirectories).mpr hleads
    refine ⟨outer, hleads', fun entry hentry => ?_, fun p hp => ?_⟩
    · have hplace := (placeOf_inside_eq_ok (hnames entry hentry)).mpr ⟨outer, hleads', rfl⟩
      have hcontent := t₁.content?_putAll outer files hnodup entry hentry
      refine ⟨hplace, read_eq_ok.mpr ⟨_, hplace, ?_, hcontent⟩⟩
      rw [hasDirectory, hdirectories]
      exact hfree entry hentry
    · rw [content?_putAll_of_ne _ _ _ hp, content?, content?, hgrows.files]

end FileTree

end EntityLayout
