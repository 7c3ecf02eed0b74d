/-
# Registers as lists of entries

A register is its list of entries, and inserting entries one after another builds it.

* `ofList_entries`: inserting the entries of a register in order gives the register.
* `entries_eq_filterMap`: a register whose names stand in the order of a list is found by
  looking up the names of that list in turn.
* `Fills`: a register is filled by going through a list of items, each of which may add a
  value that depends on the values before it.
* `Fills.reorder`: in what order the items come does not matter if what they read comes first.
-/
import EntityLayout.Register
import Mathlib.Data.List.Basic
import Mathlib.Data.List.Nodup

namespace EntityLayout.Register

variable {α : Type}

/-! ## 1. Entries -/

@[ext] theorem ext_entries {r s : Register α} (h : r.entries = s.entries) : r = s := by
  cases r
  cases s
  cases h
  rfl

theorem mem_names {r : Register α} {name : String} :
    name ∈ r.names ↔ ∃ a, (name, a) ∈ r.entries := by
  simp [names]

theorem find?_eq_some {name : String} {a : α} : ∀ {es : List (String × α)},
    (es.map Prod.fst).Nodup → (find? name es = some a ↔ (name, a) ∈ es)
  | [], _ => by simp [find?]
  | (k, b) :: es, h => by
    obtain ⟨hk, h⟩ := List.nodup_cons.mp h
    rw [find?, List.mem_cons, ← find?_eq_some h]
    by_cases e : k = name
    · subst e
      have hnone : find? k es ≠ some a := fun hf =>
        hk (List.mem_map.mpr ⟨(k, a), (find?_eq_some h).mp hf, rfl⟩)
      simp [hnone, eq_comm]
    · have e' : ¬name = k := fun h => e h.symm
      simp [e, e']

/-- A name has the value of its entry. -/
theorem get?_eq_some {r : Register α} {name : String} {a : α} :
    r.get? name = some a ↔ (name, a) ∈ r.entries :=
  find?_eq_some r.nodup

theorem get?_eq_none {r : Register α} {name : String} : r.get? name = none ↔ name ∉ r.names := by
  rw [mem_names, Option.eq_none_iff_forall_ne_some]
  simp [get?_eq_some]

theorem contains_iff {r : Register α} {name : String} : r.contains name = true ↔ name ∈ r.names := by
  rw [contains, Option.isSome_iff_ne_none, ne_eq, get?_eq_none, not_not]

/-! ## 2. Insertions -/

/-- A new name goes behind the others. -/
theorem entries_insert {r : Register α} {name : String} {a : α} (h : name ∉ r.names) :
    (r.insert name a).entries = r.entries ++ [(name, a)] := by
  have hput : ∀ es : List (String × α), name ∉ es.map Prod.fst →
      put name a es = es ++ [(name, a)] := by
    intro es
    induction es with
    | nil => intro _; rfl
    | cons e es ih =>
      intro h
      rw [List.map_cons, List.mem_cons, not_or] at h
      rw [put, if_neg (Ne.symm h.1), ih h.2, List.cons_append]
  exact hput r.entries h

theorem foldl_insert : ∀ (es : List (String × α)) (r : Register α),
    ((r.entries ++ es).map Prod.fst).Nodup →
      (es.foldl (fun r e => r.insert e.1 e.2) r).entries = r.entries ++ es
  | [], r, _ => by simp
  | e :: es, r, h => by
    have hnew : e.1 ∉ r.names := by
      rw [List.map_append, List.nodup_append] at h
      exact fun he => h.2.2 _ he _ (by simp) rfl
    have hinsert := entries_insert (a := e.2) hnew
    rw [List.foldl_cons, foldl_insert es _ (by rw [hinsert]; simpa using h), hinsert]
    simp

/-- **Inserting the entries of a register gives the register.** -/
theorem ofList_entries (r : Register α) : ofList r.entries = r :=
  ext_entries (by
    have h := foldl_insert r.entries empty (by simpa [empty] using r.nodup)
    simpa [ofList, empty] using h)

theorem mem_put {name : String} {a : α} {e : String × α} : ∀ {es : List (String × α)},
    e ∈ put name a es → e = (name, a) ∨ e ∈ es
  | [], h => .inl (List.mem_singleton.mp h)
  | (k, b) :: es, h => by
    rw [put] at h
    split at h
    · next hk => exact hk ▸ (List.mem_cons.mp h).imp_right (List.mem_cons_of_mem _)
    · rcases List.mem_cons.mp h with rfl | h
      · exact .inr List.mem_cons_self
      · exact (mem_put h).imp_right (List.mem_cons_of_mem _)

/-- A register has no entries but those that were inserted. -/
theorem mem_of_mem_ofList {e : String × α} {es : List (String × α)}
    (h : e ∈ (ofList es).entries) : e ∈ es := by
  have hfold : ∀ (es : List (String × α)) (r : Register α),
      e ∈ (es.foldl (fun r e => r.insert e.1 e.2) r).entries → e ∈ r.entries ∨ e ∈ es := by
    intro es
    induction es with
    | nil => exact fun r h => .inl h
    | cons x es ih =>
      intro r h
      rcases ih _ h with h | h
      · exact (mem_put h).elim (fun hx => .inr (hx ▸ List.mem_cons_self)) .inl
      · exact .inr (List.mem_cons_of_mem _ h)
  exact (hfold es empty h).resolve_left List.not_mem_nil

/-! ## 3. Names in the order of a list -/

/-- Entries whose names stand in the order of a list are found by looking up that list. -/
theorem eq_filterMap_of_sublist {es : List (String × α)} {ks : List String} {g : String → Option α}
    (h : (es.map Prod.fst).Sublist ks) (hn : ks.Nodup) (hg : ∀ e ∈ es, g e.1 = some e.2)
    (hnone : ∀ k ∈ ks, k ∉ es.map Prod.fst → g k = none) :
    es = ks.filterMap fun k => (g k).map fun a => (k, a) := by
  generalize hnames : es.map Prod.fst = names at h hnone
  induction h generalizing es with
  | slnil => rw [List.map_eq_nil_iff.mp hnames, List.filterMap_nil]
  | cons k hsub ih =>
    obtain ⟨hk, hn⟩ := List.nodup_cons.mp hn
    have hknone : g k = none := hnone k List.mem_cons_self fun hm => hk (hsub.subset hm)
    rw [List.filterMap_cons, hknone]
    exact ih hn hg hnames fun k' hk' => hnone k' (List.mem_cons_of_mem _ hk')
  | cons_cons k hsub ih =>
    obtain ⟨e, es, rfl, rfl, htail⟩ := List.map_eq_cons_iff.mp hnames
    obtain ⟨hk, hn⟩ := List.nodup_cons.mp hn
    rw [List.filterMap_cons, hg e List.mem_cons_self]
    refine congrArg (e :: ·) (ih hn (fun e he => hg e (List.mem_cons_of_mem _ he)) htail ?_)
    intro k' hk' hnot
    refine hnone k' (List.mem_cons_of_mem _ hk') ?_
    rw [List.mem_cons, not_or]
    exact ⟨fun he => hk (he ▸ hk'), hnot⟩

/-- **A register whose names stand in the order of a list** is what the list looks up. -/
theorem entries_eq_filterMap {r : Register α} {ks : List String} (h : r.names.Sublist ks)
    (hn : ks.Nodup) : r.entries = ks.filterMap fun k => (r.get? k).map fun a => (k, a) :=
  eq_filterMap_of_sublist h hn (fun _ he => get?_eq_some.mpr he) fun _ _ hk =>
    get?_eq_none.mpr hk

/-- The entries of a register are its names with their values. -/
theorem entries_eq_map (r : Register α) (default : α) :
    r.entries = r.names.map fun k => (k, (r.get? k).getD default) := by
  rw [names, List.map_map]
  refine (List.map_id _).symm.trans (List.map_congr_left fun e he => ?_)
  have hget : r.get? e.1 = some e.2 := get?_eq_some.mpr he
  simp [hget]

/-! ## 4. Filling a register -/

/-- Every value of the one register is a value of the other. -/
def Within (r s : Register α) : Prop := ∀ (name : String) (a : α),
  r.get? name = some a → s.get? name = some a

theorem within_insert {r : Register α} {name : String} {a : α} (h : name ∉ r.names) :
    r.Within (r.insert name a) := by
  intro key b hb
  rw [get?_insert, if_neg, hb]
  rintro rfl
  exact nomatch hb.symm.trans (get?_eq_none.mpr h)

/-- The register with the value of an item, if it has one. -/
def extend (r : Register α) (name : String) : Option α → Register α
  | some a => r.insert name a
  | none => r

theorem names_extend {r : Register α} {name : String} {o : Option α} (h : name ∉ r.names) :
    (r.extend name o).names = r.names ++ (o.map fun _ => name).toList := by
  cases o with
  | none => simp [extend]
  | some a => simp [extend, names_insert, h]

theorem within_extend {r : Register α} {name : String} {o : Option α} (h : name ∉ r.names) :
    r.Within (r.extend name o) := by
  cases o with
  | none => exact fun _ _ ha => ha
  | some a => exact within_insert h

theorem get?_extend {r : Register α} {name : String} {o : Option α} (h : name ∉ r.names) :
    (r.extend name o).get? name = o := by
  cases o with
  | none => exact get?_eq_none.mpr h
  | some a => rw [extend, get?_insert, if_pos rfl]

variable {ι : Type} {key : ι → String} {value : Register α → ι → Option α → Prop}
  {r s : Register α} {x : ι} {xs : List ι}

/-- Going through the items from `r` on gives `s`: each item gets the value, or none, that
`value` allows it after the items before it. -/
def Fills (key : ι → String) (value : Register α → ι → Option α → Prop) :
    List ι → Register α → Register α → Prop
  | [], r, s => s = r
  | x :: xs, r, s => ∃ o, value r x o ∧ Fills key value xs (r.extend (key x) o) s

/-- An item of a new name leaves the names behind it new. -/
theorem nodup_extend {o : Option α} (h : (r.names ++ (x :: xs).map key).Nodup) :
    key x ∉ r.names ∧ ((r.extend (key x) o).names ++ xs.map key).Nodup := by
  have hx : key x ∉ r.names := fun hx =>
    (List.nodup_append.mp h).2.2 _ hx _ List.mem_cons_self rfl
  refine ⟨hx, ?_⟩
  rw [names_extend hx, List.append_assoc]
  refine h.sublist ((List.Sublist.refl _).append ?_)
  cases o with
  | none => exact List.sublist_cons_self _ _
  | some a => exact List.Sublist.refl _

/-- The names stand in the order of the items. -/
theorem Fills.names_sublist : ∀ {xs : List ι} {r : Register α}, Fills key value xs r s →
    (r.names ++ xs.map key).Nodup → s.names.Sublist (r.names ++ xs.map key)
  | [], r, h, _ => by
    obtain rfl : s = r := h
    simp
  | x :: xs, r, ⟨o, _, h⟩, hnew => by
    obtain ⟨hx, hnew⟩ := nodup_extend (o := o) hnew
    refine (h.names_sublist hnew).trans ?_
    rw [names_extend hx, List.append_assoc]
    refine (List.Sublist.refl _).append ?_
    cases o with
    | none => exact List.sublist_cons_self _ _
    | some a => exact List.Sublist.refl _

/-- Where it is settled which items get a value, these are the names. -/
theorem Fills.names_eq (keep : ι → Bool)
    (hkeep : ∀ {r x o}, value r x o → o.isSome = keep x) : ∀ {xs : List ι} {r : Register α},
      Fills key value xs r s → (r.names ++ xs.map key).Nodup →
        s.names = r.names ++ (xs.filter keep).map key
  | [], r, h, _ => by
    obtain rfl : s = r := h
    simp
  | x :: xs, r, ⟨o, hvalue, h⟩, hnew => by
    obtain ⟨hx, hnew⟩ := nodup_extend (o := o) hnew
    rw [h.names_eq keep hkeep hnew, names_extend hx, List.append_assoc, List.filter_cons,
      ← hkeep hvalue]
    cases o <;> simp

/-- Values once given stay. -/
theorem Fills.within : ∀ {xs : List ι} {r : Register α}, Fills key value xs r s →
    (r.names ++ xs.map key).Nodup → r.Within s
  | [], r, h, _ => by
    obtain rfl : s = r := h
    exact fun _ _ ha => ha
  | x :: xs, r, ⟨o, _, h⟩, hnew => by
    obtain ⟨hx, hnew⟩ := nodup_extend (o := o) hnew
    exact fun _ _ ha => h.within hnew _ _ (within_extend hx _ _ ha)

/-- **Every item has the value that it was given after the items before it.** -/
theorem Fills.get? {after : List ι} : ∀ {before : List ι} {r : Register α},
    Fills key value (before ++ x :: after) r s →
      (r.names ++ (before ++ x :: after).map key).Nodup →
        ∃ r', Fills key value before r r' ∧ r'.Within s ∧ value r' x (s.get? (key x))
  | [], r, ⟨o, hvalue, h⟩, hnew => by
    obtain ⟨hx, hnew'⟩ := nodup_extend (o := o) hnew
    have hwithin := h.within hnew'
    refine ⟨r, rfl, fun _ _ ha => hwithin _ _ (within_extend hx _ _ ha), ?_⟩
    have hget : s.get? (key x) = o := by
      cases o with
      | some a => exact hwithin _ _ (get?_extend hx)
      | none =>
        refine get?_eq_none.mpr fun hs => ?_
        have hmem := (h.names_sublist hnew').subset hs
        rw [extend, List.mem_append] at hmem
        refine hmem.elim hx fun hxs => ?_
        exact (List.nodup_cons.mp (List.nodup_append.mp hnew).2.1).1 hxs
    rwa [hget]
  | y :: before, r, ⟨o, hvalue, h⟩, hnew => by
    obtain ⟨r', hbefore, hwithin, hx⟩ := h.get? (nodup_extend (o := o) hnew).2
    exact ⟨r', ⟨o, hvalue, hbefore⟩, hwithin, hx⟩

/-- An item has its value by values that have not changed since. -/
theorem Fills.get?_of_mem (h : Fills key value xs r s) (hnew : (r.names ++ xs.map key).Nodup)
    (hx : x ∈ xs) : ∃ r' : Register α, r'.Within s ∧ value r' x (s.get? (key x)) := by
  obtain ⟨before, after, rfl⟩ := List.append_of_mem hx
  obtain ⟨r', -, hwithin, hvalue⟩ := h.get? hnew
  exact ⟨r', hwithin, hvalue⟩

/-- What holds of the values that are given holds of all values in the end. -/
theorem Fills.forall_mem {P : α → Prop} : ∀ {xs : List ι} {r : Register α},
    Fills key value xs r s → (r.names ++ xs.map key).Nodup →
      (∀ {r x a}, x ∈ xs → (∀ e ∈ r.entries, P e.2) → value r x (some a) → P a) →
        (∀ e ∈ r.entries, P e.2) → ∀ e ∈ s.entries, P e.2
  | [], r, h, _, _, hr => by
    obtain rfl : s = r := h
    exact hr
  | x :: xs, r, ⟨o, hvalue, h⟩, hnew, hstep, hr => by
    obtain ⟨hx, hnew⟩ := nodup_extend (o := o) hnew
    refine h.forall_mem hnew (fun hy => hstep (List.mem_cons_of_mem _ hy)) ?_
    cases o with
    | none => exact hr
    | some a =>
      intro e he
      rw [extend, entries_insert hx, List.mem_append, List.mem_singleton] at he
      rcases he with he | rfl
      · exact hr e he
      · exact hstep List.mem_cons_self hr hvalue

/-! ## 5. The order of items -/

theorem Fills.append_iff {ys : List ι} : ∀ {xs : List ι} {r : Register α},
    Fills key value (xs ++ ys) r s ↔ ∃ m, Fills key value xs r m ∧ Fills key value ys m s
  | [], r => ⟨fun h => ⟨r, rfl, h⟩, fun ⟨_, hm, h⟩ => hm ▸ h⟩
  | x :: xs, r => by
    constructor
    · rintro ⟨o, hvalue, h⟩
      obtain ⟨m, hxs, hys⟩ := Fills.append_iff.mp h
      exact ⟨m, ⟨o, hvalue, hxs⟩, hys⟩
    · rintro ⟨m, ⟨o, hvalue, hxs⟩, hys⟩
      exact ⟨o, hvalue, Fills.append_iff.mpr ⟨m, hxs, hys⟩⟩

theorem get?_extend_of_ne {name other : String} {o : Option α} (h : name ≠ other) :
    (r.extend other o).get? name = r.get? name := by
  cases o with
  | none => rfl
  | some a => rw [extend, get?_insert, if_neg h]

/-- Other items leave a name as it was. -/
theorem Fills.get?_of_notMem {name : String} : ∀ {xs : List ι} {r : Register α},
    Fills key value xs r s → name ∉ xs.map key → s.get? name = r.get? name
  | [], _, h, _ => by rw [show s = _ from h]
  | x :: xs, r, ⟨o, _, h⟩, hname => by
    rw [List.map_cons, List.mem_cons, not_or] at hname
    rw [h.get?_of_notMem hname.2, get?_extend_of_ne hname.1]

/-- Every item stands behind the items whose values it reads, which are given by name. -/
def IsOrdered (key : ι → String) (reads : ι → List String) (xs : List ι) : Prop :=
  ∀ x ∈ xs, ∃ before after, xs = before ++ x :: after ∧ ∀ p ∈ reads x, p ∈ before.map key

variable {reads : ι → List String} {ys : List ι}

/-- Where no two items share a name, an item stands in one place only. -/
theorem IsOrdered.mem_of_split (h : IsOrdered key reads xs) (hn : (xs.map key).Nodup)
    {before after : List ι} (hsplit : xs = before ++ x :: after) :
    ∀ p ∈ reads x, p ∈ before.map key := by
  obtain ⟨before', after', hsplit', hreads⟩ := h x (by simp [hsplit])
  have hnodup : (before ++ x :: after).Nodup := hsplit ▸ List.Nodup.of_map key hn
  have hnodup' : (before' ++ x :: after').Nodup := hsplit' ▸ List.Nodup.of_map key hn
  rw [List.nodup_append, List.nodup_cons] at hnodup hnodup'
  have hbefore : x ∉ before := fun hm => hnodup.2.2 x hm x List.mem_cons_self rfl
  obtain ⟨rfl, -⟩ := (List.append_cons_inj_of_notMem hbefore hnodup.2.1.1).mp
    (hsplit.symm.trans hsplit')
  exact hreads

/-- **What an item reads is as it is in the end.** -/
theorem Fills.exists_value (h : Fills key value xs .empty s) (hn : (xs.map key).Nodup)
    (hxs : IsOrdered key reads xs) (hx : x ∈ xs) :
    ∃ r, value r x (s.get? (key x)) ∧ ∀ p ∈ reads x, r.get? p = s.get? p := by
  obtain ⟨before, after, rfl, hreads⟩ := hxs x hx
  obtain ⟨r, hbefore, o, hvalue, hafter⟩ := Fills.append_iff.mp h
  rw [List.map_append, List.map_cons, List.nodup_append, List.nodup_cons] at hn
  obtain ⟨-, ⟨hfresh, -⟩, hapart⟩ := hn
  have hnew : key x ∉ before.map key := fun hm => hapart _ hm _ List.mem_cons_self rfl
  have hget : s.get? (key x) = o := by
    rw [hafter.get?_of_notMem hfresh]
    refine get?_extend (get?_eq_none.mp ?_)
    rw [hbefore.get?_of_notMem hnew]
    rfl
  refine ⟨r, hget ▸ hvalue, fun p hp => ?_⟩
  have hmem := hreads p hp
  have hne : p ≠ key x := fun e => hnew (e ▸ hmem)
  rw [hafter.get?_of_notMem fun hm => hapart p hmem p (List.mem_cons_of_mem _ hm) rfl,
    get?_extend_of_ne hne]

section

variable {value' : Register α → ι → Option α → Prop} (hn : (ys.map key).Nodup)
  (hys : IsOrdered key reads ys)
  (hvalue : ∀ y ∈ ys, ∀ r : Register α, (∀ p ∈ reads y, r.get? p = s.get? p) →
    value' r y (s.get? (key y)))

include hn hys hvalue

/-- Items can be gone through as long as what they read is as it is in a given register. -/
theorem exists_fills_from : ∀ (rest front : List ι) (r : Register α), ys = front ++ rest →
    (∀ y ∈ front, r.get? (key y) = s.get? (key y)) → (∀ y ∈ rest, key y ∉ r.names) →
      ∃ s', Fills key value' rest r s' ∧ ∀ y ∈ ys, s'.get? (key y) = s.get? (key y)
  | [], front, r, hsplit, hfront, _ => by
    rw [List.append_nil] at hsplit
    exact ⟨r, rfl, hsplit ▸ hfront⟩
  | y :: rest, front, r, hsplit, hfront, hnew => by
    have hreads : ∀ p ∈ reads y, r.get? p = s.get? p := by
      intro p hp
      obtain ⟨x, hx, rfl⟩ := List.mem_map.mp (hys.mem_of_split hn hsplit p hp)
      exact hfront x hx
    have hy := hvalue y (by simp [hsplit]) r hreads
    have hnodup := hn
    rw [hsplit, List.map_append, List.map_cons, List.nodup_append, List.nodup_cons] at hnodup
    obtain ⟨-, ⟨hlater, -⟩, hearlier⟩ := hnodup
    have hynew := hnew y List.mem_cons_self
    have hfront' : ∀ x ∈ front ++ [y],
        (r.extend (key y) (s.get? (key y))).get? (key x) = s.get? (key x) := by
      intro x hx
      rcases List.mem_append.mp hx with hx | hx
      · have hne : key x ≠ key y := hearlier _ (List.mem_map_of_mem hx) _ List.mem_cons_self
        rw [get?_extend_of_ne hne, hfront x hx]
      · rw [List.mem_singleton.mp hx, get?_extend hynew]
    have hnew' : ∀ z ∈ rest, key z ∉ (r.extend (key y) (s.get? (key y))).names := by
      intro z hz hm
      rw [names_extend hynew, List.mem_append] at hm
      rcases hm with hm | hm
      · exact hnew z (List.mem_cons_of_mem y hz) hm
      · obtain ⟨a, -, hkey⟩ := Option.map_eq_some_iff.mp (Option.mem_toList.mp hm)
        exact hlater (hkey ▸ List.mem_map_of_mem hz)
    obtain ⟨s', hfills, hsame⟩ :=
      exists_fills_from rest (front ++ [y]) _ (by simp [hsplit]) hfront' hnew'
    exact ⟨s', ⟨_, hy, hfills⟩, hsame⟩

end

/-- **The order of items does not matter**, as long as they stand behind what they read: the same
values are given under the same names. -/
theorem Fills.reorder {value' : Register α → ι → Option α → Prop}
    (h : Fills key value xs .empty s) (hperm : xs.Perm ys) (hn : (xs.map key).Nodup)
    (hxs : IsOrdered key reads xs) (hys : IsOrdered key reads ys)
    (hvalue : ∀ x ∈ xs, ∀ (r r' : Register α) o, (∀ p ∈ reads x, r.get? p = r'.get? p) →
      value r x o → value' r' x o) :
    ∃ s', Fills key value' ys .empty s' ∧ ∀ name, s'.get? name = s.get? name := by
  have hn' : (ys.map key).Nodup := (hperm.map key).nodup_iff.mp hn
  have hvalue' : ∀ y ∈ ys, ∀ r : Register α, (∀ p ∈ reads y, r.get? p = s.get? p) →
      value' r y (s.get? (key y)) := by
    intro y hy r hr
    have hy := hperm.mem_iff.mpr hy
    obtain ⟨r₀, hr₀, hreads⟩ := h.exists_value hn hxs hy
    exact hvalue y hy r₀ r _ (fun p hp => (hreads p hp).trans (hr p hp).symm) hr₀
  obtain ⟨s', hfills, hsame⟩ := exists_fills_from hn' hys hvalue' ys [] .empty rfl
    (fun _ hm => absurd hm List.not_mem_nil) fun _ _ => List.not_mem_nil
  refine ⟨s', hfills, fun name => ?_⟩
  by_cases hname : name ∈ ys.map key
  · obtain ⟨y, hy, rfl⟩ := List.mem_map.mp hname
    exact hsame y hy
  · rw [hfills.get?_of_notMem hname,
      h.get?_of_notMem fun hm => hname ((hperm.map key).mem_iff.mp hm)]

end EntityLayout.Register
