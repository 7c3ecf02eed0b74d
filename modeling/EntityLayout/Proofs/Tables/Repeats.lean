/-
# What a grouping repeats

A grouping lists the names that it repeats.  They are those that come at least twice, and each is
listed once.  A name is listed when it comes for the second time, so the list is in the order of
second places.  That is the order of first places as well, except where one name comes twice between
the first two places of another.

* `Grouping.ListsRepeats`: the names that come at least twice, each once, in the order of a place.
* `Grouping.listsRepeats_secondPlace`: the names listed, in the order of their second places.
* `Grouping.Encloses`: one name comes twice while another is waiting for its second place.
* `Grouping.repeated_order`: **the order is that of first places exactly if no name encloses
  another.**
* `Grouping.not_listsRepeats_nested`: a course listed behind the person that it encloses.
* `Blueprint.repeatedName_eq_several`, `Blueprint.not_encloses_of_repeatedName`: the order shows
  where a table is refused for several names, and nowhere else.
-/
import EntityLayout.Proofs.Tables.Synthesis
import Mathlib.Data.List.Pairwise
import Mathlib.Data.List.Sort

namespace EntityLayout

/-! ## 1. Places in a list -/

/-- The place of an occurrence is in the first part if there are enough of them. -/
theorem idxOfNth_append {name : String} (xs ys : List String) (n : Nat) :
    (xs ++ ys).idxOfNth name n = if n < xs.count name then xs.idxOfNth name n
      else xs.length + ys.idxOfNth name (n - xs.count name) := by
  induction xs generalizing n with
  | nil => simp
  | cons x xs ih =>
    rw [List.cons_append, List.count_cons, List.length_cons, Nat.add_right_comm]
    by_cases hx : x = name
    · subst hx
      cases n with
      | zero => simp
      | succ n =>
        simp only [List.idxOfNth_cons_succ, ih, beq_self_eq_true, if_true,
          Nat.add_lt_add_iff_right, Nat.add_sub_add_right]
        split <;> rfl
    · have hbeq : (x == name) = false := beq_eq_false_iff_ne.mpr hx
      simp only [List.idxOfNth_cons_of_not_beq hbeq, ih, hbeq, Bool.false_eq_true, if_false,
        Nat.add_zero]
      split <;> rfl

/-- Two measures that both order a list agree on its members. -/
theorem lt_iff_lt_of_pairwise {f f' : String → Nat} {names : List String}
    (h : names.Pairwise fun a b => f a < f b) (h' : names.Pairwise fun a b => f' a < f' b)
    {a b : String} (ha : a ∈ names) (hb : b ∈ names) : f a < f b ↔ f' a < f' b := by
  by_cases hab : a = b
  · simp [hab]
  · have : Std.Symm fun a b => (f a < f b ∧ f' a < f' b) ∨ (f b < f a ∧ f' b < f' a) :=
      ⟨fun _ _ => Or.symm⟩
    have hboth : names.Pairwise fun a b =>
        (f a < f b ∧ f' a < f' b) ∨ (f b < f a ∧ f' b < f' a) := (h.and h').imp Or.inl
    have horder := hboth.forall ha hb hab
    omega

namespace Grouping

variable {g : Grouping}

/-! ## 2. Which names are repeated -/

/-- A name comes again if it is among those before or comes twice, and has not been reported. -/
theorem mem_repeatedAfter {name : String} : ∀ {names seen reported : List String},
    name ∈ repeatedAfter seen reported names ↔
      name ∉ reported ∧ 2 ≤ names.count name + if name ∈ seen then 1 else 0
  | [], seen, reported => by
    rw [repeatedAfter, List.count_nil]
    split <;> simp
  | n :: names, seen, reported => by
    rw [repeatedAfter, List.count_cons]
    by_cases hn : n = name
    · subst hn
      by_cases hseen : n ∈ seen <;> by_cases hreported : n ∈ reported
      all_goals simp [hseen, hreported, mem_repeatedAfter]
    · split
      · simp [mem_repeatedAfter, hn, Ne.symm hn]
      · simp [mem_repeatedAfter, hn, Ne.symm hn]

theorem nodup_repeatedAfter : ∀ names seen reported : List String,
    (repeatedAfter seen reported names).Nodup
  | [], _, _ => List.nodup_nil
  | n :: names, seen, reported => by
    rw [repeatedAfter]
    split
    · refine List.nodup_cons.mpr ⟨fun h => ?_, nodup_repeatedAfter _ _ _⟩
      exact (mem_repeatedAfter.mp h).1 List.mem_cons_self
    · exact nodup_repeatedAfter _ _ _

/-- The names that are repeated are those that occur twice. -/
theorem mem_repeated {name : String} : name ∈ g.repeated ↔ 2 ≤ g.names.count name := by
  simp [repeated, mem_repeatedAfter]

/-- A name that comes again is one of the names. -/
theorem mem_names_of_repeated {name : String} (h : name ∈ g.repeated) : name ∈ g.names := by
  have htwice := mem_repeated.mp h
  exact List.count_pos_iff.mp (by omega)

/-- Nothing is repeated if all names differ. -/
theorem repeated_eq_nil : g.repeated = [] ↔ g.names.Nodup := by
  rw [List.eq_nil_iff_forall_not_mem, List.nodup_iff_count_le_one]
  refine forall_congr' fun name => ?_
  rw [mem_repeated]
  omega

/-- A name that is the only one repeated, and at most twice, comes twice and the others once. -/
theorem count_of_repeated {name : String} (h : g.repeated = [name])
    (htimes : g.names.count name ≤ 2) :
    g.names.count name = 2 ∧ ∀ other ∈ g.names, other ≠ name → g.names.count other = 1 := by
  have hrepeated : ∀ other, 2 ≤ g.names.count other ↔ other = name := fun other => by
    rw [← mem_repeated, h, List.mem_singleton]
  refine ⟨Nat.le_antisymm htimes ((hrepeated name).mpr rfl), fun other hother hne => ?_⟩
  have hpos := List.count_pos_iff.mpr hother
  have hless : ¬2 ≤ g.names.count other := fun htwice => hne ((hrepeated other).mp htwice)
  omega

/-! ## 3. The order of second places -/

/-- The names that come more than once, each once, in the order of some place of theirs. -/
structure ListsRepeats (g : Grouping) (place : String → Nat) (names : List String) : Prop where
  mem : ∀ name, name ∈ names ↔ 2 ≤ g.names.count name
  nodup : names.Nodup
  order : names.Pairwise fun a b => place a < place b

/-- There is one such list at most. -/
theorem ListsRepeats.unique {place : String → Nat} {names names' : List String}
    (h : g.ListsRepeats place names) (h' : g.ListsRepeats place names') : names = names' := by
  have : Std.Irrefl fun a b => place a < place b := ⟨fun a => Nat.lt_irrefl (place a)⟩
  refine List.Pairwise.eq_of_mem_iff h.order h'.order fun name => ?_
  rw [h.mem, h'.mem]

/-- Where a name comes first. -/
def firstPlace (g : Grouping) (name : String) : Nat := g.names.idxOf name

/-- Where a name comes for the second time. -/
def secondPlace (g : Grouping) (name : String) : Nat := g.names.idxOfNth name 1

/-- How often a name that is not reported has still to come before it is reported: `seen` came
before. -/
def due (seen : List String) (name : String) : Nat := if name ∈ seen then 0 else 1

/-- When one name has been passed, the place where another is reported is nearer by one.  So it is
for the name that was passed, if it came for the first time. -/
theorem idxOfNth_due_cons {name n : String} {seen names : List String}
    (h : name = n → n ∉ seen) : (n :: names).idxOfNth name (due seen name) =
      names.idxOfNth name (due (n :: seen) name) + 1 := by
  by_cases hname : name = n
  · subst hname
    rw [due, if_neg (h rfl), due, if_pos List.mem_cons_self]
    exact List.idxOfNth_cons_succ_of_beq (beq_self_eq_true name)
  · have hdue : due (n :: seen) name = due seen name := by simp [due, hname]
    rw [hdue, List.idxOfNth_cons_of_not_beq (beq_eq_false_iff_ne.mpr (Ne.symm hname))]

/-- Names are reported in the order of the places where they are due. -/
theorem pairwise_repeatedAfter (names seen reported : List String) :
    (repeatedAfter seen reported names).Pairwise fun a b =>
      names.idxOfNth a (due seen a) < names.idxOfNth b (due seen b) := by
  induction names generalizing seen reported with
  | nil => exact .nil
  | cons n names ih =>
    -- what is reported behind `n` is in order there, and each place is one further from here
    have hbehind : ∀ {later}, (∀ a ∈ repeatedAfter (n :: seen) later names, a = n → n ∉ seen) →
        (repeatedAfter (n :: seen) later names).Pairwise fun a b =>
          (n :: names).idxOfNth a (due seen a) < (n :: names).idxOfNth b (due seen b) := by
      intro later h
      refine (ih (n :: seen) later).imp_of_mem ?_
      intro a b ha hb hab
      rw [idxOfNth_due_cons (h a ha), idxOfNth_due_cons (h b hb)]
      omega
    rw [repeatedAfter]
    split
    · next hn =>
      have hne : ∀ a ∈ repeatedAfter (n :: seen) (n :: reported) names, a ≠ n := by
        rintro a ha rfl
        exact (mem_repeatedAfter.mp ha).1 List.mem_cons_self
      refine List.pairwise_cons.mpr ⟨?_, hbehind fun a ha h => absurd h (hne a ha)⟩
      intro b hb
      have hhere : (n :: names).idxOfNth n (due seen n) = 0 := by simp [due, hn.1]
      rw [hhere, idxOfNth_due_cons fun h => absurd h (hne b hb)]
      exact Nat.succ_pos _
    · next hn =>
      refine hbehind ?_
      rintro a ha rfl hseen
      exact hn ⟨hseen, (mem_repeatedAfter.mp ha).1⟩

/-- **The repeated names are listed in the order of their second places.** -/
theorem listsRepeats_secondPlace (g : Grouping) : g.ListsRepeats g.secondPlace g.repeated where
  mem _ := mem_repeated
  nodup := nodup_repeatedAfter _ _ _
  order := pairwise_repeatedAfter g.names [] []

/-! ## 4. The order of first places -/

/-- A name encloses another that comes twice between its first two places, and not before. -/
def Encloses (g : Grouping) (outer inner : String) : Prop :=
  ∃ before between behind, g.names = before ++ outer :: (between ++ outer :: behind) ∧
    outer ∉ before ∧ outer ∉ between ∧ inner ∉ before ∧ 2 ≤ between.count inner

section

variable {outer inner : String} {before between behind : List String}

/-- A name that comes twice divides the names at its first two places. -/
theorem exists_split (h : 2 ≤ g.names.count outer) : ∃ before between behind,
    g.names = before ++ outer :: (between ++ outer :: behind) ∧ outer ∉ before ∧
      outer ∉ between := by
  have hmem : outer ∈ g.names := List.count_pos_iff.mp (by omega)
  obtain ⟨before, rest, hnames, hbefore⟩ := List.eq_append_cons_of_mem hmem
  rw [hnames, List.count_append, List.count_eq_zero_of_not_mem hbefore,
    List.count_cons_self] at h
  have hrest : outer ∈ rest := List.count_pos_iff.mp (by omega)
  obtain ⟨between, behind, rfl, hbetween⟩ := List.eq_append_cons_of_mem hrest
  exact ⟨before, between, behind, hnames, hbefore, hbetween⟩

variable (hnames : g.names = before ++ outer :: (between ++ outer :: behind))
  (hbefore : outer ∉ before)

include hnames hbefore

/-- Another name comes first behind it if it is not among those before. -/
theorem firstPlace_lt_iff :
    g.firstPlace outer < g.firstPlace inner ↔ inner ∉ before ∧ inner ≠ outer := by
  have houter : g.firstPlace outer = before.length := by
    rw [firstPlace, hnames, List.idxOf_append_of_notMem hbefore, List.idxOf_cons_self,
      Nat.add_zero]
  rw [houter, firstPlace, hnames]
  by_cases hinner : inner ∈ before
  · rw [List.idxOf_append_of_mem hinner]
    have hlt := List.idxOf_lt_length_of_mem hinner
    simp [hinner, Nat.le_of_lt hlt]
  · rw [List.idxOf_append_of_notMem hinner]
    by_cases hne : outer = inner
    · simp [hne]
    · simp [List.idxOf_cons_ne _ hne, hinner, Ne.symm hne]

variable (hbetween : outer ∉ between)

include hbetween

/-- Another name comes for the second time before it does if it comes twice in front. -/
theorem secondPlace_lt_iff : g.secondPlace inner < g.secondPlace outer ↔
    2 ≤ (before ++ outer :: between).count inner := by
  have hsplit : g.names = (before ++ outer :: between) ++ outer :: behind := by simp [hnames]
  have houter : g.secondPlace outer = (before ++ outer :: between).length := by
    have hcount : (before ++ outer :: between).count outer = 1 := by
      rw [List.count_append, List.count_eq_zero_of_not_mem hbefore, List.count_cons_self,
        List.count_eq_zero_of_not_mem hbetween]
    rw [secondPlace, hsplit, idxOfNth_append, hcount]
    simp
  rw [houter, secondPlace, hsplit, idxOfNth_append]
  split
  · next h => exact iff_of_true (List.idxOfNth_lt_length_iff.mpr h) h
  · next h => exact iff_of_false (by omega) h

end

/-- Of two names one encloses the other exactly if their first places have one order and their
second places the other. -/
theorem encloses_iff {outer inner : String} : g.Encloses outer inner ↔
    2 ≤ g.names.count outer ∧ g.firstPlace outer < g.firstPlace inner ∧
      g.secondPlace inner < g.secondPlace outer := by
  constructor
  · rintro ⟨before, between, behind, hnames, hbefore, hbetween, hinner, htwice⟩
    have hne : inner ≠ outer := by
      rintro rfl
      rw [List.count_eq_zero_of_not_mem hbetween] at htwice
      omega
    refine ⟨?_, (firstPlace_lt_iff hnames hbefore).mpr ⟨hinner, hne⟩, ?_⟩
    · simp only [hnames, List.count_append, List.count_cons_self]
      omega
    · rw [secondPlace_lt_iff hnames hbefore hbetween, List.count_append,
        List.count_cons_of_ne hne.symm]
      omega
  · rintro ⟨htwice, hfirst, hsecond⟩
    obtain ⟨before, between, behind, hnames, hbefore, hbetween⟩ := exists_split htwice
    obtain ⟨hinner, hne⟩ := (firstPlace_lt_iff hnames hbefore).mp hfirst
    rw [secondPlace_lt_iff hnames hbefore hbetween, List.count_append,
      List.count_eq_zero_of_not_mem hinner, List.count_cons_of_ne hne.symm, Nat.zero_add] at hsecond
    exact ⟨before, between, behind, hnames, hbefore, hbetween, hinner, hsecond⟩

theorem Encloses.ne {outer inner : String} (h : g.Encloses outer inner) : outer ≠ inner := by
  rintro rfl
  exact Nat.lt_irrefl _ (encloses_iff.mp h).2.1

/-- Two names of which one encloses the other are both repeated. -/
theorem Encloses.mem_repeated {outer inner : String} (h : g.Encloses outer inner) :
    outer ∈ g.repeated ∧ inner ∈ g.repeated := by
  obtain ⟨houter, -, hsecond⟩ := encloses_iff.mp h
  refine ⟨Grouping.mem_repeated.mpr houter, Grouping.mem_repeated.mpr ?_⟩
  exact List.idxOfNth_lt_length_iff.mp (Nat.lt_of_lt_of_le hsecond List.idxOfNth_le_length)

/-- The order of second places is that of first places unless a name encloses another. -/
theorem pairwise_firstPlace_iff :
    (g.repeated.Pairwise fun a b => g.firstPlace a < g.firstPlace b) ↔
      ∀ outer inner, ¬ g.Encloses outer inner := by
  have hsecond := (listsRepeats_secondPlace g).order
  constructor
  · intro hfirst outer inner henc
    obtain ⟨houter, hinner⟩ := henc.mem_repeated
    obtain ⟨-, hbefore, hafter⟩ := encloses_iff.mp henc
    have hlt := (lt_iff_lt_of_pairwise hfirst hsecond houter hinner).mp hbefore
    omega
  · intro hnone
    refine hsecond.imp_of_mem ?_
    intro a b ha hb hab
    have hne : g.firstPlace b ≠ g.firstPlace a := by
      intro h
      obtain rfl := (List.idxOf_inj (mem_names_of_repeated hb)).mp h
      exact Nat.lt_irrefl _ hab
    -- were `b` first, it would wait for its second place until `a` had come twice
    have hsame : ¬ g.firstPlace b < g.firstPlace a := fun hlt =>
      hnone b a (encloses_iff.mpr ⟨mem_repeated.mp hb, hlt, hab⟩)
    omega

/-- **What a grouping lists as repeated** are exactly the names that come at least twice, each once,
in the order of their second places.  It is the order of their first places exactly if no name
encloses another. -/
theorem repeated_order (g : Grouping) :
    g.ListsRepeats g.secondPlace g.repeated ∧
      (g.ListsRepeats g.firstPlace g.repeated ↔ ∀ outer inner, ¬ g.Encloses outer inner) := by
  have hlists := listsRepeats_secondPlace g
  refine ⟨hlists, ?_⟩
  rw [← pairwise_firstPlace_iff]
  exact ⟨ListsRepeats.order, fun horder => ⟨hlists.mem, hlists.nodup, horder⟩⟩

/-- A course that is named again behind a person who is named twice. -/
def nested : Grouping := ofNames ["Course", "Person", "person", "COURSE"]

/-- **A name that waits for its second place is listed late**: the course comes first, and the person
is listed before it. -/
theorem not_listsRepeats_nested : nested.repeated = ["person", "course"] ∧
    nested.firstPlace "course" < nested.firstPlace "person" ∧
      ¬ nested.ListsRepeats nested.firstPlace nested.repeated := by
  have hrepeated : nested.repeated = ["person", "course"] := by decide +kernel
  have hfirst : nested.firstPlace "course" < nested.firstPlace "person" := by decide +kernel
  refine ⟨hrepeated, hfirst, ?_⟩
  intro h
  have horder := h.order
  rw [hrepeated] at horder
  have hlt := List.rel_of_pairwise_cons horder (List.mem_singleton_self "course")
  omega

end Grouping

/-! ## 5. Tables -/

namespace Blueprint

variable {index : Nat} {g : Grouping}

/-- Nothing is repeated if no name is. -/
theorem repeatedName_eq_none : repeatedName index g = .ok none ↔ g.repeated = [] := by
  refine ⟨fun h => repeatedName_eq_ok h, fun h => ?_⟩
  rw [repeatedName, h]

theorem repeatedName_eq_some {name : String} :
    repeatedName index g = .ok (some name) ↔ g.repeated = [name] ∧ g.names.count name ≤ 2 := by
  constructor
  · intro h
    have hrepeated := repeatedName_eq_ok h
    refine ⟨hrepeated, Nat.le_of_not_lt fun htimes => ?_⟩
    rw [repeatedName, hrepeated] at h
    simp only [Option.toList_some, if_pos htimes] at h
    exact nomatch h
  · rintro ⟨hrepeated, htimes⟩
    rw [repeatedName, hrepeated]
    exact if_neg (Nat.not_lt.mpr htimes)

/-- **A table is refused for several names** exactly if they are the repeated ones, in the order of
their second places. -/
theorem repeatedName_eq_several {names : List String} :
    repeatedName index g = .error (.invalidGrouping index (.severalRepeated names)) ↔
      g.ListsRepeats g.secondPlace names ∧ 2 ≤ names.length := by
  have hlists := g.listsRepeats_secondPlace
  unfold repeatedName
  constructor
  · intro h
    split at h
    · exact nomatch h
    · dsimp only at h
      split at h <;> exact nomatch h
    · next hnil hone =>
      obtain rfl : g.repeated = names := by simpa using h
      refine ⟨hlists, ?_⟩
      by_contra hfew
      cases hrepeated : g.repeated with
      | nil => exact hnil hrepeated
      | cons name rest =>
        rw [hrepeated, List.length_cons] at hfew
        obtain rfl : rest = [] := List.length_eq_zero_iff.mp (by omega)
        exact hone name hrepeated
  · rintro ⟨h, hlength⟩
    obtain rfl := h.unique hlists
    split
    · next hnil => simp [hnil] at hlength
    · next name hone => simp [hone] at hlength
    · rfl

/-- Where a table is made, no name encloses another. -/
theorem not_encloses_of_repeatedName {repeated : Option String}
    (h : repeatedName index g = .ok repeated) (outer inner : String) :
    ¬ g.Encloses outer inner := by
  intro henc
  obtain ⟨houter, hinner⟩ := henc.mem_repeated
  rw [repeatedName_eq_ok h, Option.mem_toList] at houter hinner
  exact henc.ne (Option.mem_unique houter hinner)

end Blueprint

end EntityLayout
