/-
# When a chain of steps succeeds

Every pass is a chain of steps that may fail, so a statement about its result starts from
"the chain succeeds".  A chain succeeds exactly when each of its steps does, with the result
of the one before; these are the equations that take a successful pass apart.  Two chains whose
steps agree have outcomes that agree.
-/
import Mathlib.Data.List.Perm.Basic

namespace EntityLayout

variable {ε ε' α β : Type}

/-! ## 1. Steps -/

/-- **A sequence of two steps succeeds iff both do.** -/
theorem bind_eq_ok {x : Except ε α} {f : α → Except ε β} {b : β} :
    x >>= f = .ok b ↔ ∃ a, x = .ok a ∧ f a = .ok b := by
  cases x with
  | error e => simp [bind, Except.bind]
  | ok a => simp [bind, Except.bind]

/-- **A sequence of two steps fails iff the first does**, or it succeeds and the second fails. -/
theorem bind_eq_error {x : Except ε α} {f : α → Except ε β} {e : ε} :
    x >>= f = .error e ↔ x = .error e ∨ ∃ a, x = .ok a ∧ f a = .error e := by
  cases x with
  | error e => simp [bind, Except.bind]
  | ok a => simp [bind, Except.bind]

/-- A last step that cannot fail adds no failure. -/
theorem bind_pure_eq_error {x : Except ε α} {f : α → β} {e : ε} :
    (x >>= fun a => pure (f a)) = .error e ↔ x = .error e := by
  rw [bind_eq_error]
  exact or_iff_left fun ⟨_, _, h⟩ => nomatch h

theorem ok_bind (a : α) (f : α → Except ε β) : (Except.ok a >>= f) = f a := rfl

theorem pure_eq_ok {a b : α} : (pure a : Except ε α) = .ok b ↔ a = b := by
  simp [pure, Except.pure]

theorem pure_mk_eq_ok {a a' : α} {b b' : β} :
    (pure (a, b) : Except ε (α × β)) = .ok (a', b') ↔ a' = a ∧ b' = b := by
  rw [pure_eq_ok, Prod.mk.injEq, @eq_comm _ a, @eq_comm _ b]

theorem throw_ne_ok {e : ε} {a : α} : (throw e : Except ε α) ≠ .ok a := by
  simp [throw, throwThe, MonadExceptOf.throw]

theorem exists_of_isOk {x : Except ε α} (h : x.isOk = true) : ∃ a, x = .ok a := by
  cases x with
  | error e => exact nomatch h
  | ok a => exact ⟨a, rfl⟩

/-- A result with a property can be had if the property was seen to hold of it. -/
theorem exists_of_any {x : Except ε α} {p : α → Bool} (h : x.toOption.any p = true) :
    ∃ a, x = .ok a ∧ p a = true := by
  cases x with
  | error e => exact nomatch h
  | ok a => exact ⟨a, rfl, h⟩

/-- Rewording a failure does not touch a success. -/
theorem mapError_eq_ok {x : Except ε α} {f : ε → ε'} {a : α} :
    x.mapError f = .ok a ↔ x = .ok a := by
  cases x with
  | error e => simp [Except.mapError]
  | ok b => simp [Except.mapError]

/-- Rewording a failure keeps it one. -/
theorem mapError_eq_error {x : Except ε α} {f : ε → ε'} {e : ε'} :
    x.mapError f = .error e ↔ ∃ e', x = .error e' ∧ f e' = e := by
  cases x with
  | error e' => simp [Except.mapError]
  | ok b => simp [Except.mapError]

theorem throw_eq_error {e e' : ε} : (throw e : Except ε α) = .error e' ↔ e = e' := by
  simp [throw, throwThe, MonadExceptOf.throw]

/-- A step for every item of a list succeeds iff each one does, with the results in order. -/
theorem mapM_eq_ok {f : α → Except ε β} : ∀ {as : List α} {bs : List β},
    as.mapM f = .ok bs ↔ List.Forall₂ (fun a b => f a = .ok b) as bs
  | [], bs => by
    rw [List.mapM_nil, pure_eq_ok, List.forall₂_nil_left_iff, eq_comm]
  | a :: as, bs => by
    rw [List.mapM_cons, bind_eq_ok, List.forall₂_cons_left_iff]
    constructor
    · rintro ⟨b, hb, h⟩
      obtain ⟨bs', hbs, h⟩ := bind_eq_ok.mp h
      exact ⟨b, bs', hb, mapM_eq_ok.mp hbs, (pure_eq_ok.mp h).symm⟩
    · rintro ⟨b, bs', hb, hbs, rfl⟩
      exact ⟨b, hb, bind_eq_ok.mpr ⟨bs', mapM_eq_ok.mpr hbs, rfl⟩⟩

/-- Steps for all items of a list fail only if one of them does. -/
theorem exists_of_mapM_eq_error {f : α → Except ε β} {e : ε} : ∀ {as : List α},
    as.mapM f = .error e → ∃ a ∈ as, f a = .error e
  | [], h => by
    rw [List.mapM_nil] at h
    exact nomatch h
  | a :: as, h => by
    rw [List.mapM_cons] at h
    rcases bind_eq_error.mp h with h | ⟨b, -, h⟩
    · exact ⟨a, List.mem_cons_self, h⟩
    · obtain ⟨x, hx, h⟩ := exists_of_mapM_eq_error (bind_pure_eq_error.mp h)
      exact ⟨x, List.mem_cons_of_mem _ hx, h⟩

/-! ## 2. Items and their results -/

variable {R : α → β → Prop} {as : List α} {bs : List β}

theorem exists_of_mem_left (h : List.Forall₂ R as bs) {a : α} (ha : a ∈ as) :
    ∃ b ∈ bs, R a b := by
  induction h with
  | nil => exact absurd ha List.not_mem_nil
  | cons hr _ ih =>
    rcases List.mem_cons.mp ha with rfl | ha
    · exact ⟨_, List.mem_cons_self, hr⟩
    · obtain ⟨b, hb, hr⟩ := ih ha
      exact ⟨b, List.mem_cons_of_mem _ hb, hr⟩

theorem exists_forall₂ : ∀ {as : List α}, (∀ a ∈ as, ∃ b, R a b) → ∃ bs, List.Forall₂ R as bs
  | [], _ => ⟨[], .nil⟩
  | a :: as, h => by
    obtain ⟨b, hb⟩ := h a List.mem_cons_self
    obtain ⟨bs, hbs⟩ := exists_forall₂ fun x hx => h x (List.mem_cons_of_mem a hx)
    exact ⟨b :: bs, .cons hb hbs⟩

theorem exists_of_mem_right (h : List.Forall₂ R as bs) {b : β} (hb : b ∈ bs) :
    ∃ a ∈ as, R a b :=
  exists_of_mem_left h.flip hb

theorem forall₂_comp {γ : Type} {S : β → γ → Prop} : ∀ {as : List α} {bs : List β} {cs : List γ},
    List.Forall₂ R as bs → List.Forall₂ S bs cs →
      List.Forall₂ (fun a c => ∃ b, R a b ∧ S b c) as cs
  | _, _, _, .nil, .nil => .nil
  | _, _, _, .cons hr hrs, .cons hs hss => .cons ⟨_, hr, hs⟩ (forall₂_comp hrs hss)

theorem forall₂_mem : ∀ {as : List α} {bs : List β}, List.Forall₂ R as bs →
    List.Forall₂ (fun a b => a ∈ as ∧ b ∈ bs ∧ R a b) as bs
  | _, _, .nil => .nil
  | _, _, .cons hr hrs => .cons ⟨List.mem_cons_self, List.mem_cons_self, hr⟩
      ((forall₂_mem hrs).imp fun _ _ ⟨ha, hb, h⟩ =>
        ⟨List.mem_cons_of_mem _ ha, List.mem_cons_of_mem _ hb, h⟩)

/-- Items at the same place of related lists are related. -/
theorem getElem?_rel : ∀ {as : List α} {bs : List β}, List.Forall₂ R as bs →
    ∀ i : Nat, Option.Rel R as[i]? bs[i]?
  | _, _, .nil, _ => .none
  | _, _, .cons hr _, 0 => .some hr
  | _, _, .cons _ hrest, i + 1 => getElem?_rel hrest i

theorem forall₂_zipIdx : ∀ {as : List α} {bs : List β}, List.Forall₂ R as bs →
    ∀ i : Nat, List.Forall₂ (fun x y => R x.1 y.1 ∧ x.2 = y.2) (as.zipIdx i) (bs.zipIdx i)
  | _, _, .nil, _ => .nil
  | _, _, .cons hr hrest, i => .cons ⟨hr, rfl⟩ (forall₂_zipIdx hrest (i + 1))

/-- Items that are related are searched alike, if the tests agree on them. -/
theorem find?_rel {p : α → Bool} {q : β → Bool} (h : List.Forall₂ R as bs)
    (htest : ∀ a b, R a b → p a = q b) : Option.Rel R (as.find? p) (bs.find? q) := by
  induction h with
  | nil => exact .none
  | @cons a b as bs hab _ ih =>
    rw [List.find?_cons, List.find?_cons, ← htest a b hab]
    cases p a with
    | true => exact .some hab
    | false => exact ih

/-- Steps for the items in another order have the same results, in that order. -/
theorem exists_mapM_perm {f : α → Except ε β} {as as' : List α} {bs : List β}
    (hperm : as.Perm as') (h : as.mapM f = .ok bs) :
    ∃ bs', as'.mapM f = .ok bs' ∧ bs.Perm bs' := by
  obtain ⟨bs', hall, hbs⟩ := List.perm_comp_forall₂ hperm.symm (mapM_eq_ok.mp h)
  exact ⟨bs', mapM_eq_ok.mpr hall, hbs.symm⟩

/-! ## 3. Outcomes that agree -/

/-- Two chains agree if both fail in the same way or both succeed, with related results. -/
inductive Agree (R : α → β → Prop) : Except ε α → Except ε β → Prop where
  | error (e : ε) : Agree R (.error e) (.error e)
  | ok {a : α} {b : β} : R a b → Agree R (.ok a) (.ok b)

namespace Agree

variable {γ δ : Type} {x : Except ε α} {y : Except ε β}

/-- **Chains agree if their steps do.** -/
theorem bind {S : γ → δ → Prop} {f : α → Except ε γ} {g : β → Except ε δ} (h : Agree R x y)
    (hstep : ∀ a b, R a b → Agree S (f a) (g b)) : Agree S (x >>= f) (y >>= g) := by
  cases h with
  | error e => exact .error e
  | ok hr => exact hstep _ _ hr

/-- Chains are equal if their first steps agree and what follows depends on no more than that. -/
theorem bind_eq {f : α → Except ε γ} {g : β → Except ε γ} (h : Agree R x y)
    (hstep : ∀ a b, R a b → f a = g b) : x >>= f = y >>= g := by
  cases h with
  | error e => rfl
  | ok hr => exact hstep _ _ hr

theorem refl {R : α → α → Prop} (hR : ∀ a, R a a) : ∀ x : Except ε α, Agree R x x
  | .error e => .error e
  | .ok a => .ok (hR a)

/-- Rewording failures keeps outcomes in agreement. -/
theorem mapError {f : ε → ε'} (h : Agree R x y) : Agree R (x.mapError f) (y.mapError f) := by
  cases h with
  | error e => exact .error (f e)
  | ok hr => exact .ok hr

theorem mapM {f : γ → Except ε α} {g : γ → Except ε β} : ∀ {cs : List γ},
    (∀ c ∈ cs, Agree R (f c) (g c)) → Agree (List.Forall₂ R) (cs.mapM f) (cs.mapM g)
  | [], _ => .ok .nil
  | c :: cs, h => by
    rw [List.mapM_cons, List.mapM_cons]
    refine (h c List.mem_cons_self).bind fun a b hab => ?_
    have hrest := mapM fun x hx => h x (List.mem_cons_of_mem c hx)
    exact hrest.bind fun as bs hall => .ok (.cons hab hall)

theorem mapM_eq {f : α → Except ε γ} {g : β → Except ε γ} (hstep : ∀ a b, R a b → f a = g b) :
    ∀ {as : List α} {bs : List β}, List.Forall₂ R as bs → as.mapM f = bs.mapM g
  | _, _, .nil => rfl
  | _, _, .cons hab hall => by
    rw [List.mapM_cons, List.mapM_cons, hstep _ _ hab, mapM_eq hstep hall]

/-- A chain agrees with its image under what the relation allows. -/
theorem map_right {f : α → β} (hf : ∀ a, R a (f a)) : ∀ x : Except ε α, Agree R x (x.map f)
  | .error e => .error e
  | .ok a => .ok (hf a)

/-- Outcomes that have the same image agree as far as results with the same image go. -/
theorem of_map_eq {φ : α → γ} {x y : Except ε α} (h : x.map φ = y.map φ) :
    Agree (fun a b => φ a = φ b) x y := by
  cases x with
  | error e =>
    cases y with
    | error e' => exact Except.error.inj h ▸ .error e
    | ok b => exact nomatch h
  | ok a =>
    cases y with
    | error e' => exact nomatch h
    | ok b => exact .ok (Except.ok.inj h)

theorem mono {S : α → β → Prop} (h : Agree R x y) (hRS : ∀ a b, R a b → S a b) : Agree S x y := by
  cases h with
  | error e => exact .error e
  | ok hr => exact .ok (hRS _ _ hr)

end Agree

end EntityLayout
