/-
# Where the values that were read come from

What a reader has read was read from a part of the text that stands at most as deep as there
is room, or is the default of a field.

* `Scope.Bounds`: the room for a draft, in a text or in what was set aside.
* `Reader.Gives`: a reader gives a value where there is room for so many levels.
* `Reader.Gives.list`, `Reader.Gives.record`, `Reader.Gives.variant`, `Reader.Gives.tagged`: a
  value that was made of others was given others, one for each way to build a reader.
* `length_le_of_readText_list`: a text has room for no more items than twice its characters.
-/
import EntityLayout.Json.Reader
import EntityLayout.Proofs.Json.Reading
import EntityLayout.Proofs.Outcome

namespace EntityLayout.Json

variable {α β : Type} {αs : List Type} {scope inner : Scope} {d : Draft} {n : Nat}

/-! ## 1. Stepping in -/

theorem enter_text_eq_ok :
    (Scope.text n).enter = .ok inner ↔ ∃ m, n = m + 1 ∧ inner = .text m := by
  cases n with
  | zero => simp [Scope.enter, fail]
  | succ n =>
    rw [Scope.enter, Except.ok.injEq]
    constructor
    · rintro rfl
      exact ⟨n, rfl, rfl⟩
    · rintro ⟨m, hm, rfl⟩
      rw [Nat.succ.inj hm]

theorem refuse_ne_ok {m : Mismatch} {a : α} : refuse m ≠ .ok a := fun h => nomatch h

theorem fail_ne_ok {c : Cause} {a : α} : fail c ≠ .ok a := fun h => nomatch h

theorem reject_ne_ok {wanted : String} {a : α} : reject wanted d ≠ .ok a := by
  unfold reject
  split <;> exact fun h => nomatch h

/-- The drafts inside an array or object. -/
def Draft.parts? : Draft → Option (List Draft)
  | .array items _ => some items
  | .object fields _ => some (fields.map Prod.snd)
  | _ => none

/-- A draft has room for `n` levels at most: so many are left in the text, or it is that of a value
with no more. -/
def Scope.Bounds (n : Nat) (d : Draft) : Scope → Prop
  | .text m => m ≤ n
  | .aside => ∃ j : Json, d = draft j ∧ j.levels ≤ n

theorem mem_draftItems {p : Draft} : ∀ {items : List Json}, p ∈ draftItems items →
    ∃ x ∈ items, p = draft x
  | x :: xs, h => by
    rcases List.mem_cons.mp h with rfl | h
    · exact ⟨x, List.mem_cons_self, rfl⟩
    · obtain ⟨y, hy, hp⟩ := mem_draftItems h
      exact ⟨y, List.mem_cons_of_mem _ hy, hp⟩

theorem mem_draftFields {p : Draft} : ∀ {fields : List (String × Json)},
    p ∈ (draftFields fields).map Prod.snd → ∃ f ∈ fields, p = draft f.2
  | (k, v) :: fs, h => by
    rcases List.mem_cons.mp h with rfl | h
    · exact ⟨(k, v), List.mem_cons_self, rfl⟩
    · obtain ⟨f, hf, hp⟩ := mem_draftFields h
      exact ⟨f, List.mem_cons_of_mem _ hf, hp⟩

/-- **Stepping in takes a level.** -/
theorem Scope.Bounds.enter {ds : List Draft} (h : scope.Bounds n d)
    (hparts : d.parts? = some ds) (henter : scope.enter = .ok inner) :
    ∃ m, n = m + 1 ∧ ∀ p ∈ ds, inner.Bounds m p := by
  cases scope with
  | text k =>
    obtain ⟨m, rfl, rfl⟩ := enter_text_eq_ok.mp henter
    obtain ⟨n, rfl⟩ : ∃ l, n = l + 1 := ⟨n - 1, by
      have : m + 1 ≤ n := h
      omega⟩
    exact ⟨n, rfl, fun _ _ => Nat.le_of_succ_le_succ h⟩
  | aside =>
    obtain rfl := Except.ok.inj henter
    obtain ⟨j, rfl, hj⟩ := h
    cases j with
    | null | bool _ | number _ | text _ => exact nomatch hparts
    | array items =>
      obtain rfl := Option.some.inj hparts
      rw [Json.levels] at hj
      obtain ⟨n, rfl⟩ : ∃ l, n = l + 1 := ⟨n - 1, by omega⟩
      refine ⟨n, rfl, fun p hp => ?_⟩
      obtain ⟨x, hx, rfl⟩ := mem_draftItems hp
      exact ⟨x, rfl, itemLevels_le.mp (Nat.le_of_succ_le_succ hj) x hx⟩
    | object fields =>
      obtain rfl := Option.some.inj hparts
      rw [Json.levels] at hj
      obtain ⟨n, rfl⟩ : ∃ l, n = l + 1 := ⟨n - 1, by omega⟩
      refine ⟨n, rfl, fun p hp => ?_⟩
      obtain ⟨f, hf, rfl⟩ := mem_draftFields hp
      exact ⟨f.2, rfl, fieldLevels_le.mp (Nat.le_of_succ_le_succ hj) f hf⟩

mutual

/-- What is set aside from a text fits where it stood. -/
theorem levels_settle : ∀ {d : Draft} {n : Nat} {j : Json}, settle (.text n) d = .ok j →
    j.levels ≤ n
  | .null, n, j, h | .bool _, n, j, h | .number (some _), n, j, h => by
    obtain rfl := Except.ok.inj h
    simp
  | .number none, _, _, h | .flaw _, _, _, h => nomatch h
  | .text s, n, j, h => by
    obtain ⟨t, -, h⟩ := bind_eq_ok.mp h
    obtain rfl := pure_eq_ok.mp h
    simp
  | .array items ending, n, j, h => by
    obtain ⟨inner, henter, h⟩ := bind_eq_ok.mp h
    obtain ⟨m, rfl, rfl⟩ := enter_text_eq_ok.mp henter
    obtain ⟨js, hjs, h⟩ := bind_eq_ok.mp h
    obtain ⟨-, -, h⟩ := bind_eq_ok.mp h
    obtain rfl := pure_eq_ok.mp h
    rw [Json.levels]
    exact Nat.succ_le_succ (levels_settleItems hjs)
  | .object fields ending, n, j, h => by
    obtain ⟨inner, henter, h⟩ := bind_eq_ok.mp h
    obtain ⟨m, rfl, rfl⟩ := enter_text_eq_ok.mp henter
    obtain ⟨js, hjs, h⟩ := bind_eq_ok.mp h
    obtain ⟨-, -, h⟩ := bind_eq_ok.mp h
    obtain rfl := pure_eq_ok.mp h
    rw [Json.levels]
    exact Nat.succ_le_succ (levels_settleFields hjs)
  | .unnamed _, _, _, h => by
    obtain ⟨-, -, h⟩ := bind_eq_ok.mp h
    exact absurd h fail_ne_ok

theorem levels_settleItems : ∀ {ds : List Draft} {n : Nat} {js : List Json},
    settleItems (.text n) ds = .ok js → itemLevels js ≤ n
  | [], n, js, h => by
    obtain rfl := Except.ok.inj h
    exact Nat.zero_le n
  | d :: ds, n, js, h => by
    obtain ⟨x, hx, h⟩ := bind_eq_ok.mp h
    obtain ⟨xs, hxs, h⟩ := bind_eq_ok.mp h
    obtain rfl := pure_eq_ok.mp h
    rw [itemLevels]
    exact Nat.max_le.mpr ⟨levels_settle hx, levels_settleItems hxs⟩

theorem levels_settleFields : ∀ {fs : List (Option String × Draft)} {n : Nat}
    {js : List (String × Json)}, settleFields (.text n) fs = .ok js → fieldLevels js ≤ n
  | [], n, js, h => by
    obtain rfl := Except.ok.inj h
    exact Nat.zero_le n
  | (k, d) :: fs, n, js, h => by
    obtain ⟨key, -, h⟩ := bind_eq_ok.mp h
    obtain ⟨v, hv, h⟩ := bind_eq_ok.mp h
    obtain ⟨vs, hvs, h⟩ := bind_eq_ok.mp h
    obtain rfl := pure_eq_ok.mp h
    rw [fieldLevels]
    exact Nat.max_le.mpr ⟨levels_settle hv, levels_settleFields hvs⟩

end

/-- **What is set aside fits where it stood.** -/
theorem Scope.Bounds.levels {j : Json} (h : scope.Bounds n d)
    (hsettle : settle scope d = .ok j) : j.levels ≤ n := by
  cases scope with
  | text m => exact Nat.le_trans (levels_settle hsettle) h
  | aside =>
    obtain ⟨j', rfl, hj⟩ := h
    have hsame : settle .aside (draft j') = .ok j' := settle_draft j' trivial
    rwa [← Except.ok.inj (hsame.symm.trans hsettle)]

/-! ## 2. Numbers, options, lists -/

/-- **The reader gives the value where there is room for `n` levels at most.** -/
def Reader.Gives (r : Reader α) (n : Nat) (a : α) : Prop :=
  ∃ scope d, scope.Bounds n d ∧ r scope d = .ok a

theorem Reader.Gives.bind {r : Reader α} {f : α → Except ReadError β} {b : β}
    (h : Reader.Gives (fun scope d => r scope d >>= f) n b) : ∃ a, r.Gives n a ∧ f a = .ok b := by
  obtain ⟨scope, d, hroom, h⟩ := h
  obtain ⟨a, ha, hf⟩ := bind_eq_ok.mp h
  exact ⟨a, ⟨scope, d, hroom, ha⟩, hf⟩

theorem Reader.Gives.natural {kind : String} {greatest k : Nat}
    (h : Reader.Gives (natural kind greatest) n k) : k ≤ greatest := by
  obtain ⟨scope, d, -, h⟩ := h
  unfold Json.natural at h
  split at h
  · split at h
    · next hle => exact Except.ok.inj h ▸ hle
    · exact absurd h refuse_ne_ok
  · exact absurd h refuse_ne_ok
  · exact absurd h reject_ne_ok

theorem Reader.Gives.optional {r : Reader α} {o : Option α} (h : (optional r).Gives n o) :
    ∀ a ∈ o, r.Gives n a := by
  obtain ⟨scope, d, hroom, h⟩ := h
  intro a ha
  unfold Json.optional at h
  split at h
  · obtain rfl := Except.ok.inj h
    exact nomatch ha
  · obtain ⟨b, hb, h⟩ := bind_eq_ok.mp h
    obtain rfl := pure_eq_ok.mp h
    exact ⟨scope, _, hroom, Option.some.inj ha ▸ hb⟩

theorem readItems_eq_ok {r : Reader α} : ∀ {ds : List Draft} {as : List α},
    readItems r inner ds = .ok as → List.Forall₂ (fun d a => r inner d = .ok a) ds as
  | [], as, h => by
    obtain rfl := Except.ok.inj h
    exact .nil
  | d :: ds, as, h => by
    obtain ⟨a, ha, h⟩ := bind_eq_ok.mp h
    obtain ⟨rest, hrest, h⟩ := bind_eq_ok.mp h
    obtain rfl := pure_eq_ok.mp h
    exact .cons ha (readItems_eq_ok hrest)

/-- **Every item of a list was read from an item of an array.** -/
theorem list_eq_ok {r : Reader α} {as : List α} (h : list r scope d = .ok as) :
    ∃ inner ds ending, d = .array ds ending ∧ scope.enter = .ok inner ∧
      List.Forall₂ (fun d a => r inner d = .ok a) ds as := by
  unfold list at h
  split at h
  · next items ending =>
    obtain ⟨inner, henter, h⟩ := bind_eq_ok.mp h
    obtain ⟨as', hitems, h⟩ := bind_eq_ok.mp h
    obtain ⟨-, -, h⟩ := bind_eq_ok.mp h
    obtain rfl := pure_eq_ok.mp h
    exact ⟨inner, items, ending, rfl, henter, readItems_eq_ok hitems⟩
  · exact absurd h reject_ne_ok

theorem Reader.Gives.list {r : Reader α} {as : List α} (h : (list r).Gives n as) :
    ∀ a ∈ as, ∃ m, n = m + 1 ∧ r.Gives m a := by
  obtain ⟨scope, d, hroom, h⟩ := h
  obtain ⟨inner, ds, ending, rfl, henter, hitems⟩ := list_eq_ok h
  obtain ⟨m, rfl, hinside⟩ := hroom.enter rfl henter
  intro a ha
  obtain ⟨p, hp, ha⟩ := exists_of_mem_right hitems ha
  exact ⟨m, rfl, inner, p, hinside p hp, ha⟩

theorem readEntries_eq_ok {r : Reader α} : ∀ {fs : List (Option String × Draft)}
    {es : List (String × α)}, readEntries r inner fs = .ok es →
      List.Forall₂ (fun d e => r inner d = .ok e.2) (fs.map Prod.snd) es
  | [], es, h => by
    obtain rfl := Except.ok.inj h
    exact .nil
  | (k, d) :: fs, es, h => by
    obtain ⟨key, -, h⟩ := bind_eq_ok.mp h
    obtain ⟨a, ha, h⟩ := bind_eq_ok.mp h
    obtain ⟨rest, hrest, h⟩ := bind_eq_ok.mp h
    obtain rfl := pure_eq_ok.mp h
    exact .cons ha (readEntries_eq_ok hrest)

/-- **Every entry of a map was read from a field of an object.** -/
theorem Reader.Gives.entries {r : Reader α} {es : List (String × α)}
    (h : (entries r).Gives n es) : ∀ e ∈ es, ∃ m, n = m + 1 ∧ r.Gives m e.2 := by
  obtain ⟨scope, d, hroom, h⟩ := h
  unfold Json.entries at h
  split at h
  · obtain ⟨inner, henter, h⟩ := bind_eq_ok.mp h
    obtain ⟨es', hentries, h⟩ := bind_eq_ok.mp h
    obtain ⟨-, -, h⟩ := bind_eq_ok.mp h
    obtain rfl := pure_eq_ok.mp h
    obtain ⟨m, rfl, hinside⟩ := hroom.enter rfl henter
    intro e he
    obtain ⟨p, hp, he⟩ := exists_of_mem_right (readEntries_eq_ok hentries) he
    exact ⟨m, rfl, inner, p, hinside p hp, he⟩
  · obtain ⟨-, -, h⟩ := bind_eq_ok.mp h
    exact absurd h fail_ne_ok
  · exact absurd h reject_ne_ok

/-! ## 3. Records -/

/-- A value of a field was given by its reader, or is the field's own. -/
def Field.Gives (f : Field α) (n : Nat) (a : α) : Prop :=
  f.read.Gives n a ∨ f.ifAbsent = some a ∨ f.ifShort = some a

/-- Every value of a record comes from its field. -/
def Fields.Give (n : Nat) : {αs : List Type} → Fields αs → Values αs → Prop
  | [], _, _ => True
  | _ :: _, (f, fs), (a, as) => f.Gives n a ∧ Fields.Give n fs as

/-- Every value that was stored was read by its field. -/
def Slots.Come (n : Nat) : {αs : List Type} → Fields αs → Slots αs → Prop
  | [], _, _ => True
  | _ :: _, (f, fs), (a, slots) => (∀ v ∈ a, f.read.Gives n v) ∧ Slots.Come n fs slots

theorem Slots.come_empty : ∀ {αs : List Type} (fs : Fields αs),
    Slots.Come n fs (Slots.empty αs)
  | [], _ => trivial
  | _ :: _, (f, fs) => by
    simp only [Slots.empty, Slots.Come]
    exact ⟨fun _ h => absurd h (Option.not_mem_none _), Slots.come_empty fs⟩

theorem store_come {key : String} (hroom : inner.Bounds n d) : ∀ {αs : List Type}
    {fs : Fields αs} {slots slots' : Slots αs}, store inner key d fs slots = .ok slots' →
      Slots.Come n fs slots → Slots.Come n fs slots'
  | [], _, _, _, _, _ => trivial
  | _ :: _, (f, fs), (a, slots), slots', h, hcome => by
    simp only [store] at h
    split at h
    · split at h
      · exact absurd h refuse_ne_ok
      · obtain ⟨v, hv, h⟩ := bind_eq_ok.mp h
        obtain rfl := pure_eq_ok.mp h
        exact ⟨fun w hw => ⟨inner, d, hroom, Option.some.inj hw ▸ hv⟩, hcome.2⟩
    · obtain ⟨rest, hrest, h⟩ := bind_eq_ok.mp h
      obtain rfl := pure_eq_ok.mp h
      exact ⟨hcome.1, store_come hroom hrest hcome.2⟩

theorem storeAll_come {fs : Fields αs} : ∀ {fields : List (Option String × Draft)}
    {slots slots' : Slots αs}, (∀ p ∈ fields.map Prod.snd, inner.Bounds n p) →
      storeAll inner fs slots fields = .ok slots' → Slots.Come n fs slots → Slots.Come n fs slots'
  | [], slots, slots', _, h, hcome => by
    obtain rfl := Except.ok.inj h
    exact hcome
  | (k, d) :: rest, slots, slots', hroom, h, hcome => by
    obtain ⟨hd, hroom⟩ := List.forall_mem_cons.mp hroom
    obtain ⟨key, -, h⟩ := bind_eq_ok.mp h
    obtain ⟨slots₁, hstore, h⟩ := bind_eq_ok.mp h
    exact storeAll_come hroom h (store_come hd hstore hcome)

theorem collect_give : ∀ {αs : List Type} {fs : Fields αs} {slots : Slots αs} {vs : Values αs},
    collect fs slots = .ok vs → Slots.Come n fs slots → Fields.Give n fs vs
  | [], _, _, _, _, _ => trivial
  | _ :: _, (f, fs), (a, slots), vs, h, hcome => by
    have hfield : ∃ v rest, f.Gives n v ∧ collect fs slots = .ok rest ∧ vs = (v, rest) := by
      simp only [collect] at h
      split at h
      · rw [pure_bind] at h
        obtain ⟨rest, hrest, h⟩ := bind_eq_ok.mp h
        exact ⟨_, rest, .inl (hcome.1 _ rfl), hrest, (pure_eq_ok.mp h).symm⟩
      · next hdefault =>
        rw [pure_bind] at h
        obtain ⟨rest, hrest, h⟩ := bind_eq_ok.mp h
        exact ⟨_, rest, .inr (.inl hdefault), hrest, (pure_eq_ok.mp h).symm⟩
      · exact absurd h refuse_ne_ok
    obtain ⟨v, rest, hv, hrest, rfl⟩ := hfield
    exact ⟨hv, collect_give hrest hcome.2⟩

theorem readInOrder_give {wanted : String} {ending : Ending} : ∀ {αs : List Type} {index : Nat}
    {fs : Fields αs} {items rest : List Draft} {vs : Values αs},
    (∀ p ∈ items, inner.Bounds n p) →
      readInOrder wanted inner ending index fs items = .ok (vs, rest) → Fields.Give n fs vs
  | [], _, _, _, _, _, _, _ => trivial
  | _ :: _, index, (f, fs), d :: items, rest, vs, hroom, h => by
    obtain ⟨hd, hroom⟩ := List.forall_mem_cons.mp hroom
    obtain ⟨a, ha, h⟩ := bind_eq_ok.mp h
    obtain ⟨⟨as, ds⟩, hrest, h⟩ := bind_eq_ok.mp h
    obtain ⟨rfl, rfl⟩ := pure_mk_eq_ok.mp h
    exact ⟨.inl ⟨inner, d, hd, ha⟩, readInOrder_give hroom hrest⟩
  | _ :: _, index, (f, fs), [], rest, vs, hroom, h => by
    obtain ⟨-, -, h⟩ := bind_eq_ok.mp h
    split at h
    · exact absurd h refuse_ne_ok
    · next hshort =>
      obtain ⟨⟨as, ds⟩, hrest, h⟩ := bind_eq_ok.mp h
      obtain ⟨rfl, rfl⟩ := pure_mk_eq_ok.mp h
      exact ⟨.inr (.inr hshort), readInOrder_give hroom hrest⟩

/-- **Every value of a record comes from its field**, a level further in. -/
theorem Reader.Gives.record {what : String} {fs : Fields αs} {vs : Values αs}
    (h : (record what fs).Gives n vs) : ∃ m, n = m + 1 ∧ Fields.Give m fs vs := by
  obtain ⟨scope, d, hroom, h⟩ := h
  unfold Json.record at h
  split at h
  · obtain ⟨inner, henter, h⟩ := bind_eq_ok.mp h
    obtain ⟨slots, hslots, h⟩ := bind_eq_ok.mp h
    obtain ⟨-, -, h⟩ := bind_eq_ok.mp h
    obtain ⟨m, rfl, hinside⟩ := hroom.enter rfl henter
    exact ⟨m, rfl, collect_give h (storeAll_come hinside hslots (Slots.come_empty fs))⟩
  · obtain ⟨inner, henter, h⟩ := bind_eq_ok.mp h
    obtain ⟨⟨as, rest⟩, hall, h⟩ := bind_eq_ok.mp h
    obtain ⟨-, -, h⟩ := bind_eq_ok.mp h
    obtain rfl := pure_eq_ok.mp h
    obtain ⟨m, rfl, hinside⟩ := hroom.enter rfl henter
    exact ⟨m, rfl, readInOrder_give hinside hall⟩
  · obtain ⟨-, -, h⟩ := bind_eq_ok.mp h
    exact absurd h fail_ne_ok
  · exact absurd h reject_ne_ok

/-- A required field's value was read. -/
theorem Field.Gives.read {name : String} {r : Reader α} {a : α}
    (h : (Field.required name r).Gives n a) : r.Gives n a := by
  rcases h with h | h | h
  · exact h
  · exact nomatch h
  · exact nomatch h

/-- A field's value was read or is the default. -/
theorem Field.Gives.readOr {name : String} {r : Reader α} {a default : α}
    (h : (Field.withDefault name r default).Gives n a) : r.Gives n a ∨ a = default := by
  rcases h with h | h | h
  · exact .inl h
  · exact .inr (Option.some.inj h).symm
  · exact .inr (Option.some.inj h).symm

/-- The items of a list that need not be there were read. -/
theorem Field.Gives.listOr {name : String} {r : Reader α} {as : List α}
    (h : (Field.withDefault name (list r) []).Gives n as) :
    ∀ a ∈ as, ∃ m, n = m + 1 ∧ r.Gives m a := by
  rcases h.readOr with h | rfl
  · exact h.list
  · exact fun a ha => absurd ha List.not_mem_nil

/-- A value that need not be there was read if it is. -/
theorem Field.Gives.readIfSome {name : String} {r : Reader α} {o : Option α}
    (h : (Field.optional name r).Gives n o) : ∀ a ∈ o, r.Gives n a := by
  rcases h.readOr with h | rfl
  · exact h.optional
  · exact fun a ha => nomatch ha

theorem Field.Gives.readIfNotNull {name : String} {r : Reader α} {o : Option α}
    (h : (Field.nullable name r).Gives n o) : ∀ a ∈ o, r.Gives n a := by
  rcases h with h | h | h
  · exact h.optional
  · obtain rfl := Option.some.inj h
    exact fun a ha => nomatch ha
  · exact nomatch h

/-! ## 4. Alternatives and tags -/

theorem mem_of_alternative? {alternatives : List (String × α)} {name : String} {a : α}
    (h : alternative? alternatives name = .ok a) : a ∈ alternatives.map Prod.snd := by
  unfold alternative? at h
  split at h
  · next hlookup =>
    obtain ⟨front, back, hsplit, -⟩ := List.lookup_eq_some_iff.mp hlookup
    simp [hsplit, Except.ok.inj h]
  · exact absurd h refuse_ne_ok

/-- **What a variant reads is a bare alternative, or was read a level further in.** -/
theorem Reader.Gives.variant {alternatives : List (String × Alternative α)} {a : α}
    (h : (variant alternatives).Gives n a) : .bare a ∈ alternatives.map Prod.snd ∨
      ∃ r m, .holding r ∈ alternatives.map Prod.snd ∧ n = m + 1 ∧ r.Gives m a := by
  obtain ⟨scope, d, hroom, h⟩ := h
  unfold Json.variant at h
  split at h
  · obtain ⟨name, -, h⟩ := bind_eq_ok.mp h
    obtain ⟨found, hfound, h⟩ := bind_eq_ok.mp h
    cases found with
    | bare b => exact .inl (pure_eq_ok.mp h ▸ mem_of_alternative? hfound)
    | holding r => exact absurd h refuse_ne_ok
  · next k p =>
    obtain ⟨found, hfound, h⟩ := bind_eq_ok.mp h
    cases found with
    | bare b =>
      obtain ⟨-, -, h⟩ := bind_eq_ok.mp h
      exact .inl (pure_eq_ok.mp h ▸ mem_of_alternative? hfound)
    | holding r =>
      obtain ⟨m, rfl, hinside⟩ := hroom.enter rfl rfl
      exact .inr ⟨r, m, mem_of_alternative? hfound, rfl, .aside, p,
        hinside p List.mem_cons_self, h⟩
  · exact absurd h refuse_ne_ok
  · exact absurd h reject_ne_ok
  · next n fields ending =>
    obtain ⟨inner, henter, h⟩ := bind_eq_ok.mp h
    split at h
    · split at h
      · exact absurd h fail_ne_ok
      · obtain ⟨-, -, h⟩ := bind_eq_ok.mp h
        exact absurd h fail_ne_ok
    · next k p rest _ =>
      obtain ⟨name, -, h⟩ := bind_eq_ok.mp h
      obtain ⟨found, hfound, h⟩ := bind_eq_ok.mp h
      obtain ⟨b, hb, h⟩ := bind_eq_ok.mp h
      obtain ⟨-, -, h⟩ := bind_eq_ok.mp h
      obtain rfl := pure_eq_ok.mp h
      cases found with
      | bare c =>
        obtain ⟨-, -, hb⟩ := bind_eq_ok.mp hb
        exact .inl (pure_eq_ok.mp hb ▸ mem_of_alternative? hfound)
      | holding r =>
        obtain ⟨m, rfl, hinside⟩ := hroom.enter rfl henter
        exact .inr ⟨r, m, mem_of_alternative? hfound, rfl, inner, p,
          hinside p List.mem_cons_self, hb⟩
  · obtain ⟨-, -, h⟩ := bind_eq_ok.mp h
    exact absurd h reject_ne_ok
  · exact absurd h fail_ne_ok
  · exact absurd h fail_ne_ok
  · exact absurd h fail_ne_ok

theorem mem_of_readTag {alternatives : List (String × α)} {a : α}
    (h : readTag alternatives scope d = .ok a) : a ∈ alternatives.map Prod.snd := by
  unfold readTag at h
  split at h
  · obtain ⟨name, -, h⟩ := bind_eq_ok.mp h
    exact mem_of_alternative? h
  · split at h
    · next found hfound =>
      exact Except.ok.inj h ▸ List.mem_map_of_mem (List.mem_of_getElem? hfound)
    · exact absurd h refuse_ne_ok
  · exact absurd h reject_ne_ok

/-- The tag names an alternative, and everything else was set aside. -/
theorem splitTag_eq_ok {tag : String} {alternatives : List (String × α)} :
    ∀ {fields : List (Option String × Draft)} {found found' : Option α}
      {rest : List (String × Json)},
      splitTag tag alternatives inner found fields = .ok (found', rest) →
        (∀ a ∈ found', found = some a ∨ a ∈ alternatives.map Prod.snd) ∧
          ∀ f ∈ rest, ∃ p ∈ fields.map Prod.snd, settle inner p = .ok f.2
  | [], found, found', rest, h => by
    obtain ⟨rfl, rfl⟩ := Prod.mk.inj (Except.ok.inj h)
    exact ⟨fun a ha => .inl ha, fun f hf => absurd hf List.not_mem_nil⟩
  | (k, d) :: fields, found, found', rest, h => by
    obtain ⟨key, -, h⟩ := bind_eq_ok.mp h
    split at h
    · cases found with
      | some b => exact absurd h refuse_ne_ok
      | none =>
        obtain ⟨a, ha, h⟩ := bind_eq_ok.mp h
        obtain ⟨hfound, hrest⟩ := splitTag_eq_ok h
        refine ⟨fun b hb => .inr ?_, fun f hf => ?_⟩
        · rcases hfound b hb with hab | hb
          · exact Option.some.inj hab ▸ mem_of_readTag ha
          · exact hb
        · obtain ⟨p, hp, hsettle⟩ := hrest f hf
          exact ⟨p, List.mem_cons_of_mem _ hp, hsettle⟩
    · obtain ⟨v, hv, h⟩ := bind_eq_ok.mp h
      obtain ⟨⟨found₁, rest₁⟩, hsplit, h⟩ := bind_eq_ok.mp h
      obtain ⟨rfl, rfl⟩ := pure_mk_eq_ok.mp h
      obtain ⟨hfound, hrest⟩ := splitTag_eq_ok hsplit
      refine ⟨hfound, List.forall_mem_cons.mpr ⟨⟨d, List.mem_cons_self, hv⟩, fun f hf => ?_⟩⟩
      obtain ⟨p, hp, hsettle⟩ := hrest f hf
      exact ⟨p, List.mem_cons_of_mem _ hp, hsettle⟩

theorem settleItems_eq_ok : ∀ {ds : List Draft} {js : List Json},
    settleItems inner ds = .ok js → List.Forall₂ (fun d j => settle inner d = .ok j) ds js
  | [], js, h => by
    obtain rfl := Except.ok.inj h
    exact .nil
  | d :: ds, js, h => by
    obtain ⟨j, hj, h⟩ := bind_eq_ok.mp h
    obtain ⟨rest, hrest, h⟩ := bind_eq_ok.mp h
    obtain rfl := pure_eq_ok.mp h
    exact .cons hj (settleItems_eq_ok hrest)

/-- **What a tagged reader reads was read by one of its alternatives** from a value that was set
aside, with the levels of the draft at most. -/
theorem Reader.Gives.tagged {what tag : String} {alternatives : List (String × Reader α)} {a : α}
    (h : (tagged what tag alternatives).Gives n a) :
    ∃ r ∈ alternatives.map Prod.snd, r.Gives n a := by
  obtain ⟨scope, d, hroom, h⟩ := h
  unfold Json.tagged at h
  split at h
  · next fields ending =>
    obtain ⟨inner, henter, h⟩ := bind_eq_ok.mp h
    obtain ⟨⟨found, rest⟩, hsplit, h⟩ := bind_eq_ok.mp h
    obtain ⟨-, -, h⟩ := bind_eq_ok.mp h
    obtain ⟨hfound, hrest⟩ := splitTag_eq_ok hsplit
    cases found with
    | none => exact absurd h refuse_ne_ok
    | some r =>
      refine ⟨r, (hfound r rfl).resolve_left (Option.some_ne_none r).symm, .aside, _, ⟨_, rfl, ?_⟩, h⟩
      obtain ⟨m, rfl, hinside⟩ := hroom.enter rfl henter
      rw [Json.levels]
      refine Nat.succ_le_succ (fieldLevels_le.mpr fun f hf => ?_)
      obtain ⟨p, hp, hsettle⟩ := hrest f hf
      exact (hinside p hp).levels hsettle
  · next items ending =>
    obtain ⟨inner, henter, h⟩ := bind_eq_ok.mp h
    split at h
    · obtain ⟨-, -, h⟩ := bind_eq_ok.mp h
      exact absurd h refuse_ne_ok
    · next x xs =>
      obtain ⟨r, hr, h⟩ := bind_eq_ok.mp h
      obtain ⟨rest, hrest, h⟩ := bind_eq_ok.mp h
      obtain ⟨-, -, h⟩ := bind_eq_ok.mp h
      refine ⟨r, mem_of_readTag hr, .aside, _, ⟨_, rfl, ?_⟩, h⟩
      obtain ⟨m, rfl, hinside⟩ := hroom.enter rfl henter
      rw [Json.levels]
      refine Nat.succ_le_succ (itemLevels_le.mpr fun j hj => ?_)
      obtain ⟨p, hp, hsettle⟩ := exists_of_mem_right (settleItems_eq_ok hrest) hj
      exact (hinside p (List.mem_cons_of_mem _ hp)).levels hsettle
  · obtain ⟨-, -, h⟩ := bind_eq_ok.mp h
    exact absurd h fail_ne_ok
  · exact absurd h reject_ne_ok

/-! ## 5. Whole texts -/

theorem readText_eq_ok {r : Reader α} {text : String} {a : α} (h : readText r text = .ok a) :
    r (.text nestingLimit) (parse text).1 = .ok a := by
  unfold readText at h
  generalize parse text = p at h ⊢
  obtain ⟨d, more⟩ := p
  obtain ⟨b, hb, h⟩ := bind_eq_ok.mp h
  cases more with
  | true =>
    obtain ⟨-, h, -⟩ := bind_eq_ok.mp h
    exact absurd h fail_ne_ok
  | false =>
    obtain rfl := pure_eq_ok.mp h
    exact hb

/-- **What was read from a text was given with room for all levels of a text.** -/
theorem gives_of_readText {r : Reader α} {text : String} {a : α} (h : readText r text = .ok a) :
    r.Gives nestingLimit a :=
  ⟨_, _, Nat.le_refl _, readText_eq_ok h⟩

theorem length_tokensWithin_le : ∀ (fuel : Nat) (cs : List Char),
    (tokensWithin fuel cs).length ≤ fuel
  | 0, _ => Nat.le_refl 0
  | fuel + 1, [] => Nat.zero_le _
  | fuel + 1, c :: cs => by
    rw [tokensWithin]
    split
    · exact Nat.le_succ_of_le (length_tokensWithin_le fuel cs)
    · exact Nat.succ_le_succ (length_tokensWithin_le fuel _)

theorem length_itemsWithin_le : ∀ (fuel : Nat) (afterComma : Bool) (ts : List Token),
    (itemsWithin fuel afterComma ts).1.length ≤ fuel
  | 0, _, _ => by simp [itemsWithin]
  | fuel + 1, afterComma, ts => by
    have hrest := length_itemsWithin_le fuel true
    unfold itemsWithin
    split
    · exact Nat.zero_le _
    · exact Nat.zero_le _
    · obtain ⟨x, rest⟩ := valueWithin fuel ts
      dsimp only
      split
      · exact Nat.succ_le_succ (Nat.zero_le fuel)
      · exact Nat.succ_le_succ (hrest _)
      · exact Nat.succ_le_succ (Nat.zero_le fuel)
      · exact Nat.succ_le_succ (Nat.zero_le fuel)

/-- Only a bracket begins an array. -/
theorem length_items_le {fuel : Nat} {ts : List Token} {ds : List Draft} {ending : Ending}
    (h : (valueWithin (fuel + 1) ts).1 = .array ds ending) : ds.length ≤ fuel := by
  unfold valueWithin at h
  split at h
  any_goals cases h
  · exact Nat.zero_le _
  · exact length_itemsWithin_le fuel false _

/-- **A text has room for no more items than twice its characters.** -/
theorem length_le_of_readText_list {r : Reader α} {text : String} {as : List α}
    (h : readText (list r) text = .ok as) : as.length ≤ 2 * text.length + 1 := by
  obtain ⟨inner, ds, ending, hparse, -, hitems⟩ := list_eq_ok (readText_eq_ok h)
  have hitemsLe : ds.length ≤ 2 * (tokens text.toList).length + 1 := length_items_le hparse
  have htokens : (tokens text.toList).length ≤ text.toList.length := length_tokensWithin_le _ _
  rw [String.length_toList] at htokens
  rw [← hitems.length_eq]
  omega

end EntityLayout.Json
