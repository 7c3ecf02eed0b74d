/-
# What readers make of a written value

`Reads r j a` says that the reader `r` takes the value `j` for `a`, wherever there is room
for the nesting of `j`.  There is one lemma for each way to build a reader, so that what a
document reads as follows the way its reader is built.

* `Reads.items`, `Reads.entries`, `Reads.present`: lists, maps and values that may be missing.
* `Reads.record`: records, field by field (`Fields.Written`).
* `Reads.tagged`: objects that name their alternative in the first field.
* `readText_pretty`: whole texts.
-/
import EntityLayout.Json.Reader
import EntityLayout.Proofs.Json.Parsing

namespace EntityLayout.Json

/-! ## 1. Nesting -/

mutual

/-- How deep the arrays and objects of a value are nested. -/
def levels : Json → Nat
  | .array items => itemLevels items + 1
  | .object fields => fieldLevels fields + 1
  | _ => 0

/-- The nesting of the items of an array. -/
def itemLevels : List Json → Nat
  | [] => 0
  | x :: xs => max (levels x) (itemLevels xs)

/-- The nesting of the fields of an object. -/
def fieldLevels : List (String × Json) → Nat
  | [] => 0
  | (_, v) :: fs => max (levels v) (fieldLevels fs)

end

@[simp] theorem levels_text (s : String) : levels (.text s) = 0 := by rw [levels] <;> simp

@[simp] theorem levels_bool (b : Bool) : levels (.bool b) = 0 := by rw [levels] <;> simp

@[simp] theorem levels_number (n : Number) : levels (.number n) = 0 := by rw [levels] <;> simp

@[simp] theorem levels_null : levels .null = 0 := by rw [levels] <;> simp

theorem itemLevels_le {n : Nat} : ∀ {xs : List Json},
    itemLevels xs ≤ n ↔ ∀ x ∈ xs, levels x ≤ n
  | [] => by simp [itemLevels]
  | x :: xs => by rw [itemLevels, Nat.max_le, itemLevels_le, List.forall_mem_cons]

theorem fieldLevels_le {n : Nat} : ∀ {fs : List (String × Json)},
    fieldLevels fs ≤ n ↔ ∀ f ∈ fs, levels f.2 ≤ n
  | [] => by simp [fieldLevels]
  | (k, v) :: fs => by rw [fieldLevels, Nat.max_le, fieldLevels_le, List.forall_mem_cons]

/-- Whether so many levels of nesting fit where a reader stands. -/
def Scope.Holds (levels : Nat) : Scope → Prop
  | .text n => levels ≤ n
  | .aside => True

theorem Scope.Holds.mono {scope : Scope} {m n : Nat} (h : scope.Holds n) (hmn : m ≤ n) :
    scope.Holds m := by
  cases scope with
  | text k => exact Nat.le_trans hmn h
  | aside => trivial

/-- Where there is room for an array or object, a reader can step into it. -/
theorem Scope.Holds.enter {scope : Scope} {n : Nat} (h : scope.Holds (n + 1)) :
    ∃ inner : Scope, scope.enter = .ok inner ∧ inner.Holds n := by
  match scope, h with
  | .text (k + 1), h => exact ⟨.text k, rfl, Nat.le_of_succ_le_succ h⟩
  | .aside, _ => exact ⟨.aside, rfl, trivial⟩

/-! ## 2. Values set aside -/

mutual

/-- A value is set aside unchanged. -/
theorem settle_draft : ∀ (j : Json) {scope : Scope}, scope.Holds j.levels →
    settle scope (draft j) = .ok j
  | .null, _, _ => rfl
  | .bool _, _, _ => rfl
  | .number _, _, _ => rfl
  | .text _, _, _ => rfl
  | .array items, scope, h => by
    obtain ⟨inner, henter, hinner⟩ := Scope.Holds.enter h
    rw [draft, settle, henter, ok_bind, settleItems_draft items hinner]
    rfl
  | .object fields, scope, h => by
    obtain ⟨inner, henter, hinner⟩ := Scope.Holds.enter h
    rw [draft, settle, henter, ok_bind, settleFields_draft fields hinner]
    rfl

theorem settleItems_draft : ∀ (items : List Json) {scope : Scope},
    scope.Holds (itemLevels items) → settleItems scope (draftItems items) = .ok items
  | [], _, _ => rfl
  | x :: xs, scope, h => by
    rw [itemLevels] at h
    rw [draftItems, settleItems, settle_draft x (h.mono (Nat.le_max_left _ _)), ok_bind,
      settleItems_draft xs (h.mono (Nat.le_max_right _ _))]
    rfl

theorem settleFields_draft : ∀ (fields : List (String × Json)) {scope : Scope},
    scope.Holds (fieldLevels fields) →
      settleFields scope (draftFields fields) = .ok fields
  | [], _, _ => rfl
  | (k, v) :: fs, scope, h => by
    rw [fieldLevels] at h
    rw [draftFields, settleFields, content, ok_bind,
      settle_draft v (h.mono (Nat.le_max_left _ _)), ok_bind,
      settleFields_draft fs (h.mono (Nat.le_max_right _ _))]
    rfl

end

/-! ## 3. Scalars, options, lists -/

/-- The reader takes the value for `a` wherever its nesting fits. -/
def Reads {α : Type} (r : Reader α) (j : Json) (a : α) : Prop :=
  ∀ scope : Scope, scope.Holds j.levels → r scope (draft j) = .ok a

section

variable {α β : Type} {r : Reader α} {j : Json} {a : α}

theorem Reads.string (s : String) : Reads string (.text s) s := fun _ _ => rfl

theorem Reads.boolean (b : Bool) : Reads boolean (.bool b) b := fun _ _ => rfl

theorem Reads.natural {kind : String} {greatest n : Nat} (h : n ≤ greatest) :
    Reads (natural kind greatest) (.nat n) n := by
  intro scope _
  rw [draft, Json.natural, if_pos h]

/-- A value is made into another by what follows the reader. -/
theorem Reads.andThen {f : α → Except ReadError β} {b : β} (h : Reads r j a) (hf : f a = .ok b) :
    Reads (fun scope d => r scope d >>= f) j b := by
  intro scope hscope
  simp only [h scope hscope, ok_bind, hf]

theorem Reads.absent : Reads (optional r) .null none := fun _ _ => rfl

/-- A value that is not `null` is there. -/
theorem Reads.present (h : Reads r j a) (hj : j ≠ .null) : Reads (optional r) j (some a) := by
  intro scope hscope
  have hdraft : draft j ≠ .null := by
    cases j <;> first | exact absurd rfl hj | simp [draft]
  have hr := h scope hscope
  generalize draft j = d at hdraft hr
  cases d <;> first | exact absurd rfl hdraft | (simp only [optional, hr]; rfl)

theorem readItems_draft {scope : Scope} : ∀ {js : List Json} {as : List α},
    List.Forall₂ (Reads r) js as → scope.Holds (itemLevels js) →
      readItems r scope (draftItems js) = .ok as
  | [], [], _, _ => rfl
  | j :: js, a :: as, h, hscope => by
    rw [List.forall₂_cons] at h
    rw [itemLevels] at hscope
    rw [draftItems, readItems, h.1 scope (hscope.mono (Nat.le_max_left _ _)), ok_bind,
      readItems_draft h.2 (hscope.mono (Nat.le_max_right _ _))]
    rfl

/-- An array is read item by item. -/
theorem Reads.items {js : List Json} {as : List α} (h : List.Forall₂ (Reads r) js as) :
    Reads (list r) (.array js) as := by
  intro scope hscope
  obtain ⟨inner, henter, hinner⟩ := Scope.Holds.enter hscope
  rw [draft, Json.list, henter, ok_bind, readItems_draft h hinner]
  rfl

theorem Reads.list_map {f : α → Json} {as : List α} (h : ∀ a ∈ as, Reads r (f a) a) :
    Reads (list r) (.array (as.map f)) as := by
  refine Reads.items ?_
  rw [List.forall₂_map_left_iff, List.forall₂_same]
  exact h

theorem Reads.texts (ss : List String) : Reads (list Json.string) (.texts ss) ss :=
  Reads.list_map fun s _ => Reads.string s

theorem readEntries_draft {scope : Scope} {f : α → Json} : ∀ {es : List (String × α)},
    (∀ e ∈ es, Reads r (f e.2) e.2) →
      scope.Holds (fieldLevels (es.map fun e => (e.1, f e.2))) →
        readEntries r scope (draftFields (es.map fun e => (e.1, f e.2))) = .ok es
  | [], _, _ => rfl
  | (k, a) :: es, h, hscope => by
    rw [List.map_cons, fieldLevels] at hscope
    rw [List.map_cons, draftFields, readEntries, content, ok_bind,
      h (k, a) List.mem_cons_self scope (hscope.mono (Nat.le_max_left _ _)), ok_bind,
      readEntries_draft (fun e he => h e (List.mem_cons_of_mem _ he))
        (hscope.mono (Nat.le_max_right _ _))]
    rfl

/-- A map is read entry by entry. -/
theorem Reads.entries {f : α → Json} {es : List (String × α)}
    (h : ∀ e ∈ es, Reads r (f e.2) e.2) :
    Reads (entries r) (.object (es.map fun e => (e.1, f e.2))) es := by
  intro scope hscope
  obtain ⟨inner, henter, hinner⟩ := Scope.Holds.enter hscope
  rw [draft, Json.entries, henter, ok_bind, readEntries_draft h hinner]
  rfl

/-- Two values side by side. -/
theorem Reads.pair {ra : Reader α} {rb : Reader β} {x y : Json} {b : β} (hx : Reads ra x a)
    (hy : Reads rb y b) : Reads (pair ra rb) (.array [x, y]) (a, b) := by
  intro scope hscope
  obtain ⟨inner, henter, hinner⟩ := Scope.Holds.enter hscope
  simp only [itemLevels] at hinner
  simp only [draft, draftItems, Json.pair, henter, ok_bind,
    hx inner (hinner.mono (Nat.le_max_left _ _)),
    hy inner (hinner.mono (Nat.le_trans (Nat.le_max_left _ _) (Nat.le_max_right _ _)))]
  rfl

end

/-! ## 4. Records -/

/-- The names of the fields of a record. -/
def Fields.names : {αs : List Type} → Fields αs → List String
  | [], _ => []
  | _ :: _, (f, fs) => f.name :: Fields.names fs

/-- An object holds the values of a record in the order of their declaration; a field with
the value that it has in its absence may be left out. -/
def Fields.Written : {αs : List Type} → Fields αs → List (String × Json) → Values αs → Prop
  | [], _, js, _ => js = []
  | _ :: _, (f, fs), js, (a, as) =>
    (∃ j rest, js = (f.name, j) :: rest ∧ Reads f.read j a ∧ Fields.Written fs rest as)
      ∨ f.ifAbsent = some a ∧ Fields.Written fs js as

theorem Fields.written_nil : @Fields.Written [] () [] () := rfl

section

variable {α : Type} {αs : List Type} {f : Field α} {fs : Fields αs} {name : String}
  {r : Reader α} {write : α → Json} {j : Json} {js : List (String × Json)} {a : α}
  {as : Values αs}

theorem Fields.Written.given (h : Reads f.read j a) (hs : fs.Written js as) :
    @Fields.Written (α :: αs) (f, fs) ((f.name, j) :: js) (a, as) :=
  Or.inl ⟨j, js, rfl, h, hs⟩

theorem Fields.Written.absent (h : f.ifAbsent = some a) (hs : fs.Written js as) :
    @Fields.Written (α :: αs) (f, fs) js (a, as) :=
  Or.inr ⟨h, hs⟩

theorem Fields.Written.required (h : Reads r j a) (hs : fs.Written js as) :
    @Fields.Written (α :: αs) (.required name r, fs) ((name, j) :: js) (a, as) :=
  .given (f := .required name r) h hs

theorem Fields.Written.withDefault {d : α} (h : Reads r j a) (hs : fs.Written js as) :
    @Fields.Written (α :: αs) (.withDefault name r d, fs) ((name, j) :: js) (a, as) :=
  .given (f := .withDefault name r d) h hs

theorem Fields.Written.nullable {o : Option α} (h : Reads (Json.optional r) j o)
    (hs : fs.Written js as) :
    @Fields.Written (Option α :: αs) (.nullable name r, fs) ((name, j) :: js) (o, as) :=
  .given (f := .nullable name r) h hs

/-- A field that is left out when there is nothing to write. -/
theorem Fields.Written.optional (o : Option α)
    (h : ∀ a ∈ o, Reads r (write a) a ∧ write a ≠ .null) (hs : fs.Written js as) :
    @Fields.Written (Option α :: αs) (.optional name r, fs)
      (fieldIfSome name write o ++ js) (o, as) := by
  cases o with
  | none => exact .absent rfl hs
  | some a => exact .withDefault (.present (h a rfl).1 (h a rfl).2) hs

theorem Fields.Written.lastOptional (o : Option α)
    (h : ∀ a ∈ o, Reads r (write a) a ∧ write a ≠ .null) :
    @Fields.Written [Option α] (.optional name r, ()) (fieldIfSome name write o)
      (o, ()) := by
  simpa using Fields.Written.optional o h written_nil

end

/-- Only names of fields are written. -/
theorem Fields.Written.names_subset : ∀ {αs : List Type} {fs : Fields αs}
    {js : List (String × Json)} {as : Values αs}, fs.Written js as →
      ∀ f ∈ js, f.1 ∈ fs.names
  | [], _, _, _, h, g, hg => by
    rw [show _ = [] from h] at hg
    exact absurd hg List.not_mem_nil
  | _ :: _, (f, fs), js, (a, as), h, g, hg => by
    rcases h with ⟨j, rest, rfl, -, hs⟩ | ⟨-, hs⟩
    · rcases List.mem_cons.mp hg with rfl | hg
      · exact List.mem_cons_self
      · exact List.mem_cons_of_mem _ (hs.names_subset g hg)
    · exact List.mem_cons_of_mem _ (hs.names_subset g hg)

/-- Fields of other names leave the first slot alone. -/
theorem storeAll_cons {α : Type} {αs : List Type} {scope : Scope} (f : Field α)
    (fs : Fields αs) (a : Option α) : ∀ (js : List (String × Json)) (slots : Slots αs),
      (∀ g ∈ js, g.1 ≠ f.name) →
        @storeAll (α :: αs) scope (f, fs) (a, slots) (draftFields js) =
          storeAll scope fs slots (draftFields js) >>= fun s => .ok (a, s)
  | [], _, _ => rfl
  | (k, v) :: js, slots, h => by
    have hk : k ≠ f.name := h (k, v) List.mem_cons_self
    simp only [draftFields, storeAll, content, ok_bind, store, if_neg hk]
    cases hstore : store scope k (draft v) fs slots with
    | error e => rfl
    | ok s =>
      exact storeAll_cons f fs a js s fun g hg => h g (List.mem_cons_of_mem _ hg)

/-- Every field that is written ends up in its slot, and every other one has its default. -/
theorem storeAll_written {scope : Scope} : ∀ {αs : List Type} {fs : Fields αs}
    {js : List (String × Json)} {as : Values αs}, fs.Written js as → fs.names.Nodup →
      scope.Holds (fieldLevels js) →
        ∃ slots, storeAll scope fs (Slots.empty αs) (draftFields js) = .ok slots ∧
          collect fs slots = .ok as
  | [], fs, js, as, h, _, _ => by
    rw [show js = [] from h]
    exact ⟨(), rfl, rfl⟩
  | _ :: _, (f, fs), js, (a, as), h, hn, hscope => by
    obtain ⟨hf, hn⟩ := List.nodup_cons.mp hn
    rcases h with ⟨j, rest, rfl, hj, hs⟩ | ⟨hdefault, hs⟩
    · rw [fieldLevels] at hscope
      obtain ⟨slots, hstore, hcollect⟩ :=
        storeAll_written hs hn (hscope.mono (Nat.le_max_right _ _))
      refine ⟨(some a, slots), ?_, ?_⟩
      · simp only [draftFields, storeAll, content, ok_bind, Slots.empty, store, if_true,
          hj scope (hscope.mono (Nat.le_max_left _ _))]
        refine (storeAll_cons f fs (some a) rest _ fun g hg e =>
          hf (e ▸ hs.names_subset g hg)).trans ?_
        rw [hstore]
        rfl
      · simp only [collect, hcollect, pure_bind]
        rfl
    · obtain ⟨slots, hstore, hcollect⟩ := storeAll_written hs hn hscope
      refine ⟨(none, slots), ?_, ?_⟩
      · rw [Slots.empty, storeAll_cons f fs none js _ fun g hg e =>
          hf (e ▸ hs.names_subset g hg), hstore]
        rfl
      · simp only [collect, hdefault, hcollect, pure_bind]
        rfl

/-- **A record is read from its written fields.** -/
theorem Reads.record {what : String} {αs : List Type} {fs : Fields αs}
    {js : List (String × Json)} {as : Values αs} (h : fs.Written js as) (hn : fs.names.Nodup) :
    Reads (record what fs) (.object js) as := by
  intro scope hscope
  obtain ⟨inner, henter, hinner⟩ := Scope.Holds.enter hscope
  obtain ⟨slots, hstore, hcollect⟩ := storeAll_written h hn hinner
  simp only [draft, Json.record, henter, ok_bind, hstore, hcollect, finish]

/-! ## 5. Alternatives and tags -/

section

variable {α : Type} {name : String} {a : α}

theorem alternative?_of_lookup {alternatives : List (String × α)}
    (h : alternatives.lookup name = some a) : alternative? alternatives name = .ok a := by
  rw [alternative?, h]

/-- A bare alternative is its name. -/
theorem Reads.bare {alternatives : List (String × Alternative α)}
    (h : alternatives.lookup name = some (.bare a)) :
    Reads (variant alternatives) (.text name) a := by
  intro scope _
  simp only [draft, variant, content, ok_bind, alternative?_of_lookup h]
  rfl

/-- An alternative with a value is an object from its name to the value. -/
theorem Reads.holding {alternatives : List (String × Alternative α)} {r : Reader α} {j : Json}
    (h : alternatives.lookup name = some (.holding r)) (hr : Reads r j a) :
    Reads (variant alternatives) (.object [(name, j)]) a := by
  intro scope hscope
  match scope, hscope with
  | .aside, _ =>
    simp only [draft, draftFields, variant, alternative?_of_lookup h, ok_bind, Alternative.read]
    exact hr .aside trivial
  | .text n, hscope =>
    obtain ⟨inner, henter, hinner⟩ := Scope.Holds.enter hscope
    simp only [fieldLevels] at hinner
    simp only [draft, draftFields, variant, henter, content, alternative?_of_lookup h, ok_bind,
      Alternative.read, hr inner (hinner.mono (Nat.le_max_left _ _)), finishAlternative]
    rfl

theorem lookup_map {β : Type} (f : α → β) : ∀ {es : List (String × α)},
    es.lookup name = some a → (es.map fun e => (e.1, f e.2)).lookup name = some (f a)
  | [], h => nomatch h
  | (k, b) :: es, h => by
    rw [List.lookup_cons] at h
    rw [List.map_cons, List.lookup_cons]
    cases hk : name == k with
    | true =>
      rw [hk] at h
      exact congrArg (Option.map f) h
    | false =>
      rw [hk] at h
      exact lookup_map f h

/-- One of several bare alternatives is its name. -/
theorem Reads.choice {alternatives : List (String × α)} (h : alternatives.lookup name = some a) :
    Reads (choice alternatives) (.text name) a :=
  Reads.bare (lookup_map Alternative.bare h)

/-- Fields that do not hold the tag are set aside in order. -/
theorem splitTag_draft {tag : String} {alternatives : List (String × α)} {scope : Scope}
    (found : Option α) : ∀ fields : List (String × Json), (∀ f ∈ fields, f.1 ≠ tag) →
      scope.Holds (fieldLevels fields) →
        splitTag tag alternatives scope found (draftFields fields) = .ok (found, fields)
  | [], _, _ => rfl
  | (k, v) :: fs, h, hscope => by
    rw [fieldLevels] at hscope
    simp only [draftFields, splitTag, content, ok_bind, if_neg (h (k, v) List.mem_cons_self),
      settle_draft v (hscope.mono (Nat.le_max_left _ _)),
      splitTag_draft found fs (fun f hf => h f (List.mem_cons_of_mem _ hf))
        (hscope.mono (Nat.le_max_right _ _))]
    rfl

/-- **An object with its tag in front is read by the alternative that the tag names**, from
the fields behind it. -/
theorem Reads.tagged {what tag : String} {alternatives : List (String × Reader α)}
    {r : Reader α} {fields : List (String × Json)} (h : alternatives.lookup name = some r)
    (hfields : ∀ f ∈ fields, f.1 ≠ tag) (hr : Reads r (.object fields) a) :
    Reads (tagged what tag alternatives) (.object ((tag, .text name) :: fields)) a := by
  intro scope hscope
  obtain ⟨inner, henter, hinner⟩ := Scope.Holds.enter hscope
  rw [fieldLevels] at hinner
  have htag : readTag alternatives inner (.text (some name)) = .ok r := by
    simp only [readTag, content, ok_bind, alternative?_of_lookup h]
  have hsplit : splitTag tag alternatives inner (some r) (draftFields fields) = _ :=
    splitTag_draft (some r) fields hfields (hinner.mono (Nat.le_max_right _ _))
  simp only [draft, draftFields, Json.tagged, henter, ok_bind, splitTag, content, if_true, htag,
    hsplit, finish]
  exact hr .aside trivial

/-- The alternative is mostly a record, none of whose fields is called like the tag. -/
theorem Reads.taggedRecord {what what' tag : String} {alternatives : List (String × Reader α)}
    {αs : List Type} {fs : Fields αs} {js : List (String × Json)} {v : Values αs}
    {f : Values αs → Except ReadError α}
    (h : alternatives.lookup name = some fun scope d => Json.record what' fs scope d >>= f)
    (hw : fs.Written js v) (hn : (tag :: fs.names).Nodup) (hf : f v = .ok a) :
    Reads (Json.tagged what tag alternatives) (.object ((tag, .text name) :: js)) a := by
  obtain ⟨htag, hn⟩ := List.nodup_cons.mp hn
  exact .tagged h (fun g hg e => htag (e ▸ hw.names_subset g hg)) (.andThen (.record hw hn) hf)

end

/-! ## 6. Whole texts -/

theorem areWhole_iff : ∀ {xs : List Json}, AreWhole xs ↔ ∀ x ∈ xs, x.IsWhole
  | [] => by simp [AreWhole]
  | x :: xs => by rw [AreWhole, areWhole_iff, List.forall_mem_cons]

theorem fieldsWhole_iff : ∀ {fs : List (String × Json)},
    FieldsWhole fs ↔ ∀ f ∈ fs, f.2.IsWhole
  | [] => by simp [FieldsWhole]
  | (k, v) :: fs => by rw [FieldsWhole, fieldsWhole_iff, List.forall_mem_cons]

/-- A text has room for the value: its numbers fit 64 bits, and it is nested at most `n`
deep. -/
structure Fits (n : Nat) (j : Json) : Prop where
  whole : j.IsWhole
  levels : j.levels ≤ n

theorem Fits.mono {m n : Nat} {j : Json} (h : j.Fits m) (hmn : m ≤ n) : j.Fits n :=
  ⟨h.whole, Nat.le_trans h.levels hmn⟩

@[simp] theorem fits_text (n : Nat) (s : String) : (Json.text s).Fits n :=
  ⟨by simp [IsWhole], by simp⟩

@[simp] theorem fits_bool (n : Nat) (b : Bool) : (Json.bool b).Fits n :=
  ⟨by simp [IsWhole], by simp⟩

@[simp] theorem fits_null (n : Nat) : Json.null.Fits n := ⟨by simp [IsWhole], by simp⟩

theorem fits_nat {n k : Nat} (h : k < 0x10000000000000000) : (Json.nat k).Fits n :=
  ⟨by rw [IsWhole]; exact ⟨k, h, rfl⟩, by simp⟩

theorem fits_array {n : Nat} {items : List Json} (h : ∀ x ∈ items, x.Fits n) :
    (Json.array items).Fits (n + 1) :=
  ⟨by rw [IsWhole, areWhole_iff]; exact fun x hx => (h x hx).whole, by
    rw [Json.levels]
    exact Nat.succ_le_succ (itemLevels_le.mpr fun x hx => (h x hx).levels)⟩

theorem fits_object {n : Nat} {fields : List (String × Json)} (h : ∀ f ∈ fields, f.2.Fits n) :
    (Json.object fields).Fits (n + 1) :=
  ⟨by rw [IsWhole, fieldsWhole_iff]; exact fun f hf => (h f hf).whole, by
    rw [Json.levels]
    exact Nat.succ_le_succ (fieldLevels_le.mpr fun f hf => (h f hf).levels)⟩

@[simp] theorem fits_texts (n : Nat) (ss : List String) : (Json.texts ss).Fits (n + 1) :=
  fits_array (by simp)

/-- A field that may be left out fits if it does when it is there. -/
theorem fits_fieldIfSome {α : Type} {n : Nat} {name : String} {write : α → Json} {o : Option α}
    (h : ∀ a ∈ o, (write a).Fits n) : ∀ f ∈ fieldIfSome name write o, f.2.Fits n := by
  cases o with
  | none => simp [fieldIfSome]
  | some a => simpa [fieldIfSome] using h a rfl

/-- **A value that was written is read back, where a text has room for it.** -/
theorem readText_pretty {α : Type} {r : Reader α} {j : Json} {a : α} (h : Reads r j a)
    (hfits : j.Fits nestingLimit) : readText r j.pretty = .ok a := by
  rw [readText, parse_pretty hfits.whole]
  simp only [h (.text nestingLimit) hfits.levels, ok_bind]
  rfl

end EntityLayout.Json
