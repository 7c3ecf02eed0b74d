/-
# SQL can be read in one way only

Nothing separates the parts of a statement but the marks around them, and an identifier may hold
any of these marks.  What keeps the parts apart is that no identifier begins another one: the
quote that closes it is not followed by a second quote.

* `Readable`: a written value can be told from what follows it.
* `Readable.append`, `Readable.image`, `Readable.or`: so can what is put together from such values.
* `Readable.listed`: so can lists of them, behind a text that opens the list and with a text
  between the items.
* `readable_quoteIdentifier`: identifiers can be told from what follows, unless it is a quote.
* `SqlType.readable_spelling`: and types, unless it is a quote or a bracket.
-/
import EntityLayout.Proofs.Outcome
import EntityLayout.Sql.Token
import Mathlib.Data.List.Basic

namespace EntityLayout.Sql

variable {α β : Type}

/-! ## 1. Telling a value from what follows -/

/-- Values with `P` are known from a text that begins with their writing, and so is the rest of the
text, if it is one that may follow. -/
def Readable (Ends : List Char → Prop) (P : α → Prop) (write : α → List Char) : Prop :=
  ∀ ⦃a b : α⦄, P a → P b → ∀ ⦃r s : List Char⦄, Ends r → Ends s →
    write a ++ r = write b ++ s → a = b ∧ r = s

/-- An open list: each item stands behind a lead. -/
def ledBy (lead : List Char) (write : α → List Char) (items : List α) : List Char :=
  items.flatMap fun a => lead ++ write a

/-- A list whose first item stands behind an opening and every other one behind a lead. -/
def listed (opening lead : List Char) (write : α → List Char) : List α → List Char
  | [] => []
  | a :: as => opening ++ (write a ++ ledBy lead write as)

namespace Readable

variable {Ends Ends' : List Char → Prop} {P Q : α → Prop} {write : α → List Char}
  {opening lead : List Char}

/-- **Two values with the same text are equal**, if a text may end behind them. -/
theorem inj (h : Readable Ends P write) (hends : Ends []) {a b : α} (ha : P a) (hb : P b)
    (heq : write a = write b) : a = b :=
  (h ha hb hends hends (by rw [heq])).1

theorem mono (h : Readable Ends P write) (hends : ∀ r, Ends' r → Ends r) (hP : ∀ a, Q a → P a) :
    Readable Ends' Q write :=
  fun _ _ ha hb _ _ hr hs heq => h (hP _ ha) (hP _ hb) (hends _ hr) (hends _ hs) heq

/-- A text before the value does not hide it. -/
theorem behind (h : Readable Ends P write) (opening : List Char) :
    Readable Ends P fun a => opening ++ write a := by
  intro a b ha hb r s hr hs heq
  rw [List.append_assoc, List.append_assoc] at heq
  exact h ha hb hr hs (List.append_cancel_left heq)

/-- Behind a text that closes the value anything may follow. -/
theorem closed (h : Readable Ends P write) (closing : List Char)
    (hends : ∀ r, Ends (closing ++ r)) :
    Readable (fun _ => True) P fun a => write a ++ closing := by
  intro a b ha hb r s _ _ heq
  rw [List.append_assoc, List.append_assoc] at heq
  obtain ⟨hab, hrest⟩ := h ha hb (hends r) (hends s) heq
  exact ⟨hab, List.append_cancel_left hrest⟩

/-- **Two values in a row can be told apart**, if the second may follow the first. -/
theorem append {R : β → Prop} {write' : β → List Char} (h : Readable Ends P write)
    (h' : Readable Ends' R write') (hends : ∀ b, R b → ∀ r, Ends' r → Ends (write' b ++ r)) :
    Readable Ends' (fun p : α × β => P p.1 ∧ R p.2) fun p => write p.1 ++ write' p.2 := by
  rintro ⟨a, b⟩ ⟨a', b'⟩ ⟨ha, hb⟩ ⟨ha', hb'⟩ r s hr hs heq
  rw [List.append_assoc, List.append_assoc] at heq
  obtain ⟨rfl, hrest⟩ := h ha ha' (hends b hb r hr) (hends b' hb' s hs) heq
  obtain ⟨rfl, rfl⟩ := h' hb hb' hr hs hrest
  exact ⟨rfl, rfl⟩

/-- Values made from others are known where those are. -/
theorem image (h : Readable Ends P write) (f : α → β) (write' : β → List Char)
    (hwrite : ∀ a, P a → write' (f a) = write a) :
    Readable Ends (fun b => ∃ a, P a ∧ f a = b) write' := by
  rintro _ _ ⟨a, ha, rfl⟩ ⟨b, hb, rfl⟩ r s hr hs heq
  rw [hwrite a ha, hwrite b hb] at heq
  obtain ⟨rfl, rfl⟩ := h ha hb hr hs heq
  exact ⟨rfl, rfl⟩

/-- Values of two kinds are known if no text is of both kinds. -/
theorem or (h : Readable Ends P write) (h' : Readable Ends Q write)
    (hne : ∀ a b, P a → Q b → ∀ r s, write a ++ r ≠ write b ++ s) :
    Readable Ends (fun a => P a ∨ Q a) write := by
  rintro a b (ha | ha) (hb | hb) r s hr hs heq
  · exact h ha hb hr hs heq
  · exact absurd heq (hne a b ha hb r s)
  · exact absurd heq.symm (hne b a hb ha s r)
  · exact h' ha hb hr hs heq

theorem ledBy_append (lead : List Char) (write : α → List Char) (a : α) (as : List α)
    (r : List Char) :
    Sql.ledBy lead write (a :: as) ++ r = lead ++ (write a ++ (Sql.ledBy lead write as ++ r)) := by
  simp [Sql.ledBy]

theorem listed_append (opening lead : List Char) (write : α → List Char) (a : α) (as : List α)
    (r : List Char) : Sql.listed opening lead write (a :: as) ++ r =
      opening ++ (write a ++ (Sql.ledBy lead write as ++ r)) := by
  simp [Sql.listed]

/-- Behind an item stands the lead of the next one or what follows the list. -/
theorem ends_ledBy (hlead : ∀ t, Ends (lead ++ t)) {r : List Char} (hr : Ends r) :
    ∀ as : List α, Ends (Sql.ledBy lead write as ++ r)
  | [] => hr
  | a :: as => by
    rw [ledBy_append]
    exact hlead _

/-- **A list of led items can be told from what follows it**, unless that begins like a lead. -/
theorem ledBy (h : Readable Ends P write) (lead : List Char) (hlead : ∀ t, Ends (lead ++ t)) :
    Readable (fun r => Ends r ∧ ¬ lead <+: r) (fun as => ∀ a ∈ as, P a)
      (Sql.ledBy lead write) := by
  intro as
  induction as with
  | nil =>
    intro bs _ _ r s hr hs heq
    cases bs with
    | nil => exact ⟨rfl, heq⟩
    | cons b bs =>
      rw [ledBy_append] at heq
      exact absurd ⟨_, heq.symm⟩ hr.2
  | cons a as ih =>
    intro bs has hbs r s hr hs heq
    cases bs with
    | nil =>
      rw [ledBy_append] at heq
      exact absurd ⟨_, heq⟩ hs.2
    | cons b bs =>
      rw [List.forall_mem_cons] at has hbs
      rw [ledBy_append, ledBy_append] at heq
      obtain ⟨rfl, hrest⟩ := h has.1 hbs.1 (ends_ledBy hlead hr.1 as) (ends_ledBy hlead hs.1 bs)
        (List.append_cancel_left heq)
      obtain ⟨rfl, rfl⟩ := ih has.2 hbs.2 hr hs hrest
      exact ⟨rfl, rfl⟩

/-- **A list can be told from what follows it**, unless that begins like the list or like a
further item. -/
theorem listed (h : Readable Ends P write) (opening lead : List Char)
    (hlead : ∀ t, Ends (lead ++ t)) :
    Readable (fun r => Ends r ∧ ¬ lead <+: r ∧ ¬ opening <+: r) (fun as => ∀ a ∈ as, P a)
      (Sql.listed opening lead write) := by
  intro as bs has hbs r s hr hs heq
  cases as with
  | nil =>
    cases bs with
    | nil => exact ⟨rfl, heq⟩
    | cons b bs =>
      rw [listed_append] at heq
      exact absurd ⟨_, heq.symm⟩ hr.2.2
  | cons a as =>
    cases bs with
    | nil =>
      rw [listed_append] at heq
      exact absurd ⟨_, heq⟩ hs.2.2
    | cons b bs =>
      rw [List.forall_mem_cons] at has hbs
      rw [listed_append, listed_append] at heq
      obtain ⟨rfl, hrest⟩ := h has.1 hbs.1 (ends_ledBy hlead hr.1 as) (ends_ledBy hlead hs.1 bs)
        (List.append_cancel_left heq)
      obtain ⟨rfl, rfl⟩ := h.ledBy lead hlead has.2 hbs.2 ⟨hr.1, hr.2.1⟩ ⟨hs.1, hs.2.1⟩ hrest
      exact ⟨rfl, rfl⟩

/-- A text without some mark ends at the first one. -/
theorem of_notMem (mark : Char) :
    Readable (fun r => ∃ t, r = mark :: t) (fun cs => mark ∉ cs) fun cs => cs := by
  rintro a b ha hb _ _ ⟨r, rfl⟩ ⟨s, rfl⟩ heq
  have hcut : ∀ {cs : List Char} (t : List Char), mark ∉ cs →
      (cs ++ mark :: t).takeWhile (· ≠ mark) = cs := by
    intro cs t hcs
    have hall : ∀ c ∈ cs, decide (c ≠ mark) = true :=
      fun c hc => decide_eq_true fun h => hcs (h ▸ hc)
    rw [List.takeWhile_append_of_pos hall, List.takeWhile_cons_of_neg (by simp), List.append_nil]
  obtain rfl : a = b := by rw [← hcut r ha, heq, hcut s hb]
  exact ⟨rfl, List.append_cancel_left heq⟩

end Readable

/-! ## 2. Identifiers -/

/-- No quote follows. -/
def EndsName (r : List Char) : Prop := r.head? ≠ some '"'

theorem doubleQuotes_append_inj : ∀ {cs ds r s : List Char}, EndsName r → EndsName s →
    doubleQuotes cs ++ '"' :: r = doubleQuotes ds ++ '"' :: s → cs = ds ∧ r = s
  | [], [], r, s, _, _, h => ⟨rfl, (List.cons.inj h).2⟩
  | [], d :: ds, r, s, hr, _, h => by
    -- a quote of the other name would be a second one behind the closing quote
    rw [doubleQuotes, doubleQuotes] at h
    split at h
    · exact absurd (congrArg List.head? (List.cons.inj h).2) hr
    · next hd => exact absurd (List.cons.inj h).1.symm hd
  | c :: cs, [], r, s, _, hs, h => by
    rw [doubleQuotes, doubleQuotes] at h
    split at h
    · exact absurd (congrArg List.head? (List.cons.inj h).2).symm hs
    · next hc => exact absurd (List.cons.inj h).1 hc
  | c :: cs, d :: ds, r, s, hr, hs, h => by
    rw [doubleQuotes, doubleQuotes] at h
    by_cases hc : c = '"' <;> by_cases hd : d = '"'
    · rw [if_pos hc, if_pos hd] at h
      obtain ⟨rfl, hrest⟩ := doubleQuotes_append_inj hr hs
        (List.cons.inj (List.cons.inj h).2).2
      exact ⟨by rw [hc, hd], hrest⟩
    · rw [if_pos hc, if_neg hd] at h
      exact absurd (List.cons.inj h).1.symm hd
    · rw [if_neg hc, if_pos hd] at h
      exact absurd (List.cons.inj h).1 hc
    · rw [if_neg hc, if_neg hd] at h
      obtain ⟨rfl, hrest⟩ := doubleQuotes_append_inj hr hs (List.cons.inj h).2
      exact ⟨by rw [(List.cons.inj h).1], hrest⟩

theorem toList_quoteIdentifier (s : String) :
    (quoteIdentifier s).toList = '"' :: (doubleQuotes s.toList ++ ['"']) := by
  simp [quoteIdentifier]

/-- **An identifier is known from a text that begins with it**, unless a quote follows. -/
theorem readable_quoteIdentifier :
    Readable EndsName (fun _ => True) fun s => (quoteIdentifier s).toList := by
  intro a b _ _ r s hr hs h
  simp only [toList_quoteIdentifier, List.cons_append, List.append_assoc, List.nil_append] at h
  obtain ⟨hchars, hrest⟩ := doubleQuotes_append_inj hr hs (List.cons.inj h).2
  exact ⟨String.toList_inj.mp hchars, hrest⟩

/-! ## 3. Types -/

namespace SqlType

/-- The type of what arrays hold in the end. -/
def single : SqlType → SqlType
  | array item => item.single
  | t => t

/-- How many arrays are around it. -/
def arrays : SqlType → Nat
  | array item => item.arrays + 1
  | _ => 0

/-- So many pairs of brackets. -/
def brackets : Nat → List Char
  | 0 => []
  | n + 1 => '[' :: ']' :: brackets n

theorem brackets_append (r : List Char) : ∀ n : Nat,
    brackets n ++ '[' :: ']' :: r = '[' :: ']' :: (brackets n ++ r)
  | 0 => rfl
  | n + 1 => by rw [brackets, List.cons_append, List.cons_append, brackets_append r n]; rfl

theorem toList_spelling : ∀ t : SqlType,
    t.spelling.toList = t.single.spelling.toList ++ brackets t.arrays
  | array item => by
    have h := brackets_append [] item.arrays
    rw [List.append_nil] at h
    simp [spelling, toList_spelling item, single, arrays, brackets, h]
  | integer | varchar _ | text | composite _ => by simp [single, arrays, brackets]

/-- A type is known from the innermost one and the number of arrays around it. -/
theorem eq_of_single_eq : ∀ {t u : SqlType}, t.single = u.single → t.arrays = u.arrays → t = u
  | array _, array _, h, hn => congrArg array (eq_of_single_eq h (Nat.succ.inj hn))
  | integer, u, h, hn | varchar _, u, h, hn | text, u, h, hn | composite _, u, h, hn => by
    cases u with
    | array item => exact nomatch hn
    | integer | varchar _ | text | composite _ => exact h

theorem single_ne_array : ∀ t item : SqlType, t.single ≠ array item
  | array t, item => single_ne_array t item
  | integer, _ | varchar _, _ | text, _ | composite _, _ => nofun

/-- No bracket follows, and no quote. -/
def Ends (r : List Char) : Prop := r.head? ≠ some '[' ∧ EndsName r

theorem brackets_append_inj : ∀ {m n : Nat} {r s : List Char}, r.head? ≠ some '[' →
    s.head? ≠ some '[' → brackets m ++ r = brackets n ++ s → m = n ∧ r = s
  | 0, 0, _, _, _, _, h => ⟨rfl, h⟩
  | 0, n + 1, _, _, hr, _, h => absurd (congrArg List.head? h) hr
  | m + 1, 0, _, _, _, hs, h => absurd (congrArg List.head? h).symm hs
  | m + 1, n + 1, _, _, hr, hs, h => by
    obtain ⟨rfl, hrest⟩ := brackets_append_inj hr hs (List.cons.inj (List.cons.inj h).2).2
    exact ⟨rfl, hrest⟩

theorem readable_brackets :
    Readable (fun r => r.head? ≠ some '[') (fun _ => True) brackets :=
  fun _ _ _ _ _ _ hr hs h => brackets_append_inj hr hs h

/-- A parenthesis ends a number. -/
theorem readable_repr : Readable (fun r => ∃ t, r = ')' :: t) (fun _ => True)
    fun n => (Nat.repr n).toList := by
  have hdigits : ∀ k : Nat, ')' ∉ (Nat.repr k).toList := fun k hk =>
    absurd (Nat.isDigit_of_mem_toDigits (by decide) (by decide) (Nat.toList_repr ▸ hk)) (by decide)
  intro m n _ _ r s hr hs heq
  obtain ⟨hchars, hrest⟩ := Readable.of_notMem ')' (hdigits m) (hdigits n) hr hs heq
  rw [Nat.toList_repr, Nat.toList_repr] at hchars
  refine ⟨?_, hrest⟩
  rw [← Nat.ofDigitChars_ten_toDigits (n := m), hchars, Nat.ofDigitChars_ten_toDigits]

/-- **The types of single values can be told from what follows**, unless it is a quote.  Their
first letters tell the kinds apart. -/
theorem readable_single : Readable EndsName (fun t => ∀ item, t ≠ array item)
    fun t => t.spelling.toList := by
  intro t u ht hu r s hr hs heq
  cases t with
  | array item => exact absurd rfl (ht item)
  | integer => cases u with
    | array item => exact absurd rfl (hu item)
    | integer => exact ⟨rfl, List.append_cancel_left heq⟩
    | varchar n | text | composite n => simp [spelling, toList_quoteIdentifier] at heq
  | text => cases u with
    | array item => exact absurd rfl (hu item)
    | text => exact ⟨rfl, List.append_cancel_left heq⟩
    | integer | varchar n | composite n => simp [spelling, toList_quoteIdentifier] at heq
  | varchar m => cases u with
    | array item => exact absurd rfl (hu item)
    | integer | text | composite n => simp [spelling, toList_quoteIdentifier] at heq
    | varchar n =>
      have hclosed := (readable_repr.closed [')'] fun t => ⟨t, rfl⟩).behind
        "VARCHAR(".toList
      obtain ⟨rfl, hrest⟩ := hclosed trivial trivial trivial trivial
        (by simpa [spelling] using heq)
      exact ⟨rfl, hrest⟩
  | composite m => cases u with
    | array item => exact absurd rfl (hu item)
    | integer | text | varchar n => simp [spelling, toList_quoteIdentifier] at heq
    | composite n =>
      obtain ⟨rfl, hrest⟩ := readable_quoteIdentifier trivial trivial hr hs heq
      exact ⟨rfl, hrest⟩

theorem endsName_brackets {r : List Char} (hr : Ends r) : ∀ n : Nat, EndsName (brackets n ++ r)
  | 0 => hr.2
  | n + 1 => by simp [EndsName, brackets]

/-- **A type can be told from what follows**, unless it is a quote or a bracket. -/
theorem readable_spelling : Readable Ends (fun _ => True) fun t : SqlType => t.spelling.toList := by
  intro t u _ _ r s hr hs heq
  have hparts := readable_single.append (readable_brackets.mono (fun r hr => hr.1) fun _ h => h)
    fun n _ r (hr : Ends r) => endsName_brackets hr n
  dsimp only at heq
  rw [toList_spelling t, toList_spelling u] at heq
  obtain ⟨hparts, rfl⟩ := @hparts (t.single, t.arrays) (u.single, u.arrays)
    ⟨t.single_ne_array, trivial⟩ ⟨u.single_ne_array, trivial⟩ r s hr hs heq
  obtain ⟨hsingle, harrays⟩ := Prod.mk.inj hparts
  exact ⟨eq_of_single_eq hsingle harrays, rfl⟩

end SqlType

/-! ## 4. Tokens -/

/-- What tokens write. -/
def chars (d : Dialect) (ts : List Token) : List Char := ts.flatMap fun t => (t.text d).toList

theorem toList_render (d : Dialect) (ts : List Token) : (render d ts).toList = chars d ts := by
  simp [render, chars, String.toList_join, List.flatMap_map]

@[simp] theorem chars_nil (d : Dialect) : chars d [] = [] := rfl

@[simp] theorem chars_cons (d : Dialect) (t : Token) (ts : List Token) :
    chars d (t :: ts) = (t.text d).toList ++ chars d ts := List.flatMap_cons

@[simp] theorem chars_append (d : Dialect) (ts us : List Token) :
    chars d (ts ++ us) = chars d ts ++ chars d us := List.flatMap_append

/-- What stands behind the first of several is led by the separator. -/
theorem chars_separated (d : Dialect) (separator : List Token) (tokens : α → List Token) :
    ∀ (a : α) (as : List α), chars d (separated separator ((a :: as).map tokens)) =
      chars d (tokens a) ++ ledBy (chars d separator) (fun a => chars d (tokens a)) as
  | a, [] => by simp [separated, ledBy]
  | a, b :: as => by
    have ih := chars_separated d separator tokens b as
    simp only [List.map_cons] at ih ⊢
    rw [separated, chars_append, chars_append, ih]
    simp [ledBy]

end EntityLayout.Sql
