/-
# The tokens of a printed value

A printed value is cut into the tokens it was printed from, in either layout and whatever
follows it.

* `Json.written`: the tokens of a value, with no text in between.
* `tokens_print`: printing and cutting up gives these tokens back.

Two things need care.  A number has no closing mark, so what follows it must not be able to
go on with it (`EndsNumeral`).  And only whole numbers below `2 ^ 64` are meant here
(`Json.IsWhole`): they are all that the documents of this library hold, and any other number
goes through binary floating point.
-/
import EntityLayout.Json.Print
import EntityLayout.Json.Token
import EntityLayout.Proofs.Outcome

namespace EntityLayout.Json

/-! ## 1. Cutting off a token leaves less text -/

theorem length_scanPieces (cs : List Char) : ∀ {rest : List Char},
    (scanPieces cs).2 = .ok rest → rest.length < cs.length := by
  fun_induction scanPieces cs with
  | case1 => intro rest h; cases h
  | case2 => intro rest h; cases h; simp
  | case3 _ _ _ _ _ _ _ _ _ hrec ih =>
    intro rest h
    have := @ih rest (by rw [hrec]; exact h)
    simp only [List.length_cons]
    omega
  | case4 => intro rest h; cases h
  | case5 => intro rest h; cases h
  | case6 _ _ _ _ _ _ _ _ hrec ih =>
    intro rest h
    have := @ih rest (by rw [hrec]; exact h)
    simp only [List.length_cons]
    omega
  | case7 => intro rest h; cases h
  | case8 => intro rest h; cases h
  | case9 => intro rest h; cases h
  | case10 _ _ _ _ _ _ _ _ _ _ hrec ih =>
    intro rest h
    have := @ih rest (by rw [hrec]; exact h)
    simp only [List.length_cons]
    omega

namespace Numeral

theorem length_scanDigits {cs ds rest : List Char} (h : scanDigits cs = .ok (ds, rest)) :
    rest.length < cs.length := by
  unfold scanDigits at h
  split at h
  · cases h
  · next hds =>
    simp only [Except.ok.injEq, Prod.mk.injEq] at h
    have hlen := congrArg List.length (List.takeWhile_append_dropWhile (p := Char.isDigit) (l := cs))
    have hpos : 0 < (cs.takeWhile Char.isDigit).length := List.length_pos_iff.mpr hds
    rw [List.length_append, h.2] at hlen
    omega

theorem length_scanWhole {cs ds rest : List Char} (h : scanWhole cs = .ok (ds, rest)) :
    rest.length < cs.length := by
  unfold scanWhole at h
  split at h
  · split at h
    · split at h
      · cases h
      · cases h; simp
    · cases h; simp
  · exact length_scanDigits h

theorem length_scanFraction {cs rest : List Char} {fraction : Option (List Char)}
    (h : scanFraction cs = .ok (fraction, rest)) : rest.length ≤ cs.length := by
  unfold scanFraction at h
  split at h
  · next tail =>
    cases hd : scanDigits tail with
    | error e => rw [hd] at h; cases h
    | ok p =>
      rw [hd] at h
      cases h
      have := length_scanDigits hd
      simp only [List.length_cons]
      omega
  · cases h; exact Nat.le_refl _

theorem length_scanSigned {cs rest : List Char} {signed : Bool × List Char}
    (h : scanSigned cs = .ok (signed, rest)) : rest.length < cs.length := by
  have digits : ∀ {sign : Bool} {tail : List Char},
      (scanDigits tail >>= fun p => pure ((sign, p.1), p.2)) = Except.ok (signed, rest) →
        rest.length < tail.length := by
    intro sign tail h
    cases hd : scanDigits tail with
    | error e => rw [hd] at h; cases h
    | ok p =>
      rw [hd] at h
      cases h
      exact length_scanDigits hd
  unfold scanSigned at h
  split at h
  · exact Nat.lt_succ_of_lt (digits h)
  · exact Nat.lt_succ_of_lt (digits h)
  · exact digits h

theorem length_scanPower {cs rest : List Char} {power : Option (Bool × List Char)}
    (h : scanPower cs = .ok (power, rest)) : rest.length ≤ cs.length := by
  unfold scanPower at h
  split at h
  · cases h; exact Nat.le_refl _
  · next c tail =>
    split at h
    · cases hs : scanSigned tail with
      | error e => rw [hs] at h; cases h
      | ok p =>
        rw [hs] at h
        cases h
        have := length_scanSigned hs
        simp only [List.length_cons]
        omega
    · cases h; exact Nat.le_refl _

theorem length_scan {cs rest : List Char} {n : Numeral} (h : scan cs = .ok (n, rest)) :
    rest.length < cs.length := by
  unfold scan at h
  split at h
  next negative tail heq =>
  have htail : rest.length < tail.length := by
    obtain ⟨⟨_, cs₁⟩, hw, h⟩ := bind_eq_ok.mp h
    obtain ⟨⟨_, cs₂⟩, hf, h⟩ := bind_eq_ok.mp h
    obtain ⟨⟨_, cs₃⟩, hp, h⟩ := bind_eq_ok.mp h
    cases h
    have := length_scanWhole hw
    have := length_scanFraction hf
    have := length_scanPower hp
    omega
  split at heq
  · cases heq
    exact Nat.lt_succ_of_lt htail
  · cases heq
    exact htail

end Numeral

theorem length_expectWord : ∀ {ws cs rest : List Char}, expectWord ws cs = .ok rest →
    rest.length ≤ cs.length
  | [], cs, rest, h => by cases h; exact Nat.le_refl _
  | _ :: _, [], rest, h => by cases h
  | w :: ws, c :: cs, rest, h => by
    rw [expectWord] at h
    split at h
    · have := length_expectWord h
      simp only [List.length_cons]
      omega
    · cases h

/-- A token takes at least the character that it begins with. -/
theorem length_nextToken (c : Char) (cs : List Char) :
    (nextToken c cs).2.length ≤ cs.length := by
  unfold nextToken
  split
  · exact Nat.le_refl _
  split
  · split
    · next ps rest h =>
      exact Nat.le_of_lt (length_scanPieces cs (by rw [h]))
    · exact Nat.zero_le _
  split
  · split
    · next n rest h => exact Nat.le_of_lt_succ (Numeral.length_scan h)
    · exact Nat.zero_le _
  split
  · split
    · next rest h => exact length_expectWord h
    · exact Nat.zero_le _
  · exact Nat.zero_le _

/-! ## 2. Equations for the tokens of a text -/

theorem tokensWithin_congr : ∀ (fuel fuel' : Nat) (cs : List Char), cs.length ≤ fuel →
    cs.length ≤ fuel' → tokensWithin fuel cs = tokensWithin fuel' cs
  | 0, 0, _, _, _ => rfl
  | 0, fuel' + 1, [], _, _ => rfl
  | fuel + 1, 0, [], _, _ => rfl
  | fuel + 1, fuel' + 1, [], _, _ => rfl
  | fuel + 1, fuel' + 1, c :: cs, h, h' => by
    simp only [List.length_cons] at h h'
    have hnext := length_nextToken c cs
    simp only [tokensWithin]
    rw [tokensWithin_congr fuel fuel' cs (by omega) (by omega),
      tokensWithin_congr fuel fuel' (nextToken c cs).2 (by omega) (by omega)]

@[simp] theorem tokens_nil : tokens [] = [] := rfl

theorem tokens_blank {c : Char} {cs : List Char} (h : isBlank c = true) :
    tokens (c :: cs) = tokens cs := by
  rw [tokens, List.length_cons, tokensWithin, if_pos h]
  rfl

theorem tokens_cons {c : Char} {cs rest : List Char} {t : Token} (hc : isBlank c = false)
    (h : nextToken c cs = (t, rest)) : tokens (c :: cs) = t :: tokens rest := by
  have hlen := length_nextToken c cs
  rw [h] at hlen
  rw [tokens, List.length_cons, tokensWithin, if_neg (by simp [hc]), h]
  exact congrArg (t :: ·) (tokensWithin_congr _ _ rest hlen (Nat.le_refl _))

theorem tokens_mark {c : Char} {cs : List Char} {t : Token} (hc : isBlank c = false)
    (h : mark? c = some t) : tokens (c :: cs) = t :: tokens cs :=
  tokens_cons hc (by rw [nextToken, h])

theorem tokens_replicate_space (n : Nat) (cs : List Char) :
    tokens (List.replicate n ' ' ++ cs) = tokens cs := by
  induction n with
  | zero => rfl
  | succ n ih =>
    rw [List.replicate_succ, List.cons_append, tokens_blank (by decide), ih]

/-- The blanks between the items of a value are no tokens. -/
theorem tokens_gap (style : Style) (depth : Nat) (cs : List Char) :
    tokens (style.gap depth ++ cs) = tokens cs := by
  cases style with
  | compact => rfl
  | pretty =>
    rw [Style.gap, lineBreak, List.cons_append, tokens_blank (by decide), tokens_replicate_space]

theorem tokens_colon (style : Style) (cs : List Char) :
    tokens (style.colon ++ cs) = .colon :: tokens cs := by
  cases style with
  | compact => exact tokens_mark (by decide) (by decide)
  | pretty =>
    exact (tokens_mark (by decide) (by decide)).trans (congrArg _ (tokens_blank (by decide)))

/-! ## 3. Texts -/

/-- How a character stands in a printed text: as itself, or as its number. -/
def piece (c : Char) : Piece :=
  if c.toNat < 32 ∧ c ≠ '\x08' ∧ c ≠ '\t' ∧ c ≠ '\n' ∧ c ≠ '\x0c' ∧ c ≠ '\r' then .unit c.toNat
  else .char c

/-- The digits of a number below 16 are read back. -/
theorem hexValue?_hexDigit : ∀ n < 16, Text.hexValue? (hexDigit n) = some n := by decide

theorem scanPieces_char {c : Char} (rest : List Char) (hq : c ≠ '"') (hb : c ≠ '\\')
    (hc : 32 ≤ c.toNat) :
    scanPieces (c :: rest) = (.char c :: (scanPieces rest).1, (scanPieces rest).2) := by
  rw [scanPieces.eq_def]
  split <;> simp_all

/-- An escaped character is one piece. -/
theorem scanPieces_escapedChar (c : Char) (rest : List Char) :
    scanPieces (escapedChar c ++ rest) =
      (piece c :: (scanPieces rest).1, (scanPieces rest).2) := by
  unfold escapedChar
  split
  · next h => subst h; rfl
  split
  · next h => subst h; rfl
  split
  · next h => subst h; rfl
  split
  · next h => subst h; rfl
  split
  · next h => subst h; rfl
  split
  · next h => subst h; rfl
  split
  · next h => subst h; rfl
  split
  · next hq hb h₁ h₂ h₃ h₄ h₅ hc =>
    have high : hexUnit? '0' '0' (hexDigit (c.toNat / 16)) (hexDigit (c.toNat % 16)) =
        some c.toNat := by
      rw [hexUnit?, hexValue?_hexDigit _ (by omega), hexValue?_hexDigit _ (by omega)]
      exact congrArg some (by show (0 * 16 + c.toNat / 16) * 16 + c.toNat % 16 = c.toNat; omega)
    rw [piece, if_pos ⟨hc, h₁, h₂, h₃, h₄, h₅⟩]
    simp only [List.cons_append, List.nil_append, scanPieces, high]
  · next hq hb _ _ _ _ _ hc =>
    rw [piece, if_neg fun h => hc h.1]
    exact scanPieces_char rest hq hb (Nat.not_lt.mp hc)

theorem scanPieces_escaped : ∀ (cs rest : List Char),
    scanPieces (cs.flatMap escapedChar ++ '"' :: rest) = (cs.map piece, .ok rest)
  | [], rest => rfl
  | c :: cs, rest => by
    rw [List.flatMap_cons, List.append_assoc, scanPieces_escapedChar,
      scanPieces_escaped cs rest]
    rfl

/-- A number below the surrogates is that of a character. -/
theorem joinPieces_unit {n : Nat} (h : n < 0xD800) (ps : List Piece) :
    joinPieces (.unit n :: ps) = (joinPieces ps).map (Char.ofNat n :: ·) := by
  have hlow : isLowSurrogate n = false := by simp [isLowSurrogate]; omega
  have hhigh : isHighSurrogate n = false := by simp [isHighSurrogate]; omega
  rw [joinPieces.eq_def]
  simp only [hlow, hhigh, Bool.false_eq_true, if_false]

/-- No printed character is half of a surrogate pair. -/
theorem joinPieces_map_piece : ∀ cs : List Char, joinPieces (cs.map piece) = some cs
  | [] => rfl
  | c :: cs => by
    rw [List.map_cons, piece]
    split
    · next h =>
      rw [joinPieces_unit (by omega), joinPieces_map_piece cs, Option.map_some, Char.ofNat_toNat]
    · rw [joinPieces, joinPieces_map_piece cs, Option.map_some]

theorem tokens_escaped (s : String) (rest : List Char) :
    tokens (escaped s ++ rest) = .text (some s) :: tokens rest := by
  have h : escaped s ++ rest = '"' :: (s.toList.flatMap escapedChar ++ '"' :: rest) := by
    simp [escaped]
  rw [h]
  refine tokens_cons (by decide) ?_
  rw [nextToken, show mark? '"' = none from rfl]
  simp only [if_true, scanPieces_escaped, joinPieces_map_piece, Option.map_some,
    String.ofList_toList]

/-! ## 4. Whole numbers -/

/-- The text cannot go on with a number that ends where it begins. -/
def EndsNumeral (cs : List Char) : Prop :=
  ∀ c rest, cs = c :: rest → c.isDigit = false ∧ c ≠ '.' ∧ c ≠ 'e' ∧ c ≠ 'E'

theorem endsNumeral_nil : EndsNumeral [] := fun _ _ h => nomatch h

theorem endsNumeral_cons {c : Char} {cs : List Char}
    (h : c.isDigit = false ∧ c ≠ '.' ∧ c ≠ 'e' ∧ c ≠ 'E') : EndsNumeral (c :: cs) := by
  rintro _ _ ⟨rfl, rfl⟩
  exact h

theorem endsNumeral_gap {style : Style} {depth : Nat} {cs : List Char} (h : EndsNumeral cs) :
    EndsNumeral (style.gap depth ++ cs) := by
  cases style with
  | compact => exact h
  | pretty => exact endsNumeral_cons (by decide)

namespace Numeral

/-- Digits are taken up to where they end. -/
theorem scanDigits_append {d : Char} {ds rest : List Char}
    (hd : ∀ c ∈ d :: ds, c.isDigit = true) (hr : EndsNumeral rest) :
    scanDigits (d :: ds ++ rest) = .ok (d :: ds, rest) := by
  have htake : (d :: ds ++ rest).takeWhile Char.isDigit = d :: ds := by
    rw [List.takeWhile_append_of_pos hd]
    cases rest with
    | nil => simp
    | cons c rest => simp [(hr c rest rfl).1]
  have hdrop : (d :: ds ++ rest).dropWhile Char.isDigit = rest := by
    rw [List.dropWhile_append_of_pos hd]
    cases rest with
    | nil => rfl
    | cons c rest => simp [(hr c rest rfl).1]
  unfold scanDigits
  rw [htake, hdrop]

/-- The digits of a number other than zero do not begin with a zero. -/
theorem head?_toDigits : ∀ n : Nat, 0 < n → (Nat.toDigits 10 n).head? ≠ some '0' := by
  intro n
  induction n using Nat.strongRecOn with
  | _ n ih =>
    intro hn
    by_cases h : n < 10
    · have table : ∀ m < 10, 0 < m → [m.digitChar].head? ≠ some '0' := by decide
      rw [Nat.toDigits_of_lt_base h]
      exact table n h hn
    · rw [Nat.toDigits_of_base_le (by decide) (Nat.not_lt.mp h), List.head?_append,
        Option.or_of_isSome (by rw [List.isSome_head?]; exact Nat.toDigits_ne_nil)]
      exact ih (n / 10) (by omega) (by omega)

theorem scanWhole_toDigits (n : Nat) {rest : List Char} (hr : EndsNumeral rest) :
    scanWhole (Nat.toDigits 10 n ++ rest) = .ok (Nat.toDigits 10 n, rest) := by
  rcases Nat.eq_zero_or_pos n with rfl | hn
  · rw [Nat.toDigits_zero]
    cases rest with
    | nil => rfl
    | cons c rest => simp [scanWhole, (hr c rest rfl).1]
  · have hdigit : ∀ c ∈ Nat.toDigits 10 n, c.isDigit = true :=
      fun c hc => Nat.isDigit_of_mem_toDigits (by decide) (by decide) hc
    have hhead := head?_toDigits n hn
    cases hds : Nat.toDigits 10 n with
    | nil => exact absurd hds Nat.toDigits_ne_nil
    | cons d ds =>
      rw [hds] at hdigit hhead
      have hd : d ≠ '0' := fun e => hhead (congrArg some e)
      rw [← scanDigits_append hdigit hr, scanWhole.eq_def]
      split
      · next h => exact absurd (List.cons.inj h).1 hd
      · rfl

theorem scan_toDigits (n : Nat) {rest : List Char} (hr : EndsNumeral rest) :
    scan (Nat.toDigits 10 n ++ rest) = .ok (⟨false, Nat.toDigits 10 n, none, none⟩, rest) := by
  have hsign : ∀ tail, Nat.toDigits 10 n ++ rest ≠ '-' :: tail := by
    intro tail h
    cases hds : Nat.toDigits 10 n with
    | nil => exact Nat.toDigits_ne_nil hds
    | cons d ds =>
      have hd : d.isDigit = true := Nat.isDigit_of_mem_toDigits (n := n) (b := 10) (by decide)
        (by decide) (by rw [hds]; exact List.mem_cons_self)
      rw [hds] at h
      rw [(List.cons.inj h).1] at hd
      exact absurd hd (by decide)
  have hfraction : scanFraction rest = .ok (none, rest) := by
    unfold scanFraction
    split
    · next h => exact absurd rfl (hr _ _ rfl).2.1
    · rfl
  have hpower : scanPower rest = .ok (none, rest) := by
    unfold scanPower
    split
    · rfl
    · next c tail =>
      have hc := hr c tail rfl
      rw [if_neg (by rintro (rfl | rfl); exacts [hc.2.2.1 rfl, hc.2.2.2 rfl])]
  unfold scan
  split
  next negative tail heq =>
  split at heq
  · next h => exact absurd h (hsign _)
  · cases heq
    simp only [scanWhole_toDigits n hr, hfraction, hpower, ok_bind]
    rfl

/-- Digits whose number is in range are all taken. -/
theorem extend_eq : ∀ (ds : List Char) (s : Nat), Nat.ofDigitChars 10 ds s ≤ greatestSignificand →
    extend s ds = (Nat.ofDigitChars 10 ds s, ds.length, 0)
  | [], s, _ => by simp [extend]
  | c :: cs, s, h => by
    rw [Nat.ofDigitChars_cons] at h
    have hle : 10 * s + (c.toNat - '0'.toNat) ≤ greatestSignificand := by
      rw [Nat.ofDigitChars_eq_ofDigitChars_zero] at h
      have := Nat.le_mul_of_pos_left (10 * s + (c.toNat - '0'.toNat))
        (Nat.pow_pos (n := cs.length) (show 0 < 10 by decide))
      omega
    simp only [extend, Text.digitValue, if_pos hle, extend_eq cs _ h, Nat.ofDigitChars_cons,
      List.length_cons]

theorem value_toDigits {n : Nat} (h : n < 0x10000000000000000) :
    value ⟨false, Nat.toDigits 10 n, none, none⟩ = some (.natural n) := by
  have hn : Nat.ofDigitChars 10 (Nat.toDigits 10 n) 0 = n := Nat.ofDigitChars_ten_toDigits
  have hextend := extend_eq (Nat.toDigits 10 n) 0 (by
    rw [hn, greatestSignificand]
    omega)
  simp only [value, hextend, hn, and_self, if_true, Bool.false_eq_true, if_false]

end Numeral

theorem tokens_natural {n : Nat} (h : n < 0x10000000000000000) {rest : List Char} (hr : EndsNumeral rest) :
    tokens ((Number.natural n).text.toList ++ rest) =
      .number (some (.natural n)) :: tokens rest := by
  rw [Number.text, Nat.toList_repr]
  have hscan := Numeral.scan_toDigits n hr
  cases hds : Nat.toDigits 10 n with
  | nil => exact absurd hds Nat.toDigits_ne_nil
  | cons d ds =>
    have hd : d.isDigit = true := Nat.isDigit_of_mem_toDigits (n := n) (b := 10) (by decide)
      (by decide) (by rw [hds]; exact List.mem_cons_self)
    have hmark : mark? d = none := by
      unfold mark?
      split <;> first | rfl | exact absurd hd (by decide)
    have hquote : d ≠ '"' := by rintro rfl; exact absurd hd (by decide)
    have hblank : isBlank d = false := by
      have : ∀ c : Char, isBlank c = true → c.isDigit = false := by
        intro c hc
        simp only [isBlank, Bool.or_eq_true, decide_eq_true_eq] at hc
        rcases hc with ((rfl | rfl) | rfl) | rfl <;> rfl
      cases hb : isBlank d with
      | false => rfl
      | true => rw [this d hb] at hd; cases hd
    have hvalue := Numeral.value_toDigits h
    rw [hds] at hscan hvalue
    refine tokens_cons hblank ?_
    rw [nextToken, hmark]
    simp only [if_neg hquote, if_pos (Or.inr hd : d = '-' ∨ d.isDigit = true)]
    rw [show Numeral.scan (d :: ds.append rest) = _ from hscan]
    simp only [hvalue]

/-! ## 5. Values -/

mutual

/-- Every number of the value is a whole one that fits 64 bits. -/
def IsWhole : Json → Prop
  | .null => True
  | .bool _ => True
  | .number n => ∃ k < 0x10000000000000000, n = .natural k
  | .text _ => True
  | .array items => AreWhole items
  | .object fields => FieldsWhole fields

/-- The same of each item. -/
def AreWhole : List Json → Prop
  | [] => True
  | x :: xs => IsWhole x ∧ AreWhole xs

/-- The same of each field. -/
def FieldsWhole : List (String × Json) → Prop
  | [] => True
  | (_, v) :: fs => IsWhole v ∧ FieldsWhole fs

end

mutual

/-- The tokens of a value. -/
def written : Json → List Token
  | .null => [.null]
  | .bool b => [.bool b]
  | .number n => [.number (some n)]
  | .text s => [.text (some s)]
  | .array [] => [.beginArray, .endArray]
  | .array (x :: xs) => .beginArray :: (written x ++ (writtenItems xs ++ [.endArray]))
  | .object [] => [.beginObject, .endObject]
  | .object ((k, v) :: fs) =>
    .beginObject :: .text (some k) :: .colon :: (written v ++ (writtenFields fs ++ [.endObject]))

/-- The tokens of the items after the first. -/
def writtenItems : List Json → List Token
  | [] => []
  | x :: xs => .comma :: (written x ++ writtenItems xs)

/-- The tokens of the fields after the first. -/
def writtenFields : List (String × Json) → List Token
  | [] => []
  | (k, v) :: fs => .comma :: .text (some k) :: .colon :: (written v ++ writtenFields fs)

end

theorem endsNumeral_printItems {style : Style} {depth : Nat} {rest : List Char} :
    ∀ xs : List Json, EndsNumeral rest → EndsNumeral (printItems style depth xs ++ rest)
  | [], h => h
  | _ :: _, _ => endsNumeral_cons (by decide)

theorem endsNumeral_printFields {style : Style} {depth : Nat} {rest : List Char} :
    ∀ fs : List (String × Json), EndsNumeral rest →
      EndsNumeral (printFields style depth fs ++ rest)
  | [], h => h
  | _ :: _, _ => endsNumeral_cons (by decide)

mutual

/-- **Printing and cutting up.**  The tokens of a printed value are those it was printed
from. -/
theorem tokens_print (style : Style) : ∀ (j : Json) (depth : Nat) {rest : List Char},
    j.IsWhole → EndsNumeral rest →
      tokens (print style depth j ++ rest) = written j ++ tokens rest
  | .null, _, _, _, _ => tokens_cons (by decide) rfl
  | .bool true, _, _, _, _ => tokens_cons (by decide) rfl
  | .bool false, _, _, _, _ => tokens_cons (by decide) rfl
  | .number n, _, _, h, hr => by
    rw [IsWhole] at h
    obtain ⟨k, hk, rfl⟩ := h
    exact tokens_natural hk hr
  | .text s, _, _, _, _ => tokens_escaped s _
  | .array [], _, _, _, _ => by
    rw [print, written]
    exact (tokens_mark (by decide) rfl).trans
      (congrArg _ (tokens_mark (by decide) rfl))
  | .array (x :: xs), depth, rest, h, hr => by
    rw [IsWhole, AreWhole] at h
    have hclose : EndsNumeral (style.gap depth ++ ']' :: rest) :=
      endsNumeral_gap (endsNumeral_cons (by decide))
    simp only [print, written, List.append_assoc, List.cons_append, List.nil_append]
    rw [tokens_mark (by decide) rfl, tokens_gap,
      tokens_print style x (depth + 1) h.1 (endsNumeral_printItems xs hclose),
      tokens_printItems style xs (depth + 1) h.2 hclose, tokens_gap, tokens_mark (by decide) rfl]
  | .object [], _, _, _, _ => by
    rw [print, written]
    exact (tokens_mark (by decide) rfl).trans
      (congrArg _ (tokens_mark (by decide) rfl))
  | .object ((k, v) :: fs), depth, rest, h, hr => by
    rw [IsWhole, FieldsWhole] at h
    have hclose : EndsNumeral (style.gap depth ++ '\x7d' :: rest) :=
      endsNumeral_gap (endsNumeral_cons (by decide))
    simp only [print, written, List.append_assoc, List.cons_append, List.nil_append]
    rw [tokens_mark (by decide) rfl, tokens_gap, tokens_escaped, tokens_colon,
      tokens_print style v (depth + 1) h.1 (endsNumeral_printFields fs hclose),
      tokens_printFields style fs (depth + 1) h.2 hclose, tokens_gap,
      tokens_mark (by decide) rfl]

theorem tokens_printItems (style : Style) : ∀ (xs : List Json) (depth : Nat)
    {rest : List Char}, AreWhole xs → EndsNumeral rest →
      tokens (printItems style depth xs ++ rest) = writtenItems xs ++ tokens rest
  | [], _, _, _, _ => rfl
  | x :: xs, depth, rest, h, hr => by
    rw [AreWhole] at h
    simp only [printItems, writtenItems, List.append_assoc, List.cons_append]
    rw [tokens_mark (by decide) rfl, tokens_gap,
      tokens_print style x depth h.1 (endsNumeral_printItems xs hr),
      tokens_printItems style xs depth h.2 hr]

theorem tokens_printFields (style : Style) : ∀ (fs : List (String × Json)) (depth : Nat)
    {rest : List Char}, FieldsWhole fs → EndsNumeral rest →
      tokens (printFields style depth fs ++ rest) = writtenFields fs ++ tokens rest
  | [], _, _, _, _ => rfl
  | (k, v) :: fs, depth, rest, h, hr => by
    rw [FieldsWhole] at h
    simp only [printFields, writtenFields, List.append_assoc, List.cons_append]
    rw [tokens_mark (by decide) rfl, tokens_gap, tokens_escaped, tokens_colon,
      tokens_print style v depth h.1 (endsNumeral_printFields fs hr),
      tokens_printFields style fs depth h.2 hr]

end

end EntityLayout.Json
