/-
# Small letters stay small

Names are made small when a diagram is built and again each time a node is looked up, so the
second time has to change nothing.

* `lower_lower`: a text in small letters is its own small form.
* `lower_of_ascii`: for a text of ASCII the small form is taken letter by letter.
* `lower_asciiLower`: in any text it may be taken of the letters of ASCII first.

The first one rests on the table of runs: no image of a run lies in a run.  Runs are compared
pair by pair (`CaseRun.isApart`), which the kernel decides once for the whole table.
-/
import EntityLayout.Text.Case

namespace EntityLayout.Text

/-! ## 1. The letters of ASCII -/

/-- The capitals of ASCII lie thirty-two places before their small forms. -/
theorem toNat_toLower (c : Char) : c.toLower.toNat =
    if 65 ≤ c.toNat ∧ c.toNat ≤ 90 then c.toNat + 32 else c.toNat := by
  have hcapital : (c.val ≥ 'A'.val ∧ c.val ≤ 'Z'.val) ↔ (65 ≤ c.toNat ∧ c.toNat ≤ 90) := Iff.rfl
  unfold Char.toLower
  by_cases h : c.val ≥ 'A'.val ∧ c.val ≤ 'Z'.val
  · rw [dif_pos h, if_pos (hcapital.mp h)]
    have hc : c.toNat ≤ 90 := h.2
    exact (UInt32.toNat_add c.val 32).trans
      (Nat.mod_eq_of_lt (show c.toNat + 32 < 2 ^ 32 by omega))
  · rw [dif_neg h, if_neg (mt hcapital.mpr h)]

theorem toLower_eq_self {c : Char} (h : c.toNat < 65 ∨ 90 < c.toNat) : c.toLower = c := by
  apply Char.toNat_inj.mp
  rw [toNat_toLower, if_neg (by omega)]

/-- The capitals of ASCII become small letters of ASCII, and everything else is left as it is. -/
theorem toLower_cases (c : Char) : c.toLower = c ∨ (65 ≤ c.toNat ∧ c.toNat ≤ 90) ∧
    97 ≤ c.toLower.toNat ∧ c.toLower.toNat ≤ 122 := by
  by_cases h : 65 ≤ c.toNat ∧ c.toNat ≤ 90
  · rw [toNat_toLower, if_pos h]
    omega
  · exact .inl (toLower_eq_self (by omega))

theorem toLower_toLower (c : Char) : c.toLower.toLower = c.toLower := by
  rcases toLower_cases c with h | ⟨-, h, -⟩
  · rw [h, h]
  · exact toLower_eq_self (by omega)

theorem toNat_toLower_lt {c : Char} (h : c.toNat < 128) : c.toLower.toNat < 128 := by
  rcases toLower_cases c with hsame | ⟨-, -, hle⟩
  · rwa [hsame]
  · omega

theorem isCased_of_letter {c : Char} (h : (65 ≤ c.toNat ∧ c.toNat ≤ 90) ∨
    97 ≤ c.toNat ∧ c.toNat ≤ 122) : isCased c = true := by
  simp only [isCased, inRanges, casedRanges, List.any_cons, Bool.or_eq_true, Bool.and_eq_true,
    decide_eq_true_eq]
  exact h.imp_right .inl

theorem isCaseIgnorable_of_letter {c : Char} (h : (65 ≤ c.toNat ∧ c.toNat ≤ 90) ∨
    97 ≤ c.toNat ∧ c.toNat ≤ 122) : isCaseIgnorable c = false := by
  have table : (caseIgnorableRanges.all fun r =>
      decide (r.2 < 65 ∨ (90 < r.1 ∧ r.2 < 97) ∨ 122 < r.1)) = true := by decide +kernel
  rw [isCaseIgnorable, inRanges, List.any_eq_false]
  intro r hr
  have hrange := List.all_eq_true.mp table r hr
  simp only [Bool.and_eq_true, decide_eq_true_eq] at hrange ⊢
  omega

/-! ## 2. Small characters -/

/-- A character that the small form leaves as it is, in every context. -/
def IsSmall (c : Char) : Prop := lowerChar c = [c] ∧ c ≠ 'Σ'

/-- Away from ASCII and the dotted capital, the small form is read off the table. -/
theorem lowerChar_of_le {c : Char} (h : 128 ≤ c.toNat) (hI : c ≠ 'İ') :
    lowerChar c = [mapByRuns lowerRuns c] := by
  rw [lowerChar, if_neg (Nat.not_lt.mpr h), if_neg hI]

theorem lowerChar_of_ascii {c : Char} (h : c.toNat < 128) : lowerChar c = [c.toLower] := by
  rw [lowerChar, if_pos h]

theorem lowerChar_dotted : lowerChar 'İ' = ['i', '\u0307'] := rfl

theorem ne_sigma_of_ascii {c : Char} (h : c.toNat < 128) : c ≠ 'Σ' := by
  rintro rfl
  exact absurd h (by decide)

theorem isSmall_toLower {c : Char} (h : c.toNat < 128) : IsSmall c.toLower := by
  have hlt := toNat_toLower_lt h
  exact ⟨by rw [lowerChar_of_ascii hlt, toLower_toLower], ne_sigma_of_ascii hlt⟩

/-- What is left of the letters with a small form of their own: the dot of the dotted capital
and the two small sigmas. -/
theorem isSmall_special {d : Char} (h : d ∈ ['\u0307', 'ς', 'σ']) : IsSmall d := by
  have table : (['\u0307', 'ς', 'σ'].all fun d =>
      lowerRuns.all fun r => (r.image? d.toNat).isNone) = true := by decide +kernel
  have hnone : lowerRuns.findSome? (·.image? d.toNat) = none :=
    List.findSome?_eq_none_iff.mpr fun r hr =>
      Option.isNone_iff_eq_none.mp (List.all_eq_true.mp (List.all_eq_true.mp table d h) r hr)
  have hplace : 128 ≤ d.toNat ∧ d ≠ 'İ' ∧ d ≠ 'Σ' := by
    simp only [List.mem_cons, List.not_mem_nil, or_false] at h
    rcases h with rfl | rfl | rfl <;> decide
  obtain ⟨hle, hI, hS⟩ := hplace
  exact ⟨by rw [lowerChar_of_le hle hI, mapByRuns, hnone], hS⟩

/-! ## 3. The table of runs -/

/-- No image of `r` is covered by `s`: the images lie before or behind `s`, or they are all of
the parity that `s` leaves out. -/
def CaseRun.isApart (r s : CaseRun) : Bool :=
  Nat.blt (r.image + (r.last - r.first)) s.first || Nat.blt s.last r.image ||
    (Nat.beq s.step 2 && (Nat.beq r.last r.first || Nat.beq r.step 2) &&
      Nat.beq ((r.image + s.first) % 2) 1)

/-- A code point is the image of a code point that the run covers, at the same distance. -/
theorem CaseRun.image?_eq_some {r : CaseRun} {c d : Nat} (h : r.image? c = some d) :
    r.first ≤ c ∧ c ≤ r.last ∧ (c - r.first) % r.step = 0 ∧ d = r.image + (c - r.first) := by
  unfold CaseRun.image? at h
  split at h
  · next hc => exact ⟨hc.1, hc.2.1, hc.2.2, (Option.some.inj h).symm⟩
  · exact absurd h (by simp)

/-- An image of a run is covered by no run that is apart from it. -/
theorem CaseRun.image?_eq_none_of_isApart {r s : CaseRun} (h : r.isApart s = true) {c d : Nat}
    (hd : r.image? c = some d) : s.image? d = none := by
  obtain ⟨h₁, h₂, hstep, rfl⟩ := CaseRun.image?_eq_some hd
  simp only [CaseRun.isApart, Bool.or_eq_true, Bool.and_eq_true, Nat.blt_eq, Nat.beq_eq] at h
  unfold CaseRun.image?
  rw [if_neg]
  rintro ⟨hs₁, hs₂, hs⟩
  rcases h with (h | h) | ⟨⟨hs2, hr⟩, hodd⟩
  · omega
  · omega
  · rw [hs2] at hs
    rcases hr with hr | hr
    · omega
    · rw [hr] at hstep
      omega

/-- The code points that a run leads to are those of characters from the small letters of ASCII
on, and none is the dotted capital or the capital sigma. -/
theorem lowerRuns_image : ∀ r ∈ lowerRuns, 97 ≤ r.image ∧
    (r.image + (r.last - r.first) < 0xD800 ∨
      0xDFFF < r.image ∧ r.image + (r.last - r.first) < 0x110000) ∧
    (r.image + (r.last - r.first) < 304 ∨ 304 < r.image ∨
      (r.last = r.first ∨ r.step = 2) ∧ r.image % 2 = 1) ∧
    (r.image + (r.last - r.first) < 931 ∨ 931 < r.image) := by decide +kernel

/-- The runs of the table are apart from each other and from themselves. -/
theorem lowerRuns_isApart : (lowerRuns.all fun r => lowerRuns.all r.isApart) = true := by
  decide +kernel

/-- Where the table has an image, it is that of one of its runs. -/
theorem exists_run {c d : Nat} (h : lowerRuns.findSome? (·.image? c) = some d) :
    ∃ r ∈ lowerRuns, r.image? c = some d :=
  List.exists_of_findSome?_eq_some h

/-- **An image of the table has no image of its own.** -/
theorem findSome?_image_eq_none {c d : Nat} (h : lowerRuns.findSome? (·.image? c) = some d) :
    lowerRuns.findSome? (·.image? d) = none := by
  obtain ⟨r, hr, hd⟩ := exists_run h
  exact List.findSome?_eq_none_iff.mpr fun s hs =>
    CaseRun.image?_eq_none_of_isApart
      (List.all_eq_true.mp (List.all_eq_true.mp lowerRuns_isApart r hr) s hs) hd

/-! ## 4. One character -/

/-- A code point that the table leads to does not lie before the small letters of ASCII and is
that of a character. -/
theorem toNat_image {c d : Nat} (h : lowerRuns.findSome? (·.image? c) = some d) :
    97 ≤ d ∧ (Char.ofNat d).toNat = d := by
  obtain ⟨r, hr, hd⟩ := exists_run h
  obtain ⟨h97, hvalid, -, -⟩ := lowerRuns_image r hr
  obtain ⟨_, hlast, -, rfl⟩ := CaseRun.image?_eq_some hd
  refine ⟨by omega, ?_⟩
  have hchar : (r.image + (c - r.first)).isValidChar := by
    rcases hvalid with hv | hv
    · exact Or.inl (by omega)
    · exact Or.inr ⟨by omega, by omega⟩
  rw [Char.ofNat, dif_pos hchar]
  rfl

/-- A code point that the table leads to is that of a small character. -/
theorem isSmall_of_image {c d : Nat} (h : lowerRuns.findSome? (·.image? c) = some d) :
    IsSmall (Char.ofNat d) := by
  obtain ⟨h97, hnat⟩ := toNat_image h
  obtain ⟨r, hr, hd⟩ := exists_run h
  obtain ⟨-, -, h304, h931⟩ := lowerRuns_image r hr
  obtain ⟨_, hlast, hstep, rfl⟩ := CaseRun.image?_eq_some hd
  have hI : r.image + (c - r.first) ≠ 304 := by
    rcases h304 with h | h | ⟨h | h, hodd⟩
    · omega
    · omega
    · omega
    · rw [h] at hstep
      omega
  have hS : r.image + (c - r.first) ≠ 931 := by omega
  refine ⟨?_, fun e => hS (by rw [← hnat, e]; rfl)⟩
  by_cases hascii : (Char.ofNat (r.image + (c - r.first))).toNat < 128
  · -- the images inside ASCII lie behind its capitals
    rw [lowerChar_of_ascii hascii, toLower_eq_self (by omega)]
  · rw [lowerChar_of_le (Nat.not_lt.mp hascii) (fun e => hI (by rw [← hnat, e]; rfl)), mapByRuns,
      hnat, findSome?_image_eq_none h]

/-- The marks of ASCII, and everything else before its small letters, come from themselves
only. -/
theorem eq_of_mem_lowerChar {c d : Char} (hd : d.toNat < 97) (h : d ∈ lowerChar c) : c = d := by
  by_cases hascii : c.toNat < 128
  · rw [lowerChar_of_ascii hascii, List.mem_singleton] at h
    rcases toLower_cases c with hsame | ⟨-, hle, -⟩
    · exact (h.trans hsame).symm
    · exact absurd (h ▸ hle) (Nat.not_le.mpr hd)
  by_cases hI : c = 'İ'
  · rw [hI, lowerChar_dotted, List.mem_cons, List.mem_singleton] at h
    rcases h with rfl | rfl <;> exact absurd hd (by decide)
  rw [lowerChar_of_le (Nat.not_lt.mp hascii) hI, List.mem_singleton, mapByRuns] at h
  cases hrun : lowerRuns.findSome? (·.image? c.toNat) with
  | none =>
    rw [hrun] at h
    exact h.symm
  | some n =>
    rw [hrun] at h
    obtain ⟨h97, hnat⟩ := toNat_image hrun
    rw [← show d = Char.ofNat n from h] at hnat
    exact absurd (hnat ▸ h97) (Nat.not_le.mpr hd)

/-- **What the small form of a character consists of is small.** -/
theorem isSmall_of_mem_lowerChar {c d : Char} (hc : c ≠ 'Σ') (h : d ∈ lowerChar c) :
    IsSmall d := by
  by_cases hascii : c.toNat < 128
  · rw [lowerChar_of_ascii hascii, List.mem_singleton] at h
    exact h ▸ isSmall_toLower hascii
  by_cases hI : c = 'İ'
  · rw [hI, lowerChar_dotted] at h
    rcases List.mem_cons.mp h with rfl | h
    · exact isSmall_toLower (show 'i'.toNat < 128 by decide)
    · exact isSmall_special (List.mem_cons.mpr (.inl (List.mem_singleton.mp h)))
  rw [lowerChar_of_le (Nat.not_lt.mp hascii) hI, List.mem_singleton] at h
  cases hrun : lowerRuns.findSome? (·.image? c.toNat) with
  | some n =>
    rw [h, mapByRuns, hrun]
    exact isSmall_of_image hrun
  | none =>
    have hd : d = c := by rw [h, mapByRuns, hrun]
    subst hd
    exact ⟨by rw [lowerChar_of_le (Nat.not_lt.mp hascii) hI, mapByRuns, hrun], hc⟩

/-- In a context, too: the two small sigmas are small. -/
theorem isSmall_of_mem_lowerWithin {before after : List Char} {c d : Char}
    (h : d ∈ lowerWithin before c after) : IsSmall d := by
  unfold lowerWithin at h
  split at h
  · rw [List.mem_singleton] at h
    refine isSmall_special (List.mem_cons_of_mem _ ?_)
    split at h <;> simp [h]
  · next hc => exact isSmall_of_mem_lowerChar hc h

/-! ## 5. A text -/

theorem isSmall_of_mem_lowerChars : ∀ (cs before : List Char) {d : Char},
    d ∈ lowerChars before cs → IsSmall d
  | [], _, _, h => absurd h (by simp [lowerChars])
  | c :: cs, before, d, h => by
    rw [lowerChars, List.mem_append] at h
    rcases h with h | h
    · exact isSmall_of_mem_lowerWithin h
    · exact isSmall_of_mem_lowerChars cs (c :: before) h

/-- A text without dots has none in its small form. -/
theorem dot_notMem_lowerChars : ∀ {cs before : List Char}, '.' ∉ cs → '.' ∉ lowerChars before cs
  | [], _, _ => by simp [lowerChars]
  | c :: cs, before, h => by
    rw [List.mem_cons, not_or] at h
    rw [lowerChars, List.mem_append, not_or]
    refine ⟨fun hdot => ?_, dot_notMem_lowerChars h.2⟩
    unfold lowerWithin at hdot
    split at hdot
    · rw [List.mem_singleton] at hdot
      split at hdot <;> exact absurd hdot (by decide)
    · exact h.1 (eq_of_mem_lowerChar (by decide) hdot).symm

/-- Small characters are left as they are. -/
theorem lowerChars_of_isSmall : ∀ (cs before : List Char), (∀ c ∈ cs, IsSmall c) →
    lowerChars before cs = cs
  | [], _, _ => rfl
  | c :: cs, before, h => by
    have hc := h c List.mem_cons_self
    rw [lowerChars, lowerWithin, if_neg hc.2, hc.1,
      lowerChars_of_isSmall cs (c :: before) fun d hd => h d (List.mem_cons_of_mem c hd)]
    rfl

/-- Small characters in front are left as they are, and the rest is read behind them. -/
theorem lowerChars_append_of_isSmall : ∀ (cs before rest : List Char), (∀ c ∈ cs, IsSmall c) →
    lowerChars before (cs ++ rest) = cs ++ lowerChars (cs.reverse ++ before) rest
  | [], _, _, _ => rfl
  | c :: cs, before, rest, h => by
    have hc := h c List.mem_cons_self
    rw [List.cons_append, lowerChars, lowerWithin, if_neg hc.2, hc.1,
      lowerChars_append_of_isSmall cs (c :: before) rest fun d hd => h d (List.mem_cons_of_mem c hd),
      List.reverse_cons, List.append_assoc]
    rfl

/-- The characters of a text that is its own small form are small. -/
theorem isSmall_of_lower_eq {s : String} (h : lower s = s) : ∀ c ∈ s.toList, IsSmall c := by
  intro c hc
  rw [← h, toList_lower] at hc
  exact isSmall_of_mem_lowerChars _ _ hc

/-- **Making a text small a second time changes nothing.** -/
@[simp] theorem lower_lower (s : String) : lower (lower s) = lower s := by
  apply String.toList_injective
  rw [toList_lower, lowerChars_of_isSmall]
  intro c hc
  rw [toList_lower] at hc
  exact isSmall_of_mem_lowerChars _ _ hc

/-- The small form of a text of ASCII, letter by letter. -/
theorem lowerChars_of_ascii : ∀ (cs before : List Char), (∀ c ∈ cs, c.toNat < 128) →
    lowerChars before cs = cs.map Char.toLower
  | [], _, _ => rfl
  | c :: cs, before, h => by
    have hc : c.toNat < 128 := h c List.mem_cons_self
    rw [lowerChars, lowerWithin, if_neg (ne_sigma_of_ascii hc), lowerChar_of_ascii hc,
      lowerChars_of_ascii cs (c :: before) fun d hd => h d (List.mem_cons_of_mem c hd)]
    rfl

theorem lower_of_ascii {s : String} (h : ∀ c ∈ s.toList, c.toNat < 128) :
    (lower s).toList = s.toList.map Char.toLower := by
  rw [toList_lower, lowerChars_of_ascii _ _ h]

/-! ## 6. Letters of ASCII in a text -/

/-- A character and its small form in ASCII look the same from afar, and become the same. -/
theorem context_toLower (c : Char) : isCased c.toLower = isCased c ∧
    isCaseIgnorable c.toLower = isCaseIgnorable c ∧ lowerChar c.toLower = lowerChar c ∧
      (c.toLower = 'Σ' ↔ c = 'Σ') := by
  rcases toLower_cases c with hsame | ⟨hcapital, hsmall⟩
  · simp [hsame]
  · have hascii : c.toNat < 128 := by omega
    refine ⟨?_, ?_, ?_, ?_⟩
    · rw [isCased_of_letter (.inr hsmall), isCased_of_letter (.inl hcapital)]
    · rw [isCaseIgnorable_of_letter (.inr hsmall), isCaseIgnorable_of_letter (.inl hcapital)]
    · rw [lowerChar_of_ascii hascii, lowerChar_of_ascii (toNat_toLower_lt hascii), toLower_toLower]
    · exact iff_of_false (ne_sigma_of_ascii (toNat_toLower_lt hascii)) (ne_sigma_of_ascii hascii)

theorem startsCased_map_toLower (cs : List Char) :
    startsCased (cs.map Char.toLower) = startsCased cs := by
  induction cs with
  | nil => rfl
  | cons c cs ih =>
    obtain ⟨hcased, hignorable, -⟩ := context_toLower c
    simp only [startsCased, List.map_cons, List.dropWhile_cons, hignorable] at ih ⊢
    cases isCaseIgnorable c with
    | true => exact ih
    | false => exact hcased

theorem lowerWithin_toLower (before after : List Char) (c : Char) :
    lowerWithin (before.map Char.toLower) c.toLower (after.map Char.toLower) =
      lowerWithin before c after := by
  obtain ⟨-, -, hchar, hsigma⟩ := context_toLower c
  unfold lowerWithin endsWord
  rw [startsCased_map_toLower, startsCased_map_toLower, hchar]
  by_cases hc : c = 'Σ'
  · rw [if_pos hc, if_pos (hsigma.mpr hc)]
  · rw [if_neg hc, if_neg (mt hsigma.mp hc)]

theorem lowerChars_map_toLower : ∀ cs before : List Char,
    lowerChars (before.map Char.toLower) (cs.map Char.toLower) = lowerChars before cs
  | [], _ => rfl
  | c :: cs, before => by
    rw [List.map_cons, lowerChars, lowerChars, lowerWithin_toLower, ← List.map_cons,
      lowerChars_map_toLower cs (c :: before)]

/-- **Whether letters of ASCII are small or capital does not matter to the small form.** -/
@[simp] theorem lower_asciiLower (s : String) : lower (asciiLower s) = lower s := by
  apply String.toList_injective
  rw [toList_lower, toList_lower, asciiLower, String.toList_ofList]
  exact lowerChars_map_toLower s.toList []

theorem lower_congr {s t : String} (h : asciiLower s = asciiLower t) : lower s = lower t := by
  rw [← lower_asciiLower s, h, lower_asciiLower]

theorem asciiLower_append (s t : String) : asciiLower (s ++ t) = asciiLower s ++ asciiLower t := by
  simp [asciiLower]

theorem asciiLower_asciiLower (s : String) : asciiLower (asciiLower s) = asciiLower s := by
  rw [asciiLower, asciiLower, String.toList_ofList, List.map_map]
  congr 1
  exact List.map_congr_left fun c _ => toLower_toLower c

end EntityLayout.Text
