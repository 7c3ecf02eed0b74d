/-
# Capital sigmas and what stands around them

A capital sigma becomes one of two letters, by what stands before it and behind it.  So the small
form of a text may be another one behind or in front of other texts.

* `lowerChars_eq_iff`: when the small form of a text depends on what stands before it.
* `lowerChars_append_iff`: **when a text is made small part by part.**
* `startsCased_reverse_lowerChars`: whether what stands before is in small letters does not matter.

The last one rests on the table of runs: what has a small form of its own has a case and is not
case-ignorable, and so is its small form.
-/
import EntityLayout.Proofs.Text.Lower

namespace EntityLayout.Text

/-! ## 1. What stands before a text -/

/-- The first character that is not case-ignorable is a capital sigma, with no letter after it. -/
def opensWithSigma (cs : List Char) : Bool :=
  match cs.dropWhile isCaseIgnorable with
  | c :: after => decide (c = 'Σ') && !startsCased after
  | [] => false

theorem isCaseIgnorable_sigma : isCaseIgnorable 'Σ' = false := by decide +kernel

theorem isCaseIgnorable_dot : isCaseIgnorable '.' = true := by decide +kernel

section

variable {c : Char} (cs : List Char)

theorem startsCased_cons_of_ignorable (h : isCaseIgnorable c = true) :
    startsCased (c :: cs) = startsCased cs := by
  rw [startsCased, List.dropWhile_cons_of_pos h, ← startsCased]

theorem startsCased_cons (h : isCaseIgnorable c = false) : startsCased (c :: cs) = isCased c := by
  rw [startsCased, List.dropWhile_cons_of_neg (by simp [h])]

theorem opensWithSigma_cons_of_ignorable (h : isCaseIgnorable c = true) :
    opensWithSigma (c :: cs) = opensWithSigma cs := by
  rw [opensWithSigma, List.dropWhile_cons_of_pos h, ← opensWithSigma]

theorem opensWithSigma_cons (h : isCaseIgnorable c = false) :
    opensWithSigma (c :: cs) = (decide (c = 'Σ') && !startsCased cs) := by
  rw [opensWithSigma, List.dropWhile_cons_of_neg (by simp [h])]

end

theorem startsCased_cons_congr {c : Char} {cs cs' : List Char}
    (h : startsCased cs = startsCased cs') : startsCased (c :: cs) = startsCased (c :: cs') := by
  cases hc : isCaseIgnorable c with
  | true => rw [startsCased_cons_of_ignorable _ hc, startsCased_cons_of_ignorable _ hc, h]
  | false => rw [startsCased_cons _ hc, startsCased_cons _ hc]

/-- What stands before a text counts by whether it ends with a letter. -/
theorem lowerChars_congr : ∀ {cs before before' : List Char},
    startsCased before = startsCased before' → lowerChars before cs = lowerChars before' cs
  | [], _, _, _ => rfl
  | c :: cs, before, before', h => by
    rw [lowerChars, lowerChars, lowerChars_congr (startsCased_cons_congr h), lowerWithin,
      lowerWithin, endsWord, endsWord, h]

/-- **The small form depends on what stands before a text only if that ends with a letter and the
text opens with a capital sigma.** -/
theorem lowerChars_eq_iff : ∀ {cs before before' : List Char},
    lowerChars before cs = lowerChars before' cs ↔
      (opensWithSigma cs = true → startsCased before = startsCased before')
  | [], _, _ => iff_of_true rfl nofun
  | c :: cs, before, before' => by
    cases hc : isCaseIgnorable c with
    | true =>
      -- such a character changes neither side, and no context changes it
      have hsigma : c ≠ 'Σ' := fun e => nomatch (e ▸ hc).symm.trans isCaseIgnorable_sigma
      rw [lowerChars, lowerChars, lowerWithin, lowerWithin, if_neg hsigma, if_neg hsigma,
        List.append_cancel_left_eq, lowerChars_eq_iff, startsCased_cons_of_ignorable _ hc,
        startsCased_cons_of_ignorable _ hc, opensWithSigma_cons_of_ignorable _ hc]
    | false =>
      -- behind this character everything is read alike
      have hrest : lowerChars (c :: before) cs = lowerChars (c :: before') cs :=
        lowerChars_congr (by rw [startsCased_cons _ hc, startsCased_cons _ hc])
      rw [lowerChars, lowerChars, hrest, List.append_cancel_right_eq, opensWithSigma_cons _ hc,
        lowerWithin, lowerWithin, endsWord, endsWord]
      by_cases hsigma : c = 'Σ'
      · rw [if_pos hsigma, if_pos hsigma]
        cases startsCased before <;> cases startsCased before' <;> cases startsCased cs <;>
          simp [hsigma]
      · simp [hsigma]

/-- A character in its context is as long in any other. -/
theorem length_lowerWithin (before before' : List Char) (c : Char) (after after' : List Char) :
    (lowerWithin before c after).length = (lowerWithin before' c after').length := by
  unfold lowerWithin
  split <;> rfl

theorem length_lowerChars : ∀ (cs before before' : List Char),
    (lowerChars before cs).length = (lowerChars before' cs).length
  | [], _, _ => rfl
  | c :: cs, before, before' => by
    rw [lowerChars, lowerChars, List.length_append, List.length_append,
      length_lowerWithin before before' c cs cs, length_lowerChars cs (c :: before) (c :: before')]

/-- Dots stay. -/
theorem lowerChars_dot (before cs : List Char) :
    lowerChars before ('.' :: cs) = '.' :: lowerChars ('.' :: before) cs := by
  rw [lowerChars, lowerWithin, if_neg (by decide), lowerChar_of_ascii (by decide)]
  rfl

theorem dot_mem_lowerChars : ∀ {cs before : List Char}, '.' ∈ cs → '.' ∈ lowerChars before cs
  | c :: cs, before, h => by
    rcases List.mem_cons.mp h with rfl | h
    · rw [lowerChars_dot]
      exact List.mem_cons_self
    · exact List.mem_append_right _ (dot_mem_lowerChars h)

/-! ## 2. What stands behind a text -/

/-- The last character that is not case-ignorable is a capital sigma, with a letter before it; what
stands before the text counts, nearest character first. -/
def closesWithSigma (before : List Char) : List Char → Bool
  | [] => false
  | c :: cs =>
    if cs.all isCaseIgnorable then decide (c = 'Σ') && startsCased before
    else closesWithSigma (c :: before) cs

section

variable {cs rest : List Char}

theorem startsCased_append_of_all (h : cs.all isCaseIgnorable = true) :
    startsCased (cs ++ rest) = startsCased rest := by
  rw [startsCased, List.dropWhile_append_of_pos (by simpa using h), ← startsCased]

theorem startsCased_append_of_not_all (h : ¬cs.all isCaseIgnorable = true) :
    startsCased (cs ++ rest) = startsCased cs := by
  induction cs with
  | nil => exact absurd rfl h
  | cons c cs ih =>
    rw [List.cons_append]
    cases hc : isCaseIgnorable c with
    | true =>
      rw [startsCased_cons_of_ignorable _ hc, startsCased_cons_of_ignorable _ hc,
        ih (by simpa [hc] using h)]
    | false => rw [startsCased_cons _ hc, startsCased_cons _ hc]

theorem closesWithSigma_of_all (h : cs.all isCaseIgnorable = true) (before : List Char) :
    closesWithSigma before cs = false := by
  cases cs with
  | nil => rfl
  | cons c cs =>
    rw [List.all_cons, Bool.and_eq_true] at h
    have hsigma : c ≠ 'Σ' := fun e => nomatch (e ▸ h.1).symm.trans isCaseIgnorable_sigma
    simp [closesWithSigma, h.2, hsigma]

theorem closesWithSigma_of_notMem : ∀ {cs before : List Char}, 'Σ' ∉ cs →
    closesWithSigma before cs = false
  | [], _, _ => rfl
  | c :: cs, before, h => by
    rw [List.mem_cons, not_or] at h
    rw [closesWithSigma, closesWithSigma_of_notMem h.2]
    simp [Ne.symm h.1]

end

/-- A character is made small without what follows unless it is a sigma that closes the text. -/
theorem lowerWithin_append_iff {before : List Char} {c : Char} {cs rest : List Char} :
    lowerWithin before c (cs ++ rest) = lowerWithin before c cs ↔
      (cs.all isCaseIgnorable = true → c = 'Σ' → startsCased before = true →
        startsCased rest = false) := by
  by_cases hsigma : c = 'Σ'
  · rw [lowerWithin, lowerWithin, if_pos hsigma, if_pos hsigma, endsWord, endsWord]
    by_cases hall : cs.all isCaseIgnorable = true
    · have hcs : startsCased cs = false := by
        rw [← List.append_nil cs, startsCased_append_of_all hall]
        rfl
      rw [startsCased_append_of_all hall, hcs]
      cases startsCased before <;> cases startsCased rest <;> simp [hsigma, hall]
    · simp [startsCased_append_of_not_all hall, hall]
  · simp [lowerWithin, hsigma]

/-- **Two texts are made small one by one** iff the first does not close with a sigma that another
letter follows. -/
theorem lowerChars_append_iff {rest xs : List Char} : ∀ {cs before : List Char},
    lowerChars before (cs ++ rest) = lowerChars before cs ++ xs ↔
      (closesWithSigma before cs = true → startsCased rest = false) ∧
        lowerChars (cs.reverse ++ before) rest = xs
  | [], before => by simp [lowerChars, closesWithSigma]
  | c :: cs, before => by
    have hsplit : lowerChars before (c :: cs ++ rest) = lowerChars before (c :: cs) ++ xs ↔
        lowerWithin before c (cs ++ rest) = lowerWithin before c cs ∧
          lowerChars (c :: before) (cs ++ rest) = lowerChars (c :: before) cs ++ xs := by
      rw [List.cons_append, lowerChars, lowerChars, List.append_assoc]
      constructor
      · exact fun h => List.append_inj h (length_lowerWithin _ _ _ _ _)
      · rintro ⟨hhead, htail⟩
        rw [hhead, htail]
    rw [hsplit, lowerChars_append_iff, lowerWithin_append_iff, ← and_assoc, List.reverse_cons,
      List.append_assoc, List.singleton_append, closesWithSigma]
    refine and_congr_left fun _ => ?_
    by_cases hall : cs.all isCaseIgnorable = true
    · simp [hall, closesWithSigma_of_all hall]
    · simp [hall]

/-! ## 3. Letters and their small forms -/

/-- Stretches of code points that hold the letters of the table and nothing that is
case-ignorable. -/
def letterRanges : List (Nat × Nat) := [
  (97, 167), (185, 687), (880, 883), (886, 889), (891, 899), (902, 902),
  (904, 1154), (1162, 1368), (1376, 1424), (4254, 4347), (4349, 4956), (4960, 5905),
  (7294, 7375), (7545, 7578), (7680, 8124), (8130, 8140), (8144, 8156), (8160, 8172),
  (8176, 8188), (8433, 11387), (11390, 11502), (11506, 11630), (42509, 42606), (42624, 42651),
  (42786, 42863), (42865, 42887), (42891, 42992), (42997, 42999), (43767, 43866), (43884, 44004),
  (65307, 65341), (65345, 65391), (66427, 67455), (68327, 68899), (68943, 68968), (68976, 69290),
  (71739, 71994), (93549, 94030), (125143, 125251)]

/-- Whether all code points from `first` to `last` lie in one of the ranges. -/
def liesIn (ranges : List (Nat × Nat)) (first last : Nat) : Bool :=
  ranges.any fun r => Nat.ble r.1 first && Nat.ble last r.2

theorem inRanges_of_liesIn {ranges : List (Nat × Nat)} {first last c : Nat}
    (h : liesIn ranges first last = true) (hfirst : first ≤ c) (hlast : c ≤ last) :
    inRanges ranges c = true := by
  obtain ⟨r, hr, hwithin⟩ := List.any_eq_true.mp h
  rw [Bool.and_eq_true, Nat.ble_eq, Nat.ble_eq] at hwithin
  exact List.any_eq_true.mpr ⟨r, hr, by simp; omega⟩

/-- The letters of a run, and their small forms, have a case and are not case-ignorable. -/
def CaseRun.hasCase (r : CaseRun) : Bool :=
  (liesIn casedRanges r.first r.last ||
    (List.range (r.last - r.first + 1)).all fun k =>
      !Nat.beq (k % r.step) 0 || inRanges casedRanges (r.first + k)) &&
  liesIn casedRanges r.image (r.image + (r.last - r.first)) &&
  (liesIn letterRanges r.first r.last && liesIn letterRanges r.image (r.image + (r.last - r.first)))

theorem lowerRuns_hasCase : lowerRuns.all CaseRun.hasCase = true := by decide +kernel

theorem letterRanges_apart : (letterRanges.all fun r => caseIgnorableRanges.all fun s =>
    Nat.blt r.2 s.1 || Nat.blt s.2 r.1) = true := by decide +kernel

theorem not_caseIgnorable_of_letterRanges {n : Nat} (h : inRanges letterRanges n = true) :
    inRanges caseIgnorableRanges n = false := by
  obtain ⟨r, hr, hn⟩ := List.any_eq_true.mp h
  rw [inRanges, List.any_eq_false]
  intro s hs
  have hapart := List.all_eq_true.mp (List.all_eq_true.mp letterRanges_apart r hr) s hs
  simp only [Bool.or_eq_true, Bool.and_eq_true, Nat.blt_eq, decide_eq_true_eq] at hapart hn ⊢
  omega

/-- A code point that has a case and is not case-ignorable. -/
def IsLetterCode (n : Nat) : Prop :=
  inRanges casedRanges n = true ∧ inRanges caseIgnorableRanges n = false

/-- **What the table maps is a letter, and so is what it is mapped to.** -/
theorem isLetterCode_of_image {n m : Nat} (h : lowerRuns.findSome? (·.image? n) = some m) :
    IsLetterCode n ∧ IsLetterCode m := by
  obtain ⟨r, hr, hm⟩ := exists_run h
  have hcase := List.all_eq_true.mp lowerRuns_hasCase r hr
  simp only [CaseRun.hasCase, Bool.and_eq_true, Bool.or_eq_true, List.all_eq_true,
    List.mem_range] at hcase
  obtain ⟨⟨hcapital, hsmall⟩, hcapital', hsmall'⟩ := hcase
  obtain ⟨hfirst, hlast, hstep, rfl⟩ := CaseRun.image?_eq_some hm
  have hcased : inRanges casedRanges n = true := by
    rcases hcapital with hwhole | heach
    · exact inRanges_of_liesIn hwhole hfirst hlast
    · have hn := (heach (n - r.first) (by omega)).resolve_left (by simp [hstep])
      rwa [Nat.add_sub_cancel' hfirst] at hn
  exact ⟨⟨hcased, not_caseIgnorable_of_letterRanges (inRanges_of_liesIn hcapital' hfirst hlast)⟩,
    inRanges_of_liesIn hsmall (by omega) (by omega),
    not_caseIgnorable_of_letterRanges (inRanges_of_liesIn hsmall' (by omega) (by omega))⟩

theorem startsCased_of_isLetterCode {c : Char} (h : IsLetterCode c.toNat) (cs : List Char) :
    startsCased (c :: cs) = true := by
  rw [startsCased_cons cs h.2]
  exact h.1

/-- A character and its small form look the same from behind. -/
theorem startsCased_reverse_lowerWithin {before after cs cs' : List Char} (c : Char)
    (h : startsCased cs = startsCased cs') :
    startsCased ((lowerWithin before c after).reverse ++ cs) = startsCased (c :: cs') := by
  have hranges : (['Σ', 'ς', 'σ', 'İ', 'i'].all fun d =>
      inRanges casedRanges d.toNat && inRanges letterRanges d.toNat) = true := by decide +kernel
  have hletters : ∀ d ∈ ['Σ', 'ς', 'σ', 'İ', 'i'], IsLetterCode d.toNat := fun d hd => by
    obtain ⟨hcased, hletter⟩ := Bool.and_eq_true_iff.mp (List.all_eq_true.mp hranges d hd)
    exact ⟨hcased, not_caseIgnorable_of_letterRanges hletter⟩
  by_cases hsigma : c = 'Σ'
  · subst hsigma
    rw [lowerWithin, if_pos rfl, List.reverse_singleton, List.singleton_append,
      startsCased_of_isLetterCode (hletters _ (by split <;> simp)),
      startsCased_of_isLetterCode (hletters _ (by simp))]
  rw [lowerWithin, if_neg hsigma]
  by_cases hascii : c.toNat < 128
  · obtain ⟨hcased, hignorable, -⟩ := context_toLower c
    rw [lowerChar_of_ascii hascii, List.reverse_singleton, List.singleton_append]
    cases hc : isCaseIgnorable c with
    | true =>
      rw [startsCased_cons_of_ignorable _ hc,
        startsCased_cons_of_ignorable _ (hignorable.trans hc), h]
    | false => rw [startsCased_cons _ hc, startsCased_cons _ (hignorable.trans hc), hcased]
  by_cases hdotted : c = 'İ'
  · subst hdotted
    -- the dot above is a mark of its own, which is looked past
    rw [lowerChar_dotted, List.reverse_cons, List.reverse_singleton, List.singleton_append,
      List.cons_append, List.singleton_append,
      startsCased_cons_of_ignorable _ (show isCaseIgnorable '\u0307' = true by decide +kernel),
      startsCased_of_isLetterCode (hletters _ (by simp)),
      startsCased_of_isLetterCode (hletters _ (by simp))]
  rw [lowerChar_of_le (Nat.not_lt.mp hascii) hdotted, List.reverse_singleton, List.singleton_append,
    mapByRuns]
  cases hrun : lowerRuns.findSome? (·.image? c.toNat) with
  | none => exact startsCased_cons_congr h
  | some n =>
    obtain ⟨hletter, himage⟩ := isLetterCode_of_image hrun
    rw [startsCased_of_isLetterCode hletter]
    exact startsCased_of_isLetterCode ((toNat_image hrun).2.symm ▸ himage) cs

/-- **A text and its small form look the same from behind**, which is all that counts for what
follows them. -/
theorem startsCased_reverse_lowerChars : ∀ (cs before : List Char) {front front' : List Char},
    startsCased front = startsCased front' →
      startsCased ((lowerChars before cs).reverse ++ front) = startsCased (cs.reverse ++ front')
  | [], _, _, _, h => h
  | c :: cs, before, front, front', h => by
    rw [lowerChars, List.reverse_append, List.append_assoc, List.reverse_cons, List.append_assoc]
    exact startsCased_reverse_lowerChars cs (c :: before) (startsCased_reverse_lowerWithin c h)

end EntityLayout.Text
