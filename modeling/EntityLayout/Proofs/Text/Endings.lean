/-
# Endings of texts in small letters

How the small form of a text ends may depend on what stands before the text, since a capital
sigma looks back for a letter.  It looks no further than an underscore, which is neither a letter
nor case-ignorable.  So an ending that begins with an underscore is the same behind any text.

* `exists_lowerChars_append`: the small form of a text goes on behind that of what stands before.
* `length_le_length_lowerChars`: the small form is not shorter.
* `suffix_lowerChars_iff`: **endings that begin with an underscore do not depend on what stands
  before the text.**
-/
import EntityLayout.Proofs.Text.Sigma

namespace EntityLayout.Text

/-! ## 1. Small forms of parts -/

/-- The small form of a text goes on with that of its second part, read behind the first. -/
theorem exists_lowerChars_append (rest : List Char) : ∀ cs before : List Char,
    ∃ xs, lowerChars before (cs ++ rest) = xs ++ lowerChars (cs.reverse ++ before) rest
  | [], _ => ⟨[], rfl⟩
  | c :: cs, before => by
    obtain ⟨xs, hxs⟩ := exists_lowerChars_append rest cs (c :: before)
    refine ⟨lowerWithin before c (cs ++ rest) ++ xs, ?_⟩
    rw [List.cons_append, lowerChars, hxs, List.reverse_cons, List.append_assoc, List.append_assoc]
    rfl

theorem lowerWithin_ne_nil (before : List Char) (c : Char) (after : List Char) :
    lowerWithin before c after ≠ [] := by
  unfold lowerWithin lowerChar
  repeat' split
  all_goals exact List.cons_ne_nil _ _

/-- Letters may get longer, but none is lost. -/
theorem length_le_length_lowerChars : ∀ cs before : List Char,
    cs.length ≤ (lowerChars before cs).length
  | [], _ => Nat.zero_le _
  | c :: cs, before => by
    have hhead := List.length_pos_iff.mpr (lowerWithin_ne_nil before c cs)
    have hrest := length_le_length_lowerChars cs (c :: before)
    rw [lowerChars, List.length_append, List.length_cons]
    omega

/-! ## 2. Endings that begin with an underscore -/

theorem isCaseIgnorable_underscore : isCaseIgnorable '_' = false := by decide +kernel

/-- Only an underscore becomes one. -/
theorem eq_underscore_of_mem_lowerWithin {before after : List Char} {c : Char}
    (h : '_' ∈ lowerWithin before c after) : c = '_' := by
  unfold lowerWithin at h
  split at h
  · rw [List.mem_singleton] at h
    split at h <;> exact absurd h (by decide)
  · exact eq_of_mem_lowerChar (by decide) h

/-- An ending lies in the second part of a text if its first character is not in the first part. -/
theorem suffix_append_iff_of_notMem {c : Char} {ending xs ys : List Char} (h : c ∉ xs) :
    c :: ending <:+ xs ++ ys ↔ c :: ending <:+ ys := by
  constructor
  · rintro ⟨front, hfront⟩
    rcases List.append_eq_append_iff.mp hfront with ⟨zs, hxs, hys⟩ | ⟨zs, -, hys⟩
    · cases zs with
      | nil => exact hys ▸ List.suffix_refl _
      | cons z zs =>
        -- the ending would begin inside the first part
        rw [(List.cons.inj hys).1] at h
        exact absurd (hxs ▸ List.mem_append_right front List.mem_cons_self) h
    · exact ⟨zs, hys.symm⟩
  · exact fun hys => hys.trans (List.suffix_append xs ys)

/-- **Whether a text in small letters has an ending that begins with an underscore does not depend
on what stands before it.** -/
theorem suffix_lowerChars_iff {ending : List Char} : ∀ {cs before before' : List Char},
    '_' :: ending <:+ lowerChars before cs ↔ '_' :: ending <:+ lowerChars before' cs
  | [], _, _ => Iff.rfl
  | c :: cs, before, before' => by
    rw [lowerChars, lowerChars]
    by_cases hc : c = '_'
    · -- an underscore stays, and behind it everything is read alike
      subst hc
      have hrest : lowerChars ('_' :: before) cs = lowerChars ('_' :: before') cs :=
        lowerChars_congr (by
          rw [startsCased_cons _ isCaseIgnorable_underscore,
            startsCased_cons _ isCaseIgnorable_underscore])
      rw [hrest]
      rfl
    · rw [suffix_append_iff_of_notMem (mt eq_underscore_of_mem_lowerWithin hc),
        suffix_append_iff_of_notMem (mt eq_underscore_of_mem_lowerWithin hc)]
      exact suffix_lowerChars_iff

end EntityLayout.Text
