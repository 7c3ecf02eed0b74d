/-
# The draft of a printed value

A value that was printed is read as the draft of the whole of it, with nothing left over.

* `valueWithin_written`: the tokens of a value are read back, given a call for each of them.
* `parse_pretty`, `parse_compact`: the same of a whole text.
-/
import EntityLayout.Json.Draft
import EntityLayout.Proofs.Json.Lexing

namespace EntityLayout.Json

/-! ## 1. How a value begins -/

/-- A value does not begin with the end of an array, so an array that holds something is not
mistaken for an empty one. -/
theorem written_eq_cons : ∀ j : Json, ∃ t ts, written j = t :: ts ∧ t ≠ .endArray
  | .null => ⟨_, _, rfl, by simp⟩
  | .bool _ => ⟨_, _, rfl, by simp⟩
  | .number _ => ⟨_, _, rfl, by simp⟩
  | .text _ => ⟨_, _, rfl, by simp⟩
  | .array [] => ⟨_, _, rfl, by simp⟩
  | .array (_ :: _) => ⟨_, _, rfl, by simp⟩
  | .object [] => ⟨_, _, rfl, by simp⟩
  | .object ((_, _) :: _) => ⟨_, _, rfl, by simp⟩

theorem length_written_pos (j : Json) : 0 < (written j).length := by
  obtain ⟨t, ts, h, -⟩ := written_eq_cons j
  simp [h]

/-- An array that does not end at once is read item by item. -/
theorem valueWithin_array {fuel : Nat} {t : Token} {ts : List Token} (h : t ≠ .endArray) :
    valueWithin (fuel + 1) (.beginArray :: t :: ts) =
      (.array (itemsWithin fuel false (t :: ts)).1 (itemsWithin fuel false (t :: ts)).2.1,
        (itemsWithin fuel false (t :: ts)).2.2) := by
  cases t <;> first | rfl | exact absurd rfl h

/-- Items are read from the next one on. -/
theorem itemsWithin_cons {fuel : Nat} {afterComma : Bool} {t : Token} {ts : List Token}
    (h : t ≠ .endArray) :
    itemsWithin (fuel + 1) afterComma (t :: ts) =
      match (valueWithin fuel (t :: ts)).2 with
      | .endArray :: rest => ([(valueWithin fuel (t :: ts)).1], .closed, rest)
      | .comma :: rest =>
        ((valueWithin fuel (t :: ts)).1 :: (itemsWithin fuel true rest).1,
          (itemsWithin fuel true rest).2.1, (itemsWithin fuel true rest).2.2)
      | [] => ([(valueWithin fuel (t :: ts)).1], .torn false .missing, [])
      | _ :: _ => ([(valueWithin fuel (t :: ts)).1], .torn false .stray, []) := by
  cases t <;> first | rfl | exact absurd rfl h

/-! ## 2. Values, items and fields -/

mutual

/-- **Reading what was written.**  A call for each token is enough. -/
theorem valueWithin_written : ∀ (j : Json) (fuel : Nat) (rest : List Token),
    (written j).length ≤ fuel → valueWithin fuel (written j ++ rest) = (draft j, rest)
  | j, 0, _, h => absurd (length_written_pos j) (by omega)
  | .null, _ + 1, _, _ => rfl
  | .bool _, _ + 1, _, _ => rfl
  | .number _, _ + 1, _, _ => rfl
  | .text _, _ + 1, _, _ => rfl
  | .array [], _ + 1, _, _ => rfl
  | .array (x :: xs), fuel + 1, rest, h => by
    obtain ⟨t, ts, hx, ht⟩ := written_eq_cons x
    have hitems := itemsWithin_written x xs fuel false rest (by
      simp only [written, List.length_cons, List.length_append, List.length_nil] at h
      omega)
    simp only [written, List.cons_append, List.append_assoc, List.nil_append]
    rw [hx, List.cons_append] at hitems ⊢
    rw [valueWithin_array ht, hitems]
    rfl
  | .object [], _ + 1, _, _ => rfl
  | .object ((k, v) :: fs), fuel + 1, rest, h => by
    have hfields := fieldsWithin_written k v fs fuel rest (by
      simp only [written, List.length_cons, List.length_append, List.length_nil] at h
      omega)
    simp only [written, List.cons_append, List.append_assoc, List.nil_append, valueWithin]
    rw [hfields]
    rfl

theorem itemsWithin_written : ∀ (x : Json) (xs : List Json) (fuel : Nat) (afterComma : Bool)
    (rest : List Token), (written x).length + (writtenItems xs).length < fuel →
      itemsWithin fuel afterComma (written x ++ (writtenItems xs ++ .endArray :: rest)) =
        (draftItems (x :: xs), .closed, rest)
  | _, _, 0, _, _, h => absurd h (Nat.not_lt_zero _)
  | x, [], fuel + 1, afterComma, rest, h => by
    obtain ⟨t, ts, hx, ht⟩ := written_eq_cons x
    have hvalue := valueWithin_written x fuel (.endArray :: rest) (by omega)
    simp only [writtenItems, List.nil_append]
    rw [hx, List.cons_append] at hvalue ⊢
    rw [itemsWithin_cons ht, hvalue]
    rfl
  | x, y :: ys, fuel + 1, afterComma, rest, h => by
    obtain ⟨t, ts, hx, ht⟩ := written_eq_cons x
    have hpos := length_written_pos x
    simp only [writtenItems, List.length_cons, List.length_append] at h
    have hvalue := valueWithin_written x fuel
      (.comma :: (written y ++ (writtenItems ys ++ .endArray :: rest))) (by omega)
    have hitems := itemsWithin_written y ys fuel true rest (by omega)
    simp only [writtenItems, List.cons_append, List.append_assoc]
    rw [hx, List.cons_append] at hvalue ⊢
    rw [itemsWithin_cons ht, hvalue]
    simp only [hitems]
    rfl

theorem fieldsWithin_written : ∀ (k : String) (v : Json) (fs : List (String × Json))
    (fuel : Nat) (rest : List Token),
      (written v).length + (writtenFields fs).length + 1 < fuel →
        fieldsWithin fuel (some k)
            (.colon :: (written v ++ (writtenFields fs ++ .endObject :: rest))) =
          (draftFields ((k, v) :: fs), .closed, rest)
  | _, _, _, 0, _, h => absurd h (Nat.not_lt_zero _)
  | k, v, [], fuel + 1, rest, h => by
    have hvalue := valueWithin_written v fuel (.endObject :: rest) (by omega)
    simp only [writtenFields, List.nil_append, fieldsWithin, hvalue]
    rfl
  | k, v, (k', v') :: fs, fuel + 1, rest, h => by
    simp only [writtenFields, List.length_cons, List.length_append] at h
    have hvalue := valueWithin_written v fuel (.comma :: .text (some k') :: .colon ::
      (written v' ++ (writtenFields fs ++ .endObject :: rest))) (by omega)
    have hfields := fieldsWithin_written k' v' fs fuel rest (by omega)
    simp only [writtenFields, List.cons_append, List.append_assoc, fieldsWithin, hvalue, hfields]
    rfl

end

/-! ## 3. Whole texts -/

theorem parse_print {j : Json} (h : j.IsWhole) (style : Style) :
    parse (String.ofList (print style 0 j)) = (draft j, false) := by
  have htokens : tokens (print style 0 j) = written j ++ [] := by
    simpa using tokens_print style j 0 h endsNumeral_nil
  have hread := valueWithin_written j (2 * (written j ++ []).length + 2) [] (by
    rw [List.append_nil]
    omega)
  simp only [parse, String.toList_ofList, htokens, hread, List.isEmpty_nil, Bool.not_true]

/-- **A text with one item to a line is read as the value it was printed from.** -/
theorem parse_pretty {j : Json} (h : j.IsWhole) : parse j.pretty = (draft j, false) :=
  parse_print h .pretty

theorem parse_compact {j : Json} (h : j.IsWhole) : parse j.compact = (draft j, false) :=
  parse_print h .compact

end EntityLayout.Json
