/-
# Identifiers end at the quote that closes them

A reader of SQL takes an identifier from the front of a text: behind the opening quote two quotes
in a row stand for one, and the first quote that has none behind it closes the identifier.  An
identifier may hold any characters, quotes included, and is read back as it was written.

* `readIdentifier?`: the reader.
* `readQuoted?_eq_some_iff`: what it finds behind the opening quote.
* `Token.readIdentifier?_eq_some_iff`: **it reads exactly what is written for identifiers**, and
  stops where they stop.
-/
import EntityLayout.Proofs.Sql.Readable

namespace EntityLayout.Sql

/-! ## 1. The reader -/

/-- The characters up to the quote that closes them, and what follows it.  Two quotes in a row
stand for one. -/
def readQuoted? : List Char → Option (List Char × List Char)
  | '"' :: '"' :: cs => (readQuoted? cs).map fun p => ('"' :: p.1, p.2)
  | c :: cs => if c = '"' then some ([], cs) else (readQuoted? cs).map fun p => (c :: p.1, p.2)
  | [] => none

/-- The identifier that a text begins with, and what follows it. -/
def readIdentifier? (text : String) : Option (String × String) :=
  match text.toList with
  | '"' :: cs => (readQuoted? cs).map fun p => (String.ofList p.1, String.ofList p.2)
  | _ => none

/-! ## 2. Behind the opening quote -/

/-- Where no second quote follows, a quote closes the identifier. -/
theorem readQuoted?_closing {rest : List Char} (h : EndsName rest) :
    readQuoted? ('"' :: rest) = some ([], rest) := by
  rw [readQuoted?]
  · rfl
  · rintro cs - rfl
    exact h rfl

theorem readQuoted?_cons {c : Char} (h : c ≠ '"') (cs : List Char) :
    readQuoted? (c :: cs) = (readQuoted? cs).map fun p => (c :: p.1, p.2) := by
  rw [readQuoted?, if_neg h]
  exact fun _ hc _ => h hc

theorem readQuoted?_doubleQuotes {rest : List Char} (h : EndsName rest) : ∀ cs : List Char,
    readQuoted? (doubleQuotes cs ++ '"' :: rest) = some (cs, rest)
  | [] => readQuoted?_closing h
  | c :: cs => by
    have ih := readQuoted?_doubleQuotes h cs
    by_cases hc : c = '"'
    · rw [doubleQuotes, if_pos hc, hc, List.cons_append, List.cons_append, readQuoted?, ih]
      rfl
    · rw [doubleQuotes, if_neg hc, List.cons_append, readQuoted?_cons hc, ih]
      rfl

/-- What was read was written with its quotes doubled and a single one behind it. -/
theorem eq_of_readQuoted? {text cs rest : List Char} (h : readQuoted? text = some (cs, rest)) :
    text = doubleQuotes cs ++ '"' :: rest ∧ EndsName rest := by
  induction text using readQuoted?.induct generalizing cs rest with
  | case1 text ih =>
    rw [readQuoted?, Option.map_eq_some_iff] at h
    obtain ⟨⟨cs', rest'⟩, hread, heq⟩ := h
    obtain ⟨rfl, rfl⟩ := Prod.mk.inj heq
    obtain ⟨rfl, hends⟩ := ih hread
    exact ⟨by simp [doubleQuotes], hends⟩
  | case2 text hpair =>
    -- there is no second quote, since the two would have been read as one
    have hends : EndsName text := by
      cases text with
      | nil => simp [EndsName]
      | cons c cs => exact fun hc => hpair cs rfl (by rw [Option.some.inj hc])
    rw [readQuoted?_closing hends] at h
    obtain ⟨rfl, rfl⟩ := Prod.mk.inj (Option.some.inj h)
    exact ⟨rfl, hends⟩
  | case3 c text _ hc ih =>
    rw [readQuoted?_cons hc, Option.map_eq_some_iff] at h
    obtain ⟨⟨cs', rest'⟩, hread, heq⟩ := h
    obtain ⟨rfl, rfl⟩ := Prod.mk.inj heq
    obtain ⟨rfl, hends⟩ := ih hread
    exact ⟨by rw [doubleQuotes, if_neg hc, List.cons_append], hends⟩
  | case4 => simp [readQuoted?] at h

/-- **The reader finds what was written** with its quotes doubled, and a single one behind it. -/
theorem readQuoted?_eq_some_iff {text cs rest : List Char} :
    readQuoted? text = some (cs, rest) ↔ text = doubleQuotes cs ++ '"' :: rest ∧ EndsName rest := by
  refine ⟨eq_of_readQuoted?, ?_⟩
  rintro ⟨rfl, hends⟩
  exact readQuoted?_doubleQuotes hends cs

/-! ## 3. Identifiers -/

theorem Token.toList_ident_append (d : Dialect) (name rest : String) :
    ((Token.ident name).text d ++ rest).toList =
      '"' :: (doubleQuotes name.toList ++ '"' :: rest.toList) := by
  rw [String.toList_append, Token.text, toList_quoteIdentifier]
  simp

/-- **An identifier is read back as it was written**, in either dialect, and the reader stops where
it stops: a text begins with the identifier `name` and goes on with `rest` if it was written that
way and `rest` does not begin with a further quote. -/
theorem Token.readIdentifier?_eq_some_iff (d : Dialect) (text name rest : String) :
    readIdentifier? text = some (name, rest) ↔
      text = (Token.ident name).text d ++ rest ∧ rest.toList.head? ≠ some '"' := by
  unfold readIdentifier?
  split
  · next cs htext =>
    rw [Option.map_eq_some_iff]
    constructor
    · rintro ⟨⟨xs, ys⟩, hread, heq⟩
      obtain ⟨rfl, rfl⟩ := Prod.mk.inj heq
      obtain ⟨rfl, hends⟩ := readQuoted?_eq_some_iff.mp hread
      refine ⟨String.toList_injective ?_, by rwa [String.toList_ofList]⟩
      rw [htext, Token.toList_ident_append, String.toList_ofList, String.toList_ofList]
    · rintro ⟨rfl, hends⟩
      rw [Token.toList_ident_append] at htext
      obtain rfl := (List.cons.inj htext).2
      refine ⟨(name.toList, rest.toList), readQuoted?_eq_some_iff.mpr ⟨rfl, hends⟩, ?_⟩
      rw [String.ofList_toList, String.ofList_toList]
  · next hother =>
    refine iff_of_false nofun ?_
    rintro ⟨rfl, -⟩
    exact hother _ (Token.toList_ident_append d name rest)

example : readIdentifier? ((Token.ident "a\"\"").text .duckdb ++ ".\"b\"") =
    some ("a\"\"", ".\"b\"") := by decide +kernel

end EntityLayout.Sql
