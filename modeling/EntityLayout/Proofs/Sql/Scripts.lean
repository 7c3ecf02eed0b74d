/-
# A script tells its statements

Types and tables are defined by lists of names with their types, and all of it is written with the
same few marks.  A list of columns ends where its parenthesis stands on a line of its own, and a
statement ends with its list.

* `readable_columnListTokens`: a list of columns can be told from anything that follows.
* `Statement.readable_tokens`: so can a statement.
* `script_inj`: **two lists of statements with the same script are equal.**
-/
import EntityLayout.Proofs.Sql.Readable
import EntityLayout.Sql.Statement

namespace EntityLayout.Sql

variable {d : Dialect}

/-! ## 1. Columns -/

theorem chars_column (c : ColumnDef) : chars d c.tokens =
    (quoteIdentifier c.name).toList ++ (" ".toList ++ c.type.spelling.toList) := by
  simp [ColumnDef.tokens, space, Token.text, Keyword.spelling]

/-- A column can be told from what follows, unless it is a quote or a bracket. -/
theorem readable_columnDef :
    Readable SqlType.Ends (fun _ => True) fun c : ColumnDef => chars d c.tokens := by
  have hparts := readable_quoteIdentifier.append (SqlType.readable_spelling.behind " ".toList)
    fun t _ r _ => by simp [EndsName]
  have hcolumn := hparts.image (fun p => ColumnDef.mk p.1 p.2) (fun c => chars d c.tokens)
    fun p _ => chars_column _
  exact hcolumn.mono (fun _ h => h) fun c _ => ⟨(c.name, c.type), ⟨trivial, trivial⟩, rfl⟩

theorem chars_columnListTokens (columns : List ColumnDef) :
    chars d (columnListTokens columns) = "(".toList ++
      (listed "\n  ".toList ",\n  ".toList (fun c => chars d c.tokens) columns ++
        "\n)".toList) := by
  cases columns with
  | nil => simp [columnListTokens, separated, listed, Token.text, Keyword.spelling]
  | cons c columns =>
    rw [columnListTokens, chars_cons, chars_append, chars_separated]
    simp [listed, ledBy, newItem, Token.text, Keyword.spelling]

/-- **A list of columns in parentheses can be told from anything that follows.** -/
theorem readable_columnListTokens : Readable (fun _ => True) (fun _ => True)
    fun columns => chars d (columnListTokens columns) := by
  have hlist := (readable_columnDef (d := d)).listed "\n  ".toList ",\n  ".toList
    fun t => by simp [SqlType.Ends, EndsName]
  have hclosed := hlist.closed "\n)".toList fun r => by simp [SqlType.Ends, EndsName]
  intro cs ds _ _ r s hr hs heq
  simp only [chars_columnListTokens] at heq
  exact hclosed.behind "(".toList (fun _ _ => trivial) (fun _ _ => trivial) hr hs heq

/-! ## 2. Statements -/

namespace Statement

/-- **A statement can be told from anything that follows.** -/
theorem readable_tokens :
    Readable (fun _ => True) (fun _ => True) fun s : Statement => chars d (s.tokens d) := by
  have htable := (readable_quoteIdentifier.append
    ((readable_columnListTokens (d := d)).behind " ".toList)
      fun _ _ r _ => by simp [EndsName]).behind "CREATE TABLE ".toList
  have htype := (readable_quoteIdentifier.append
    ((readable_columnListTokens (d := d)).behind
      (" AS ".toList ++ if d.structBody then "STRUCT".toList else []))
      fun _ _ r _ => by simp [EndsName]).behind "CREATE TYPE ".toList
  have hstatement := (htype.image (fun p => createType p.1 p.2) (fun s => chars d (s.tokens d))
      fun p _ => by
        cases hbody : d.structBody <;> simp [tokens, space, Token.text, Keyword.spelling, hbody]).or
    (htable.image (fun p => createTable p.1 p.2) _ fun p _ => by
      simp [tokens, space, Token.text, Keyword.spelling]) ?_
  · refine hstatement.mono (fun _ h => h) fun s _ => ?_
    cases s with
    | createType name fields => exact .inl ⟨(name, fields), ⟨trivial, trivial⟩, rfl⟩
    | createTable name columns => exact .inr ⟨(name, columns), ⟨trivial, trivial⟩, rfl⟩
  · -- the second letters of `TYPE` and `TABLE` differ
    rintro _ _ ⟨p, -, rfl⟩ ⟨q, -, rfl⟩ r s heq
    simp [tokens, space, Token.text, Keyword.spelling] at heq

end Statement

/-! ## 3. Scripts -/

/-- A statement with its semicolon. -/
def closedTokens (d : Dialect) (s : Statement) : List Token := s.tokens d ++ [.keyword .semicolon]

theorem readable_closedTokens :
    Readable (fun _ => True) (fun _ => True) fun s : Statement => chars d (closedTokens d s) := by
  have hclosed := (Statement.readable_tokens (d := d)).closed ";".toList fun _ => trivial
  intro a b _ _ r s hr hs heq
  refine hclosed trivial trivial hr hs ?_
  simpa [closedTokens, Token.text, Keyword.spelling] using heq

theorem chars_scriptTokens (s : Statement) (ss : List Statement) :
    chars d (scriptTokens d (s :: ss)) = chars d (closedTokens d s) ++
      (ledBy "\n\n".toList (fun s => chars d (closedTokens d s)) ss ++ "\n".toList) := by
  rw [scriptTokens, chars_append, chars_separated, List.append_assoc]
  · simp [closedTokens, Token.text, Keyword.spelling]
  · simp

/-- A line break ends a script: an empty line stands before a further statement. -/
theorem readable_script : Readable (fun r => r = "\n".toList) (fun _ => True)
    fun p : Statement × List Statement => chars d (closedTokens d p.1) ++
      ledBy "\n\n".toList (fun s => chars d (closedTokens d s)) p.2 := by
  have hlist := (readable_closedTokens (d := d)).ledBy "\n\n".toList fun _ => trivial
  have hscript := (readable_closedTokens (d := d)).append hlist fun _ _ _ _ => trivial
  exact hscript.mono (fun r hr => by simp [hr]) fun _ _ => ⟨trivial, fun _ _ => trivial⟩

/-- **Two lists of statements with the same script are equal.** -/
theorem script_inj {ss ss' : List Statement} : script d ss = script d ss' ↔ ss = ss' := by
  constructor
  · intro h
    replace h := congrArg String.toList h
    rw [script, script, toList_render, toList_render] at h
    cases ss with
    | nil =>
      cases ss' with
      | nil => rfl
      | cons s' ss' =>
        rw [chars_scriptTokens] at h
        simp [scriptTokens] at h
    | cons s ss =>
      cases ss' with
      | nil =>
        rw [chars_scriptTokens] at h
        simp [scriptTokens] at h
      | cons s' ss' =>
        rw [chars_scriptTokens, chars_scriptTokens, ← List.append_assoc, ← List.append_assoc] at h
        obtain ⟨hparts, -⟩ := @readable_script d (s, ss) (s', ss') trivial trivial _ _ rfl rfl h
        obtain ⟨rfl, rfl⟩ := Prod.mk.inj hparts
        rfl
  · rintro rfl
    rfl

end EntityLayout.Sql
