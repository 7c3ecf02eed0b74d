/-
# SQL expressions

Columns, equalities and function calls.
-/
import EntityLayout.Sql.Token

namespace EntityLayout.Sql

/-- An expression. -/
inductive Expr where
  | column (table : Option String) (name : String)
  | equal (left right : Expr)
  | call (function : String) (arguments : List Expr)
  deriving Repr

namespace Expr

instance : Inhabited Expr := ⟨.column none ""⟩

mutual

/-- Equality of expressions is decided part by part. -/
def decideEq : (a b : Expr) → Decidable (a = b)
  | .column t n, .column t' n' =>
    if h : t = t' ∧ n = n' then isTrue (by obtain ⟨rfl, rfl⟩ := h; rfl)
    else isFalse (by simpa using fun a b => h ⟨a, b⟩)
  | .equal l r, .equal l' r' =>
    match decideEq l l', decideEq r r' with
    | isTrue h, isTrue h' => isTrue (by rw [h, h'])
    | isFalse h, _ => isFalse (by simp [h])
    | _, isFalse h => isFalse (by simp [h])
  | .call f as, .call f' as' =>
    match decideEqList as as' with
    | isTrue h => if h' : f = f' then isTrue (by rw [h, h']) else isFalse (by simp [h'])
    | isFalse h => isFalse (by simp [h])
  | .column _ _, .equal _ _ => isFalse (by simp)
  | .column _ _, .call _ _ => isFalse (by simp)
  | .equal _ _, .column _ _ => isFalse (by simp)
  | .equal _ _, .call _ _ => isFalse (by simp)
  | .call _ _, .column _ _ => isFalse (by simp)
  | .call _ _, .equal _ _ => isFalse (by simp)

/-- Equality of lists of expressions. -/
def decideEqList : (as bs : List Expr) → Decidable (as = bs)
  | [], [] => isTrue rfl
  | [], _ :: _ => isFalse (by simp)
  | _ :: _, [] => isFalse (by simp)
  | a :: as, b :: bs =>
    match decideEq a b, decideEqList as bs with
    | isTrue h, isTrue hs => isTrue (by rw [h, hs])
    | isFalse h, _ => isFalse (by simp [h])
    | _, isFalse hs => isFalse (by simp [hs])

end

instance : DecidableEq Expr := decideEq

/-- The aggregate that collects the values of a group. -/
def arrayAgg (e : Expr) : Expr := .call "ARRAY_AGG" [e]

/-- Whether the expression is a call of the aggregate. -/
def isAggregate : Expr → Bool
  | .call f _ => Text.asciiUpper f = "ARRAY_AGG"
  | _ => false

mutual

/-- The tokens of an expression. -/
def tokens : Expr → List Token
  | .column t n => [.qualified t n]
  | .equal l r => tokens l ++ [space, .keyword .equals, space] ++ tokens r
  | .call f as =>
    [.function f, .keyword .openParen] ++ separated [.keyword .comma, space] (tokensOf as)
      ++ [.keyword .closeParen]

/-- The tokens of each of several expressions. -/
def tokensOf : List Expr → List (List Token)
  | [] => []
  | a :: as => tokens a :: tokensOf as

end

end Expr

end EntityLayout.Sql
