import CiPlan.NameSet
import CiPlan.Text.Search

/-!
# Selector expressions

A selector expression is built from `*`, terms and the connectives `not`, `and` and `or`.  It is
evaluated against a predicate on terms: a tag set decides a term by membership, a test name by
substring.

`Expr.canonical` writes an expression with the fewest parentheses that keep its tree.
-/

namespace CiPlan

/-- A selector expression. -/
inductive Expr where
  /-- `*`, which holds of every test. -/
  | all
  /-- A term, decided by the predicate of the evaluation. -/
  | term (name : String)
  | not (operand : Expr)
  | and (left right : Expr)
  | or (left right : Expr)
  deriving DecidableEq, Repr

namespace Expr

/-- The value of an expression when `holds` decides its terms. -/
def eval (holds : String → Bool) : Expr → Bool
  | all => true
  | term name => holds name
  | not e => !e.eval holds
  | and l r => l.eval holds && r.eval holds
  | or l r => l.eval holds || r.eval holds

/-- Adds the terms of an expression to a set. -/
def collect : Expr → NameSet → NameSet
  | all, s => s
  | term name, s => s.insert name
  | not e, s => e.collect s
  | and l r, s => r.collect (l.collect s)
  | or l r, s => r.collect (l.collect s)

/-- The terms of an expression. -/
def terms (e : Expr) : NameSet :=
  e.collect .empty

/-- How tightly the outermost connective binds. -/
def precedence : Expr → Nat
  | or .. => 1
  | and .. => 2
  | not _ => 3
  | all | term _ => 4

/-- Puts a text in parentheses when `wrap` says so. -/
def parenthesize (wrap : Bool) (text : String) : String :=
  if wrap then "(" ++ text ++ ")" else text

/-- The text of an expression with the fewest parentheses.  The binary connectives associate to the
left, so an operand on the right keeps its parentheses already when it binds equally tightly. -/
def canonical : Expr → String
  | all => "*"
  | term name => name
  | not e => "not " ++ parenthesize (e.precedence < 3) e.canonical
  | and l r =>
    parenthesize (l.precedence < 2) l.canonical ++ " and " ++
      parenthesize (r.precedence ≤ 2) r.canonical
  | or l r =>
    parenthesize (l.precedence < 1) l.canonical ++ " or " ++
      parenthesize (r.precedence ≤ 1) r.canonical

/-- The expression holds of a set of tags; a term is decided by membership, case-sensitively. -/
def matchesTags (e : Expr) (tags : NameSet) : Bool :=
  e.eval tags.contains

/-- The expression holds of a test name; a term is decided by whether it occurs in the name, up to
case. -/
def matchesName (e : Expr) (name : String) : Bool :=
  let hay := Text.lowerText name
  e.eval fun term => Text.occursIn (Text.lowerText term) hay

end Expr

end CiPlan
