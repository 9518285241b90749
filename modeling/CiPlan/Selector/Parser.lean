import CiPlan.Selector.Expr
import CiPlan.Selector.Token

/-!
# Parsing selector expressions

The grammar, with `not` binding tighter than `and` and `and` tighter than `or`, and both binary
connectives associating to the left:

    expr     := or_expr
    or_expr  := and_expr ( "or" and_expr )*
    and_expr := unary ( "and" unary )*
    unary    := "not" unary | primary
    primary  := "(" expr ")" | "*" | WORD

The parser reads the tokens once, from left to right, and alternates between two states: before an
operand and after one.  A stack of frames holds what the operand is part of.  It is a function of the
tokens alone; an error names its token by its index, and the offset is looked up afterwards.
-/

namespace CiPlan.Selector

/-- What may follow in the grammar. -/
inductive Expected where
  /-- A term, `*`, `not` or an opening parenthesis. -/
  | operand
  /-- `and`, `or` or the end. -/
  | connective
  deriving DecidableEq, Repr

/-- Why a sequence of tokens is no expression. -/
inductive Fault where
  /-- The token at this index cannot stand there. -/
  | unexpected (index : Nat) (expected : Expected)
  /-- The tokens end where an operand is wanted. -/
  | ended
  /-- The parenthesis at this index has no partner. -/
  | unbalanced (index : Nat)
  /-- A token stands under too many parentheses and `not`s. -/
  | tooDeep
  deriving DecidableEq, Repr

/-- What an unfinished operand is part of. -/
inductive Frame where
  /-- It is inside the parenthesis at this index. -/
  | paren (index : Nat)
  /-- It is negated. -/
  | not
  /-- It is the right operand of `and`. -/
  | and (left : Expr)
  /-- It is the right operand of `or`. -/
  | or (left : Expr)
  deriving DecidableEq, Repr

/-- The frame counts as a level of nesting. -/
def Frame.nests : Frame → Bool
  | .paren _ | .not => true
  | .and _ | .or _ => false

/-- The number of parentheses and `not`s that enclose the next token. -/
def depth (stack : List Frame) : Nat :=
  stack.countP Frame.nests

/-- The deepest nesting that is accepted. -/
def maxDepth : Nat := 64

/-- Applies the `not`s that wait for the operand. -/
def closeNots : List Frame → Expr → List Frame × Expr
  | .not :: stack, e => closeNots stack (.not e)
  | stack, e => (stack, e)

/-- Completes the `and` that waits for the operand. -/
def closeAnd : List Frame → Expr → List Frame × Expr
  | .and l :: stack, e => (stack, .and l e)
  | stack, e => (stack, e)

/-- Completes the `and` and then the `or` that wait for the operand. -/
def closeOr (stack : List Frame) (e : Expr) : List Frame × Expr :=
  match closeAnd stack e with
  | (.or l :: stack, e) => (stack, .or l e)
  | (stack, e) => (stack, e)

mutual

/-- Reads the tokens from index `i`, where an operand is wanted. -/
def parseOperand (i : Nat) (stack : List Frame) : List Token → Except Fault Expr
  | [] => .error .ended
  | .word name :: ts => parseConnective (i + 1) (closeNots stack (.term name)) ts
  | .star :: ts => parseConnective (i + 1) (closeNots stack .all) ts
  | .not :: ts =>
    if depth stack < maxDepth then parseOperand (i + 1) (.not :: stack) ts else .error .tooDeep
  | .leftParen :: ts =>
    if depth stack < maxDepth then parseOperand (i + 1) (.paren i :: stack) ts else .error .tooDeep
  | .rightParen :: _ => .error (.unbalanced i)
  | .and :: _ | .or :: _ => .error (.unexpected i .operand)

/-- Reads the tokens from index `i`, after an operand. -/
def parseConnective (i : Nat) (state : List Frame × Expr) : List Token → Except Fault Expr
  | [] =>
    match closeOr state.1 state.2 with
    | (.paren opened :: _, _) => .error (.unbalanced opened)
    | (_, e) => .ok e
  | .and :: ts =>
    let (stack, e) := closeAnd state.1 state.2
    parseOperand (i + 1) (.and e :: stack) ts
  | .or :: ts =>
    let (stack, e) := closeOr state.1 state.2
    parseOperand (i + 1) (.or e :: stack) ts
  | .rightParen :: ts =>
    match closeOr state.1 state.2 with
    | (.paren _ :: stack, e) => parseConnective (i + 1) (closeNots stack e) ts
    | _ => .error (.unbalanced i)
  | .leftParen :: _ | .star :: _ | .not :: _ | .word _ :: _ =>
    match closeOr state.1 state.2 with
    | (.paren opened :: _, _) => .error (.unbalanced opened)
    | _ => .error (.unexpected i .connective)

end

/-- The expression of a sequence of tokens. -/
def parseTokens (ts : List Token) : Except Fault Expr :=
  parseOperand 0 [] ts

end CiPlan.Selector
