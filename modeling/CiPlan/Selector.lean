import CiPlan.Json
import CiPlan.Selector.Parser

/-!
# Selectors

A selector is an expression together with the text it was read from, without surrounding blanks.
The text is what is shown, stored and handed to the test program; the expression is what is
evaluated.

The type holds the proof that the two belong together, so a selector is determined by its text.
-/

namespace CiPlan

open Selector in
/-- Why a text is no selector.  Positions are byte offsets. -/
inductive SelectorError where
  | empty
  | unexpectedChar (pos : Nat) (ch : Char)
  | unexpectedToken (pos : Nat) (found : Token) (expected : Expected)
  | unexpectedEnd
  | unbalancedParen (pos : Nat)
  | tooDeep
  | tooLong (length : Nat)
  deriving DecidableEq, Repr

namespace Selector

/-- The most bytes that an expression may take. -/
def maxLength : Nat := 4096

/-- What was expected, as error messages name it. -/
def Expected.display : Expected → String
  | .operand => "tag, '*', 'not' or '('"
  | .connective => "'and', 'or' or end of expression"

/-- The fault of some tokens as the error of their text. -/
def Fault.locate (tokens : List Located) : Fault → SelectorError
  | .unexpected i expected =>
    match tokens[i]? with
    | some t => .unexpectedToken t.pos t.token expected
    | none => .unexpectedEnd
  | .ended => .unexpectedEnd
  | .unbalanced i => .unbalancedParen (match tokens[i]? with | some t => t.pos | none => 0)
  | .tooDeep => .tooDeep

/-- The expression that a text spells. -/
def parseExpr (cs : List Char) : Except SelectorError Expr :=
  if maxLength < byteLength cs then .error (.tooLong (byteLength cs))
  else match lex 0 cs with
    | .error stray => .error (.unexpectedChar stray.pos stray.ch)
    | .ok [] => .error .empty
    | .ok tokens => (parseTokens (tokens.map (·.token))).mapError (Fault.locate tokens)

theorem byteLength_append (cs ds : List Char) :
    byteLength (cs ++ ds) = byteLength cs + byteLength ds := by
  induction cs with
  | nil => simp [byteLength]
  | cons c cs ih => rw [List.cons_append, byteLength, byteLength, ih, Nat.add_assoc]

/-- Surrounding blanks do not change the expression of a text. -/
theorem parseExpr_trimChars {cs : List Char} {e : Expr} (h : parseExpr cs = .ok e) :
    parseExpr (Text.trimChars cs) = .ok e := by
  obtain ⟨front, back, hf, hb, hcs⟩ := Text.append_trim_append cs
  have hlen : byteLength (Text.trimChars cs) ≤ byteLength cs := by
    rw [← hcs, byteLength_append, byteLength_append, hcs]
    omega
  unfold parseExpr at h ⊢
  split at h
  · cases h
  · next hle =>
    rw [if_neg (by omega)]
    rcases hl : lex 0 cs with stray | tokens
    · rw [hl] at h; cases h
    · have hmid : lex (0 + byteLength front) (Text.trimChars cs) = .ok tokens := by
        rw [← lex_blanks_append hf, ← lex_append_blanks hb, hcs, hl]
      obtain ⟨tokens', h1, h2⟩ := lex_tokens hmid 0
      rw [hl] at h
      rw [h1]
      cases tokens with
      | nil => cases h
      | cons t tokens =>
        cases tokens' with
        | nil => simp at h2
        | cons t' tokens' =>
          simp only [h2]
          simp only at h
          cases hp : parseTokens ((t :: tokens).map (·.token)) with
          | error f => rw [hp] at h; cases h
          | ok e' => rw [hp] at h; cases h; rfl

end Selector

/-- An expression with the text it was read from. -/
structure Selector where
  /-- The text, without surrounding blanks. -/
  source : String
  /-- The expression that the text spells. -/
  expr : Expr
  /-- Nothing is left to trim. -/
  trimmed : Text.trim source = source
  /-- The text spells the expression. -/
  spells : Selector.parseExpr source.toList = .ok expr
  deriving DecidableEq

namespace Selector

/-- Reads a selector. -/
def parse (input : String) : Except SelectorError Selector :=
  match h : parseExpr input.toList with
  | .error e => .error e
  | .ok e =>
    .ok ⟨Text.trim input, e, Text.trim_idem input, by
      rw [Text.trim, String.toList_ofList]; exact parseExpr_trimChars h⟩

theorem spells_of_toOption {cs : List Char} {e : Expr}
    (h : (parseExpr cs).toOption = some e) : parseExpr cs = .ok e := by
  cases hparse : parseExpr cs with
  | error _ =>
    rw [hparse] at h
    cases h
  | ok _ =>
    rw [hparse] at h
    cases h
    rfl

/-- A selector whose expression is known beforehand, which is checked by reading the text. -/
def known (source : String) (expr : Expr)
    (h : Text.trim source = source ∧ (parseExpr source.toList).toOption = some expr := by
      decide +kernel) : Selector :=
  ⟨source, expr, h.1, spells_of_toOption h.2⟩

/-- The selector of every test, `*`. -/
def all : Selector := known "*" .all

/-- The expression with the fewest parentheses. -/
def canonical (s : Selector) : String :=
  s.expr.canonical

/-- The terms of the expression. -/
def terms (s : Selector) : NameSet :=
  s.expr.terms

/-- The expression is `*` itself, whatever its text. -/
def isSelectAll (s : Selector) : Bool :=
  s.expr = .all

/-- The selector holds of a set of tags. -/
def matchesTags (s : Selector) (tags : NameSet) : Bool :=
  s.expr.matchesTags tags

/-- The selector holds of a test name. -/
def matchesName (s : Selector) (name : String) : Bool :=
  s.expr.matchesName name

/-- The written form, from which the expression is read again. -/
def toJson (s : Selector) : Json := .str s.source

/-- Reads the written form, which may have blanks around it. -/
def ofJson? (j : Json) : Option Selector := do
  (parse (← j.str?)).toOption

end Selector

def SelectorError.message : SelectorError → String
  | .empty => "empty selector expression (use '*' to select every test)"
  | .unexpectedChar pos ch =>
    "unexpected character '" ++ ch.toString ++ "' at offset " ++ toString pos
  | .unexpectedToken pos found expected =>
    "unexpected " ++ found.display ++ " at offset " ++ toString pos ++ ", expected " ++
      expected.display
  | .unexpectedEnd =>
    "unexpected end of expression, expected " ++ Selector.Expected.operand.display
  | .unbalancedParen pos => "unbalanced parenthesis at offset " ++ toString pos
  | .tooDeep => "expression nested deeper than " ++ toString Selector.maxDepth ++ " levels"
  | .tooLong length =>
    "expression too long: " ++ toString length ++ " bytes (max: " ++
      toString Selector.maxLength ++ ")"

end CiPlan
