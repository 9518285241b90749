import CiPlan.Pattern.Regex

/-!
# Programs that search for a regular expression

A regular expression becomes a program whose instructions name those that follow them.  A split names
two, of which the first is preferred.  The program of an expression is appended to that of what
follows it, so every instruction but those that close a loop refers to an earlier one.
-/

namespace CiPlan.Pattern

/-- An instruction.  Instructions are named by their index in the program. -/
inductive Instr where
  | accept
  | chars (set : Charset) (next : Nat)
  | look (condition : Look) (next : Nat)
  /-- Goes on at `first` and, if that fails, at `second`. -/
  | split (first second : Nat)
  /-- Keeps the present place under a number. -/
  | save (slot : Nat) (next : Nat)

/-- A program, and the index of its first instruction. -/
structure Program where
  code : Array Instr
  start : Nat

namespace Program

/-- Puts an instruction in front. -/
def push (p : Program) (i : Instr) : Program :=
  ⟨p.code.push i, p.code.size⟩

/-- A split that prefers the first of two places if `greedy` and the second otherwise. -/
def branch (greedy : Bool) (enter leave : Nat) : Instr :=
  if greedy then .split enter leave else .split leave enter

/-- Puts a loop in front: `body` makes the code of one round, which goes on at the split that
decides about the next. -/
def loop (p : Program) (greedy : Bool) (body : Program → Program) : Program × Nat :=
  let decision := p.code.size
  let inside := body (p.push (.split p.start p.start))
  (⟨inside.code.setIfInBounds decision (branch greedy inside.start p.start), inside.start⟩, decision)

/-- Puts optional rounds in front, each inside the one before it; all leave to `leave`. -/
def options (greedy : Bool) (leave : Nat) (body : Program → Program) : Nat → Program → Program
  | 0, p => p
  | n + 1, p =>
    let p := options greedy leave body n p
    let p := body p
    p.push (branch greedy p.start leave)

/-- Puts rounds in front. -/
def times (body : Program → Program) : Nat → Program → Program
  | 0, p => p
  | n + 1, p => body (times body n p)

/-- Puts a repetition in front.  A body that can match the empty text is first entered outside of the
loop, so that leaving it at once and leaving it after a round differ. -/
def repetition (p : Program) (emptiable : Bool) (least : Nat) (most : Option Nat) (greedy : Bool)
    (body : Program → Program) : Program :=
  match least, most with
  | least, some most => times body least (options greedy p.start body (most - least) p)
  | 0, none =>
    let (inside, decision) := p.loop greedy body
    if emptiable then inside.push (branch greedy inside.start p.start)
    else ⟨inside.code, decision⟩
  | least + 1, none => times body least (p.loop greedy body).1

/-- Puts an expression in front of a program. -/
def prepend : Regex → Program → Program
  | .empty, p => p
  | .chars set, p => p.push (.chars set p.start)
  | .look condition, p => p.push (.look condition p.start)
  | .seq r s, p => prepend r (prepend s p)
  | .alt r s, p =>
    let right := prepend s p
    let left := prepend r ⟨right.code, p.start⟩
    left.push (.split left.start right.start)
  | .rep r least most greedy, p => p.repetition r.emptiable least most greedy (prepend r)
  | .group index _ r, p =>
    let inside := prepend r (p.push (.save (2 * index + 1) p.start))
    inside.push (.save (2 * index) inside.start)

/-- The program of an expression. -/
def ofRegex (r : Regex) : Program :=
  prepend r ⟨#[.accept], 0⟩

end Program

/-- The memory that the program of an expression takes, in bytes and roughly: what the search keeps
for each byte of a character counts, so sets of characters beyond ASCII take more. -/
def Regex.cost : Regex → Nat
  | .empty => 0
  | .chars set =>
    if set.length = 1 ∧ List.all set fun r => r.2 < 0x80 then 32
    else 32 + 8 * set.length + 32 * 3 * (set.filter fun r => 0x80 ≤ r.2).length
  | .look _ => 32
  | .seq r s => r.cost + s.cost
  | .alt r s => r.cost + s.cost + 32
  | .rep r least most _ => r.cost * max 1 (most.getD least) + 32 * (1 + most.getD least)
  | .group _ _ r => r.cost + 64

end CiPlan.Pattern
