import CiPlan.Pattern.Program

/-!
# Searching a text

All ways to match advance together, one character at a time, in the order of preference.  Of two ways
that reach the same instruction at the same place only the preferred one is kept, so there are never
more ways than instructions and the search takes time linear in the text.  A match of the leftmost
start wins, and among those the preferred one.
-/

namespace CiPlan.Pattern

/-- The places that are kept under numbers, latest first. -/
abbrev Slots := List (Nat × Nat)

/-- A way to match: the instruction it has reached and the places it has kept. -/
structure Way where
  instr : Nat
  slots : Slots

/-- Follows the instructions that take no character, in the order of preference.  `seen` marks the
instructions that were reached before; `ways` collects those that take a character or accept, latest
first.  An instruction is followed once, so the bound `fuel` is never the reason to stop. -/
def follow (code : Array Instr) (before after : Option Char) (place : Nat) (fuel : Nat)
    (stack : List Way) (seen : Array Bool) (ways : List Way) : Array Bool × List Way :=
  match fuel, stack with
  | fuel + 1, way :: stack =>
    if seen.getD way.instr true then follow code before after place fuel stack seen ways
    else
      let seen := seen.setIfInBounds way.instr true
      match code[way.instr]? with
      | some (.split first second) =>
        follow code before after place fuel
          (⟨first, way.slots⟩ :: ⟨second, way.slots⟩ :: stack) seen ways
      | some (.save slot next) =>
        follow code before after place fuel (⟨next, (slot, place) :: way.slots⟩ :: stack) seen ways
      | some (.look condition next) =>
        follow code before after place fuel
          (if condition.holds before after then ⟨next, way.slots⟩ :: stack else stack) seen ways
      | some _ => follow code before after place fuel stack seen (way :: ways)
      | none => follow code before after place fuel stack seen ways
  | _, _ => (seen, ways)

/-- The ways that go on after a character, in order, up to the first that accepts before it; with it
the places of that one. -/
def advance (code : Array Instr) (c : Option Char) : List Way → List Way × Option Slots
  | [] => ([], none)
  | way :: ways =>
    match code[way.instr]? with
    | some .accept => ([], some way.slots)
    | some (.chars set next) =>
      let (rest, accepted) := advance code c ways
      if c.any set.has then (⟨next, way.slots⟩ :: rest, accepted) else (rest, accepted)
    | _ => advance code c ways

/-- Reads on with the ways that are under way.  While nothing is found, another way may start at each
place. -/
def searchFrom (p : Program) (before : Option Char) (place : Nat) (ways : List Way)
    (found : Option Slots) : List Char → Option Slots
  | [] =>
    let stack := if found.isNone then ways ++ [⟨p.start, []⟩] else ways
    let (_, reached) := follow p.code before none place (3 * p.code.size + stack.length + 1) stack
      (Array.replicate p.code.size false) []
    match advance p.code none reached.reverse with
    | (_, some slots) => some slots
    | (_, none) => found
  | c :: cs =>
    let stack := if found.isNone then ways ++ [⟨p.start, []⟩] else ways
    if stack.isEmpty then found
    else
      let (_, reached) := follow p.code before (some c) place (3 * p.code.size + stack.length + 1)
        stack (Array.replicate p.code.size false) []
      let (ways, accepted) := advance p.code (some c) reached.reverse
      searchFrom p (some c) (place + 1) ways (accepted.or found) cs

/-- The places that the best match keeps, if there is a match. -/
def search (p : Program) (text : List Char) : Option Slots :=
  searchFrom p none 0 [] none text

end CiPlan.Pattern
