import CiPlan.Proofs.ErrorPositions

/-!
# Parentheses that an error blames

In a text each `)` is the partner of the last `(` before it that is still open; the others have none
(`unpaired`).  The parser counts no parentheses.  It blames one in four places: where a `)` closes
nothing, where a `(` stays open to the end, where a `)` stands in place of an operand, and where the
expression behind a `(` is followed by another operand.

In the first two the parenthesis has no partner, since a phrase leaves the parentheses around it as
they are (`unpaired_phrase`).  In the others it may well have one, which the parser has not looked
for: `(a b)` is refused for its first parenthesis, and `()` for its second.

Main result: `parse_unbalancedParen`.
-/

namespace CiPlan.Selector

open Text (isBlank)

/-- A parenthesis and its offset. -/
structure Paren where
  pos : Nat
  opens : Bool
  deriving DecidableEq, Repr

/-- The offsets of the parentheses that have no partner, when those at `opened` are open before
them, the last of these first. -/
def unpaired (opened : List Nat) : List Paren → List Nat
  | [] => opened
  | ⟨pos, true⟩ :: ps => unpaired (pos :: opened) ps
  | ⟨pos, false⟩ :: ps =>
    match opened with
    | [] => pos :: unpaired [] ps
    | _ :: outer => unpaired outer ps

def Paren.ofChar? (pos : Nat) (c : Char) : Option Paren :=
  if c = '(' then some ⟨pos, true⟩
  else if c = ')' then some ⟨pos, false⟩
  else none

/-- The parentheses among the characters from byte `pos` on. -/
def parens (pos : Nat) : List Char → List Paren
  | [] => []
  | c :: cs => (Paren.ofChar? pos c).toList ++ parens (pos + c.utf8Size) cs

/-- The offsets of the parentheses of a text that have no partner. -/
def unpairedParens (input : String) : List Nat :=
  unpaired [] (parens 0 input.toList)

/-! ## Where a parenthesis is blamed -/

/-- At `pos` a parenthesis closes behind an expression that none has opened. -/
def ClosesNothing (ls : List Located) (pos : Nat) : Prop :=
  ∃ before after, ls = before ++ ⟨.rightParen, pos⟩ :: after ∧ IsAccepted (before.map (·.token))

/-- The expression behind the parenthesis at `pos` reaches to the end. -/
def StaysOpen (ls : List Located) (pos : Nat) : Prop :=
  ∃ before group, ls = before ++ ⟨.leftParen, pos⟩ :: group ∧ IsBeginning (ls.map (·.token)) ∧
    ∃ n e, Derives .expr (group.map (·.token)) n e

/-- At `pos` a parenthesis closes in place of an operand. -/
def ClosesEarly (ls : List Located) (pos : Nat) : Prop :=
  ∃ before after, ls = before ++ ⟨.rightParen, pos⟩ :: after ∧
    AwaitsOperand (before.map (·.token))

/-- The expression behind the parenthesis at `pos` is followed by an operand. -/
def IsInterrupted (ls : List Located) (pos : Nat) : Prop :=
  ∃ before group next after, ls = before ++ ⟨.leftParen, pos⟩ :: (group ++ next :: after) ∧
    IsBeginning ((before ++ ⟨.leftParen, pos⟩ :: group).map (·.token)) ∧
    (∃ n e, Derives .expr (group.map (·.token)) n e) ∧ next.token.beginsOperand = true

/-! ## Parentheses of tokens -/

def Located.paren? : Located → Option Paren
  | ⟨.leftParen, pos⟩ => some ⟨pos, true⟩
  | ⟨.rightParen, pos⟩ => some ⟨pos, false⟩
  | _ => none

section Parens

variable {pos : Nat} {cs : List Char} {ls : List Located}

theorem parens_append (pos : Nat) (front back : List Char) :
    parens pos (front ++ back) = parens pos front ++ parens (pos + byteLength front) back := by
  induction front generalizing pos with
  | nil => rfl
  | cons c front ih =>
      rw [List.cons_append, parens, parens, ih, List.append_assoc, byteLength, Nat.add_assoc]

theorem parens_eq_nil (h : ∀ c ∈ cs, c ≠ '(' ∧ c ≠ ')') : parens pos cs = [] := by
  induction cs generalizing pos with
  | nil => rfl
  | cons c cs ih =>
      obtain ⟨⟨hleft, hright⟩, hcs⟩ := List.forall_mem_cons.mp h
      rw [parens, Paren.ofChar?, if_neg hleft, if_neg hright, ih hcs]
      rfl

theorem parens_blanks (h : cs.all isBlank = true) : parens pos cs = [] := by
  refine parens_eq_nil fun c hc => ?_
  have hblank : isBlank c = true := List.all_eq_true.mp h c hc
  constructor
  · rintro rfl
    exact absurd hblank (by decide)
  · rintro rfl
    exact absurd hblank (by decide)

/-- The parentheses of a token's text are the token itself, if it is one. -/
theorem parens_text {t : Token} (h : t.IsWritten) (pos : Nat) :
    parens pos t.text.toList = (Located.paren? ⟨t, pos⟩).toList := by
  cases t with
  | leftParen | rightParen | star => rfl
  | and | or | not | word =>
      refine parens_eq_nil fun c hc => ?_
      have hword : isWordChar c = true := (h.chars rfl).2 c hc
      constructor
      · rintro rfl
        exact absurd hword (by decide)
      · rintro rfl
        exact absurd hword (by decide)

/-- The parentheses of a text are those among its tokens. -/
theorem LaidOut.parens_eq (h : LaidOut pos cs ls) :
    parens pos cs = ls.filterMap Located.paren? := by
  induction h with
  | blanks h => exact parens_blanks h
  | token hgap ht _ _ ih =>
      rw [parens_append, parens_append, parens_blanks hgap, parens_text ht, ih, List.nil_append,
        List.filterMap_cons]
      cases Located.paren? _ <;> rfl

end Parens

section Unpaired

variable {opened : List Nat} {ps rest : List Paren} {ls : List Located}

/-- What stands before some parentheses decides which of them are open, and nothing else. -/
theorem exists_unpaired_append (opened : List Nat) (ps : List Paren) :
    ∃ lost opened', ∀ rest, unpaired opened (ps ++ rest) = lost ++ unpaired opened' rest := by
  induction ps generalizing opened with
  | nil => exact ⟨[], opened, fun _ => rfl⟩
  | cons p ps ih =>
      match p, opened with
      | ⟨pos, true⟩, opened => exact ih (pos :: opened)
      | ⟨pos, false⟩, [] =>
          obtain ⟨lost, opened', h⟩ := ih []
          exact ⟨pos :: lost, opened', fun rest => congrArg (pos :: ·) (h rest)⟩
      | ⟨pos, false⟩, _ :: outer => exact ih outer

/-- A phrase leaves the parentheses around it as they are. -/
theorem unpaired_phrase {level : Level} {ts : List Token} {n : Nat} {e : Expr}
    (h : Derives level ts n e) (hls : ls.map (·.token) = ts) (opened : List Nat)
    (rest : List Paren) :
    unpaired opened (ls.filterMap Located.paren? ++ rest) = unpaired opened rest := by
  induction h generalizing ls opened rest with
  | word | star =>
      obtain ⟨⟨t, pos⟩, rfl, rfl⟩ := List.map_eq_singleton_iff.mp hls
      rfl
  | paren _ ih =>
      obtain ⟨⟨_, pos⟩, tail, rfl, rfl, htail⟩ := List.map_eq_cons_iff.mp hls
      obtain ⟨inner, last, rfl, hinner, hlast⟩ := List.map_eq_append_iff.mp htail
      obtain ⟨⟨_, pos'⟩, rfl, rfl⟩ := List.map_eq_singleton_iff.mp hlast
      have hgroup := ih hinner (pos :: opened) (⟨pos', false⟩ :: rest)
      simpa [Located.paren?, unpaired] using hgroup
  | not _ ih =>
      obtain ⟨⟨_, pos⟩, tail, rfl, rfl, htail⟩ := List.map_eq_cons_iff.mp hls
      exact ih htail opened rest
  | ofUnary _ ih | ofConjunction _ ih => exact ih hls opened rest
  | and _ _ ihl ihr | or _ _ ihl ihr =>
      obtain ⟨left, tail, rfl, hleft, htail⟩ := List.map_eq_append_iff.mp hls
      obtain ⟨⟨_, pos⟩, right, rfl, rfl, hright⟩ := List.map_eq_cons_iff.mp htail
      rw [List.filterMap_append, List.append_assoc, ihl hleft]
      exact ihr hright opened rest

theorem ClosesNothing.mem_unpaired {pos : Nat} (h : ClosesNothing ls pos) :
    pos ∈ unpaired [] (ls.filterMap Located.paren?) := by
  obtain ⟨before, after, rfl, n, -, e, hd⟩ := h
  rw [List.filterMap_append, unpaired_phrase hd rfl]
  exact List.mem_cons_self

theorem StaysOpen.mem_unpaired {pos : Nat} (h : StaysOpen ls pos) :
    pos ∈ unpaired [] (ls.filterMap Located.paren?) := by
  obtain ⟨before, group, rfl, -, n, e, hd⟩ := h
  obtain ⟨lost, opened, hbefore⟩ := exists_unpaired_append [] (before.filterMap Located.paren?)
  rw [List.filterMap_append, hbefore]
  refine List.mem_append_right _ ?_
  show pos ∈ unpaired (pos :: opened) (group.filterMap Located.paren?)
  rw [← List.append_nil (group.filterMap _), unpaired_phrase hd rfl]
  exact List.mem_cons_self

end Unpaired

section Blame

variable {ls : List Located} {pos : Nat} {input : String}

/-- The fault of the tokens is an unbalanced parenthesis, and it stands at `pos`. -/
theorem exists_unbalanced_iff :
    (∃ i, Fails (ls.map (·.token)) (.unbalanced i) ∧
        (Fault.unbalanced i).locate ls = .unbalancedParen pos) ↔
      ClosesNothing ls pos ∨ StaysOpen ls pos ∨ ClosesEarly ls pos ∨ IsInterrupted ls pos := by
  constructor
  · rintro ⟨i, hfails, hlocate⟩
    generalize htokens : ls.map (·.token) = ts at hfails
    cases hfails with
    | closedEarly h after =>
        obtain ⟨front, ⟨_, _⟩, back, rfl, rfl, rfl, rfl, hget⟩ := exists_split_of_map_eq htokens
        rw [Fault.locate, hget] at hlocate
        cases hlocate
        exact .inr (.inr (.inl ⟨front, back, rfl, h⟩))
    | unopened h after =>
        obtain ⟨front, ⟨_, _⟩, back, rfl, rfl, rfl, rfl, hget⟩ := exists_split_of_map_eq htokens
        rw [Fault.locate, hget] at hlocate
        cases hlocate
        exact .inl ⟨front, back, rfl, h⟩
    | unclosed h hgroup =>
        obtain ⟨front, ⟨_, _⟩, back, rfl, rfl, rfl, rfl, hget⟩ := exists_split_of_map_eq htokens
        rw [Fault.locate, hget] at hlocate
        cases hlocate
        rw [← htokens] at h
        exact .inr (.inl ⟨front, back, rfl, h, _, _, hgroup⟩)
    | interrupted h hgroup ht after =>
        obtain ⟨front, ⟨_, _⟩, back, rfl, rfl, rfl, hback, hget⟩ := exists_split_of_map_eq htokens
        obtain ⟨group, next, after, rfl, rfl, rfl, -, -⟩ := exists_split_of_map_eq hback
        rw [Fault.locate, hget] at hlocate
        cases hlocate
        exact .inr (.inr (.inr
          ⟨front, group, next, after, rfl, by simpa using h, ⟨_, _, hgroup⟩, ht⟩))
  · rintro (⟨before, after, rfl, h⟩ | ⟨before, group, rfl, h, n, e, hgroup⟩ |
      ⟨before, after, rfl, h⟩ | ⟨before, group, next, after, rfl, h, ⟨n, e, hgroup⟩, hnext⟩)
    · exact ⟨_, by simpa using Fails.unopened h (after.map (·.token)), by simp [Fault.locate]⟩
    · exact ⟨_, by simpa using Fails.unclosed (by simpa using h) hgroup, by simp [Fault.locate]⟩
    · exact ⟨_, by simpa using Fails.closedEarly h (after.map (·.token)), by simp [Fault.locate]⟩
    · refine ⟨before.length, ?_, by simp [Fault.locate]⟩
      have hfails := Fails.interrupted (by simpa using h) hgroup hnext (after.map (·.token))
      simpa using hfails

theorem parse_eq_unbalancedParen_iff :
    parse input = .error (.unbalancedParen pos) ↔
      input.utf8ByteSize ≤ maxLength ∧ ∃ ls, lex 0 input.toList = .ok ls ∧
        (ClosesNothing ls pos ∨ StaysOpen ls pos ∨ ClosesEarly ls pos ∨ IsInterrupted ls pos) := by
  by_cases hshort : input.utf8ByteSize ≤ maxLength
  · rw [parse_eq_error_iff hshort]
    constructor
    · rintro (⟨stray, -, heq⟩ | ⟨-, heq⟩ | ⟨ls, fault, hlex, -, hfails, heq⟩)
      · cases heq
      · cases heq
      · cases fault with
        | ended | tooDeep => cases heq
        | unexpected i expected =>
            rw [Fault.locate] at heq
            split at heq <;> cases heq
        | unbalanced i =>
            exact ⟨hshort, ls, hlex, exists_unbalanced_iff.mp ⟨i, hfails, heq.symm⟩⟩
    · rintro ⟨-, ls, hlex, hblame⟩
      obtain ⟨i, hfails, heq⟩ := exists_unbalanced_iff.mpr hblame
      refine .inr (.inr ⟨ls, _, hlex, ?_, hfails, heq.symm⟩)
      rintro rfl
      rcases hblame with ⟨_, _, h, -⟩ | ⟨_, _, h, -⟩ | ⟨_, _, h, -⟩ | ⟨_, _, _, _, h, -⟩ <;>
        simp at h
  · simp [parse_eq_tooLong (Nat.lt_of_not_le hshort), hshort]

/-- What is blamed is a parenthesis of the text. -/
theorem exists_paren_of_parse (h : parse input = .error (.unbalancedParen pos)) :
    ∃ t ∈ [Token.leftParen, .rightParen], ∃ before after,
      lex 0 input.toList = .ok (before ++ ⟨t, pos⟩ :: after) := by
  obtain ⟨-, ls, hlex, hblame⟩ := parse_eq_unbalancedParen_iff.mp h
  rcases hblame with ⟨before, after, rfl, -⟩ | ⟨before, group, rfl, -⟩ | ⟨before, after, rfl, -⟩ |
    ⟨before, group, next, after, rfl, -⟩
  · exact ⟨.rightParen, by simp, before, after, hlex⟩
  · exact ⟨.leftParen, by simp, before, group, hlex⟩
  · exact ⟨.rightParen, by simp, before, after, hlex⟩
  · exact ⟨.leftParen, by simp, before, group ++ next :: after, hlex⟩

theorem mem_unpairedParens (hlex : lex 0 input.toList = .ok ls)
    (h : ClosesNothing ls pos ∨ StaysOpen ls pos) : pos ∈ unpairedParens input := by
  rw [unpairedParens, (laidOut_of_lex hlex).parens_eq]
  exact h.elim (·.mem_unpaired) (·.mem_unpaired)

/-- When a parenthesis is called unbalanced.  The four places are those of a text of at most 4096
bytes, and a parenthesis stands there.  One that closes nothing or stays open has no partner; one
that has a partner is blamed just when it closes in place of an operand, or when an operand follows
the expression behind it. -/
theorem parse_unbalancedParen {input : String} {pos : Nat} :
    (parse input = .error (.unbalancedParen pos) ↔
      input.utf8ByteSize ≤ 4096 ∧ ∃ ls, lex 0 input.toList = .ok ls ∧
        (ClosesNothing ls pos ∨ StaysOpen ls pos ∨ ClosesEarly ls pos ∨ IsInterrupted ls pos)) ∧
    (parse input = .error (.unbalancedParen pos) →
      ∃ paren ∈ ["(", ")"], ∃ front back : String, input = front ++ paren ++ back ∧
        pos = front.utf8ByteSize) ∧
    (∀ ls, lex 0 input.toList = .ok ls → ClosesNothing ls pos ∨ StaysOpen ls pos →
      pos ∈ unpairedParens input) ∧
    (pos ∉ unpairedParens input → (parse input = .error (.unbalancedParen pos) ↔
      input.utf8ByteSize ≤ 4096 ∧ ∃ ls, lex 0 input.toList = .ok ls ∧
        (ClosesEarly ls pos ∨ IsInterrupted ls pos))) := by
  refine ⟨parse_eq_unbalancedParen_iff, fun h => ?_, fun ls => mem_unpairedParens,
    fun hpaired => ?_⟩
  · obtain ⟨t, ht, before, after, hlex⟩ := exists_paren_of_parse h
    exact ⟨t.text, List.mem_map_of_mem ht, exists_text_of_lex hlex⟩
  · rw [parse_eq_unbalancedParen_iff]
    constructor
    · rintro ⟨hshort, ls, hlex, hblame⟩
      refine ⟨hshort, ls, hlex, (or_assoc.mpr hblame).resolve_left fun hnone => ?_⟩
      exact hpaired (mem_unpairedParens hlex hnone)
    · rintro ⟨hshort, ls, hlex, hblame⟩
      exact ⟨hshort, ls, hlex, .inr (.inr hblame)⟩

/-- A parenthesis that stays open behind a connective, and one whose expression is followed by
another before it is closed. -/
theorem parse_unbalancedParen_twoGroups :
    5 ∈ unpairedParens "a or (b" ∧
      ∃ ls, lex 0 "(a b)".toList = .ok ls ∧ (ClosesEarly ls 0 ∨ IsInterrupted ls 0) := by
  have hgroup : parse "(a b)" = .error (.unbalancedParen 0) := by decide +kernel
  have hlex : lex 0 "a or (b".toList =
      .ok [⟨.word "a", 0⟩, ⟨.or, 2⟩, ⟨.leftParen, 5⟩, ⟨.word "b", 6⟩] := by decide +kernel
  have hterm : ∀ name, Derives .expr [.word name] 0 (.term name) :=
    fun name => .ofConjunction (.ofUnary (.word name))
  have hwhole : Derives .expr [.word "a", .or, .leftParen, .word "b", .rightParen] 1
      (.or (.term "a") (.term "b")) := .or (hterm "a") (.ofUnary (.paren (hterm "b")))
  have hstays : StaysOpen [⟨.word "a", 0⟩, ⟨.or, 2⟩, ⟨.leftParen, 5⟩, ⟨.word "b", 6⟩] 5 :=
    ⟨[⟨.word "a", 0⟩, ⟨.or, 2⟩], [⟨.word "b", 6⟩], rfl, ⟨[.rightParen], 1, by decide, _, hwhole⟩,
      0, _, hterm "b"⟩
  obtain ⟨-, -, hunpaired, -⟩ := @parse_unbalancedParen "a or (b" 5
  obtain ⟨-, -, -, hpaired⟩ := @parse_unbalancedParen "(a b)" 0
  exact ⟨hunpaired _ hlex (.inr hstays), ((hpaired (by decide +kernel)).mp hgroup).2⟩

/-- Texts in which every parenthesis has a partner, and one is blamed. -/
theorem parse_blames_paired :
    (unpairedParens "(a b)" = [] ∧ parse "(a b)" = .error (.unbalancedParen 0)) ∧
      (unpairedParens "()" = [] ∧ parse "()" = .error (.unbalancedParen 1)) ∧
      unpairedParens "(a and)" = [] ∧ parse "(a and)" = .error (.unbalancedParen 6) := by
  decide +kernel

end Blame

end CiPlan.Selector
