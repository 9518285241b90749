import CiPlan.Proofs.Language
import Mathlib.Data.List.Induction

/-!
# Why tokens are no expression

`Fails` says by the grammar alone which tokens are refused and where: it speaks of the expressions
that begin with the tokens before the fault (`IsBeginning`), and of those that go on with an operand
there (`AwaitsOperand`).

The parser is followed token by token.  What it has read decides its state (`Reads`), and with the
next token it either is in a state again or refuses the tokens whatever else follows (`Reads.step`,
`reads_or_stops`).  A state can always be completed to an expression, since each parenthesis that is
open can be closed (`isBeginning_of_ends`).

Main result: `parseTokens_eq_error_iff`.
-/

namespace CiPlan.Selector

/-! ## Beginnings of expressions -/

/-- The tokens are an expression in which none is nested too deep. -/
def IsAccepted (ts : List Token) : Prop :=
  ∃ n ≤ maxDepth, ∃ e, Derives .expr ts n e

/-- An expression in which no token is nested too deep begins with the tokens. -/
def IsBeginning (ts : List Token) : Prop :=
  ∃ rest, IsAccepted (ts ++ rest)

/-- Behind the tokens an expression can go on with an operand. -/
def AwaitsOperand (ts : List Token) : Prop :=
  IsBeginning (ts ++ [.star])

/-- An operand can begin with the token. -/
def Token.beginsOperand : Token → Bool
  | .leftParen | .star | .not | .word _ => true
  | .rightParen | .and | .or => false

/-- Why the tokens are no expression.  What stands behind the fault does not matter. -/
inductive Fails : List Token → Fault → Prop
  /-- An operand is missing at the end. -/
  | ended {ts} (h : AwaitsOperand ts) : Fails ts .ended
  /-- A connective stands in place of an operand. -/
  | connective {before t} (h : AwaitsOperand before) (ht : t ∈ [.and, .or]) (after) :
      Fails (before ++ t :: after) (.unexpected before.length .operand)
  /-- An operand follows an expression. -/
  | operand {before t} (h : IsAccepted before) (ht : t.beginsOperand = true) (after) :
      Fails (before ++ t :: after) (.unexpected before.length .connective)
  /-- A parenthesis closes in place of an operand. -/
  | closedEarly {before} (h : AwaitsOperand before) (after) :
      Fails (before ++ .rightParen :: after) (.unbalanced before.length)
  /-- A parenthesis closes behind an expression that none has opened. -/
  | unopened {before} (h : IsAccepted before) (after) :
      Fails (before ++ .rightParen :: after) (.unbalanced before.length)
  /-- The expression behind a parenthesis reaches to the end. -/
  | unclosed {before group n e} (h : IsBeginning (before ++ .leftParen :: group))
      (hgroup : Derives .expr group n e) :
      Fails (before ++ .leftParen :: group) (.unbalanced before.length)
  /-- An operand follows the expression behind a parenthesis. -/
  | interrupted {before group n e t} (h : IsBeginning (before ++ .leftParen :: group))
      (hgroup : Derives .expr group n e) (ht : t.beginsOperand = true) (after) :
      Fails (before ++ .leftParen :: (group ++ t :: after)) (.unbalanced before.length)
  /-- The token would nest what follows it too deep. -/
  | tooDeep {before t} (h : AwaitsOperand before) (ht : t ∈ [.not, .leftParen])
      (hdeep : ¬ IsBeginning (before ++ [t])) (after) : Fails (before ++ t :: after) .tooDeep

section Beginnings

variable {ts read : List Token} {stack : List Frame} {e : Expr}

theorem IsAccepted.parseTokens_eq (h : IsAccepted ts) : ∃ e, parseTokens ts = .ok e := by
  obtain ⟨n, hn, e, hd⟩ := h
  exact ⟨e, by rw [hd.parseTokens_eq, if_pos hn]⟩

theorem IsBeginning.of_append {rest : List Token} (h : IsBeginning (ts ++ rest)) :
    IsBeginning ts := by
  obtain ⟨rest', h⟩ := h
  rw [List.append_assoc] at h
  exact ⟨_, h⟩

theorem isAccepted_of_ends (h : Level.expr.Ends read ([], e)) : IsAccepted read := by
  obtain ⟨before, ts, n, rfl, hopened, -, hd, hdepth⟩ := h
  cases hopened
  exact ⟨n, by simpa using hdepth, e, hd⟩

/-- A whole expression stands alone or behind a parenthesis that is open. -/
theorem eq_nil_or_paren_of_ends (h : Level.expr.Ends read (stack, e)) :
    stack = [] ∨ ∃ i below, stack = .paren i :: below := by
  obtain ⟨_, _, _, _, _, hopens, _⟩ := h
  match stack, hopens with
  | [], _ => exact .inl rfl
  | .paren i :: below, _ => exact .inr ⟨i, below, rfl⟩

theorem length_closeNots_le (stack : List Frame) (e : Expr) :
    (closeNots stack e).1.length ≤ stack.length := by
  induction stack generalizing e with
  | nil => exact Nat.le_refl _
  | cons frame stack ih =>
      cases frame with
      | paren | and | or => exact Nat.le_refl _
      | not => exact Nat.le_succ_of_le (ih _)

theorem length_closeAnd_le (stack : List Frame) (e : Expr) :
    (closeAnd stack e).1.length ≤ stack.length := by
  unfold closeAnd
  split
  · exact Nat.le_succ _
  · exact Nat.le_refl _

theorem length_closeOr_le (stack : List Frame) (e : Expr) :
    (closeOr stack e).1.length ≤ stack.length := by
  have hand := length_closeAnd_le stack e
  rcases hclose : closeAnd stack e with ⟨outer, whole⟩
  rw [hclose] at hand
  rw [closeOr, hclose]
  cases outer with
  | nil => exact hand
  | cons frame outer =>
      cases frame with
      | paren | not | and => exact hand
      | or => exact Nat.le_of_succ_le hand

/-- Behind an operand the expression can end when the open parentheses have been closed. -/
theorem isBeginning_of_ends {read : List Token} {stack : List Frame} {e : Expr}
    (h : Level.unary.Ends read (stack, e)) : IsBeginning read := by
  obtain ⟨hclosed, hnot⟩ := h.closeNots
  rcases hnots : closeNots stack e with ⟨inner, operand⟩
  have hinner : inner.length ≤ stack.length := by simpa [hnots] using length_closeNots_le stack e
  rw [hnots] at hclosed hnot
  have hexpr := hclosed.closeOr hnot
  rcases hor : closeOr inner operand with ⟨outer, whole⟩
  have houter : outer.length ≤ inner.length := by simpa [hor] using length_closeOr_le inner operand
  rw [hor] at hexpr
  rcases eq_nil_or_paren_of_ends hexpr with rfl | ⟨i, below, rfl⟩
  · exact ⟨[], by rw [List.append_nil]; exact isAccepted_of_ends hexpr⟩
  · have : below.length < stack.length := by
      rw [List.length_cons] at houter
      omega
    obtain ⟨rest, haccepted⟩ := isBeginning_of_ends hexpr.unary_of_paren
    exact ⟨.rightParen :: rest, by simpa using haccepted⟩
termination_by stack.length

theorem awaitsOperand_of_opened (h : Opened read stack) : AwaitsOperand read :=
  isBeginning_of_ends (ends_of_opened h .star)

theorem AwaitsOperand.isBeginning (h : AwaitsOperand ts) : IsBeginning ts :=
  IsBeginning.of_append h

end Beginnings

/-! ## The parser between two tokens -/

/-- The parser before an operand or after one. -/
inductive State where
  | operand (stack : List Frame)
  | connective (stack : List Frame) (e : Expr)

/-- What the parser answers from the state on. -/
def State.resume (i : Nat) : State → List Token → Except Fault Expr
  | operand stack, ts => parseOperand i stack ts
  | connective stack e, ts => parseConnective i (stack, e) ts

/-- The tokens that have been read lead to the state. -/
def State.Holds (read : List Token) : State → Prop
  | operand stack => Opened read stack
  | connective stack e => Level.unary.Ends read (stack, e) ∧ ∀ below, stack ≠ .not :: below

/-- The parser is in the state when it has read the tokens. -/
structure Reads (read : List Token) (s : State) : Prop where
  holds : s.Holds read
  resume : ∀ rest, parseTokens (read ++ rest) = s.resume read.length rest

/-- The tokens are refused, whatever follows them. -/
structure Stops (read : List Token) : Prop where
  refused : ∃ fault, ∀ rest, parseTokens (read ++ rest) = .error fault
  fails : ∀ rest, ∃ fault, Fails (read ++ rest) fault

section Reading

variable {read : List Token} {s : State} {t : Token}

theorem reads_nil : Reads [] (.operand []) :=
  ⟨.start, fun _ => rfl⟩

theorem Reads.next {s' : State} (h : Reads read s) (hholds : s'.Holds (read ++ [t]))
    (hstep : ∀ rest, s.resume read.length (t :: rest) = s'.resume (read.length + 1) rest) :
    Reads (read ++ [t]) s' := by
  refine ⟨hholds, fun rest => ?_⟩
  rw [List.append_assoc, List.singleton_append, h.resume, hstep, List.length_append,
    List.length_singleton]

theorem Reads.refused {fault : Fault} (h : Reads read s)
    (hstep : ∀ rest, s.resume read.length (t :: rest) = .error fault) :
    ∃ fault, ∀ rest, parseTokens (read ++ [t] ++ rest) = .error fault := by
  refine ⟨fault, fun rest => ?_⟩
  rw [List.append_assoc, List.singleton_append, h.resume, hstep]

theorem Reads.stop {fault fault' : Fault} (h : Reads read s)
    (hstep : ∀ rest, s.resume read.length (t :: rest) = .error fault)
    (hfails : ∀ after, Fails (read ++ t :: after) fault') : Stops (read ++ [t]) := by
  refine ⟨h.refused hstep, fun rest => ⟨fault', ?_⟩⟩
  rw [List.append_assoc]
  exact hfails rest

theorem Stops.append (h : Stops read) (rest : List Token) : Stops (read ++ rest) := by
  obtain ⟨⟨fault, hfault⟩, hfails⟩ := h
  refine ⟨⟨fault, fun rest' => ?_⟩, fun rest' => ?_⟩
  · rw [List.append_assoc, hfault]
  · rw [List.append_assoc]
    exact hfails _

theorem Stops.not_isBeginning (h : Stops read) : ¬ IsBeginning read := by
  rintro ⟨rest, haccepted⟩
  obtain ⟨fault, hfault⟩ := h.refused
  obtain ⟨e, he⟩ := haccepted.parseTokens_eq
  rw [hfault] at he
  cases he

/-- Before an operand, at a token that nests what follows it. -/
theorem Reads.step_nested {stack : List Frame} {frame : Frame} (h : Reads read (.operand stack))
    (ht : t ∈ [.not, .leftParen])
    (hopened : depth stack < maxDepth → Opened (read ++ [t]) (frame :: stack))
    (hstep : ∀ rest, parseOperand read.length stack (t :: rest) =
      if depth stack < maxDepth then parseOperand (read.length + 1) (frame :: stack) rest
      else .error .tooDeep) :
    (∃ s', Reads (read ++ [t]) s') ∨ Stops (read ++ [t]) := by
  by_cases hdepth : depth stack < maxDepth
  · refine .inl ⟨.operand (frame :: stack), h.next (hopened hdepth) fun rest => ?_⟩
    exact (hstep rest).trans (if_pos hdepth)
  · have hdeep : ∀ rest, State.resume read.length (.operand stack) (t :: rest) = .error .tooDeep :=
      fun rest => (hstep rest).trans (if_neg hdepth)
    have hnone : ¬ IsBeginning (read ++ [t]) := by
      rintro ⟨rest, haccepted⟩
      obtain ⟨e, he⟩ := haccepted.parseTokens_eq
      obtain ⟨fault, hfault⟩ := h.refused hdeep
      rw [hfault] at he
      cases he
    exact .inr (h.stop hdeep (.tooDeep (awaitsOperand_of_opened h.holds) ht hnone))

/-- Before an operand: the parser reads it, nests deeper, or refuses the token. -/
theorem Reads.step_operand {stack : List Frame} (h : Reads read (.operand stack)) (t : Token) :
    (∃ s', Reads (read ++ [t]) s') ∨ Stops (read ++ [t]) := by
  have hopened : Opened read stack := h.holds
  have hawaits := awaitsOperand_of_opened hopened
  cases t with
  | word name =>
      have hends := (ends_of_opened hopened (.word name)).closeNots
      exact .inl ⟨.connective _ _, h.next hends fun _ => rfl⟩
  | star =>
      have hends := (ends_of_opened hopened .star).closeNots
      exact .inl ⟨.connective _ _, h.next hends fun _ => rfl⟩
  | rightParen => exact .inr (h.stop (fun _ => rfl) (.closedEarly hawaits))
  | and | or => exact .inr (h.stop (fun _ => rfl) (.connective hawaits (by simp)))
  | not => exact h.step_nested (by simp) (.not hopened) fun _ => rfl
  | leftParen => exact h.step_nested (by simp) (.paren hopened · read.length) fun _ => rfl

/-- After an operand a whole expression ends, which stands alone or behind a parenthesis. -/
theorem State.Holds.closeOr_cases {stack : List Frame} {e : Expr}
    (h : (State.connective stack e).Holds read) :
    (∃ whole, closeOr stack e = ([], whole) ∧ IsAccepted read) ∨
      ∃ i below whole, closeOr stack e = (.paren i :: below, whole) ∧
        Level.expr.Ends read (.paren i :: below, whole) := by
  have hends := h.1.closeOr h.2
  rcases hclose : closeOr stack e with ⟨outer, whole⟩
  rw [hclose] at hends
  rcases eq_nil_or_paren_of_ends hends with rfl | ⟨i, below, rfl⟩
  · exact .inl ⟨whole, rfl, isAccepted_of_ends hends⟩
  · exact .inr ⟨i, below, whole, rfl, hends⟩

/-- An expression ends behind a parenthesis that is open, and an operand has been read there. -/
theorem exists_group {stack : List Frame} {e : Expr} {i : Nat}
    (hends : Level.expr.Ends read (.paren i :: stack, e)) :
    ∃ before group n, read = before ++ .leftParen :: group ∧ Derives .expr group n e := by
  obtain ⟨_, group, n, rfl, hopened, -, hd, -⟩ := hends
  cases hopened with
  | @paren before _ _ _ => exact ⟨before, group, n, by simp, hd⟩

/-- No operand can follow another: the parenthesis around them is blamed, if there is one. -/
theorem parseConnective_beginsOperand (ht : t.beginsOperand = true) (i : Nat)
    (state : List Frame × Expr) (rest : List Token) :
    parseConnective i state (t :: rest) =
      match closeOr state.1 state.2 with
      | (.paren opened :: _, _) => .error (.unbalanced opened)
      | _ => .error (.unexpected i .connective) := by
  cases t with
  | leftParen | star | not | word => rfl
  | rightParen | and | or => cases ht

/-- After an operand, at a token that begins another. -/
theorem Reads.step_beginsOperand {stack : List Frame} {e : Expr}
    (h : Reads read (.connective stack e)) (ht : t.beginsOperand = true) : Stops (read ++ [t]) := by
  rcases State.Holds.closeOr_cases h.holds with
    ⟨whole, hclose, haccepted⟩ | ⟨i, below, whole, hclose, hends⟩
  · have hstep : ∀ rest, State.resume read.length (.connective stack e) (t :: rest) =
        .error (.unexpected read.length .connective) := by
      intro rest
      rw [State.resume, parseConnective_beginsOperand ht, hclose]
    exact h.stop hstep (.operand haccepted ht)
  · have hstep : ∀ rest, State.resume read.length (.connective stack e) (t :: rest) =
        .error (.unbalanced i) := by
      intro rest
      rw [State.resume, parseConnective_beginsOperand ht, hclose]
    have hread : IsBeginning read := isBeginning_of_ends h.holds.1
    obtain ⟨before, group, n, rfl, hd⟩ := exists_group hends
    have hfails : ∀ after, Fails (before ++ .leftParen :: group ++ t :: after)
        (.unbalanced before.length) := by
      intro after
      simpa using Fails.interrupted hread hd ht after
    exact h.stop hstep hfails

/-- After an operand: the parser goes on behind a connective, closes a parenthesis, or refuses the
token. -/
theorem Reads.step_connective {stack : List Frame} {e : Expr}
    (h : Reads read (.connective stack e)) (t : Token) :
    (∃ s', Reads (read ++ [t]) s') ∨ Stops (read ++ [t]) := by
  obtain ⟨hends, hnot⟩ : (State.connective stack e).Holds read := h.holds
  cases t with
  | and => exact .inl ⟨.operand _, h.next (hends.closeAnd hnot).opened_and fun _ => rfl⟩
  | or => exact .inl ⟨.operand _, h.next (hends.closeOr hnot).opened_or fun _ => rfl⟩
  | leftParen | star | not | word => exact .inr (h.step_beginsOperand rfl)
  | rightParen =>
      rcases State.Holds.closeOr_cases h.holds with
        ⟨whole, hclose, haccepted⟩ | ⟨i, below, whole, hclose, hexpr⟩
      · have hstep : ∀ rest, State.resume read.length (.connective stack e) (.rightParen :: rest) =
            .error (.unbalanced read.length) := by
          intro rest
          simp only [State.resume, parseConnective, hclose]
        exact .inr (h.stop hstep (.unopened haccepted))
      · have hclosed := hexpr.unary_of_paren.closeNots
        refine .inl ⟨.connective _ _, h.next hclosed fun rest => ?_⟩
        simp only [State.resume, parseConnective, hclose]

/-- The parser has a state behind the tokens that it has read, or refuses them whatever follows. -/
theorem reads_or_stops (ts : List Token) : (∃ s, Reads ts s) ∨ Stops ts := by
  induction ts using List.reverseRecOn with
  | nil => exact .inl ⟨_, reads_nil⟩
  | append_singleton ts t ih =>
      rcases ih with ⟨s, h⟩ | h
      · cases s with
        | operand stack => exact h.step_operand t
        | connective stack e => exact h.step_connective t
      · exact .inr (h.append [t])

theorem IsBeginning.exists_reads (h : IsBeginning read) : ∃ s, Reads read s :=
  (reads_or_stops read).resolve_right fun hstops => hstops.not_isBeginning h

/-- Where an expression goes on with an operand, the parser waits for one. -/
theorem exists_reads_operand {rest : List Token} (h : IsBeginning (read ++ t :: rest))
    (ht : t.beginsOperand = true) : ∃ stack, Reads read (.operand stack) := by
  obtain ⟨s, hreads⟩ := (IsBeginning.of_append h).exists_reads
  cases s with
  | operand stack => exact ⟨stack, hreads⟩
  | connective stack e =>
      have hbegin : IsBeginning (read ++ [t] ++ rest) := by rwa [List.append_assoc]
      exact absurd hbegin.of_append (hreads.step_beginsOperand ht).not_isBeginning

theorem AwaitsOperand.exists_reads (h : AwaitsOperand read) :
    ∃ stack, Reads read (.operand stack) :=
  exists_reads_operand h rfl

end Reading

/-! ## Each fault and its tokens -/

section Fails

variable {ts : List Token} {fault : Fault}

/-- Tokens are an expression, or they fail. -/
theorem isAccepted_or_fails (ts : List Token) : IsAccepted ts ∨ ∃ fault, Fails ts fault := by
  rcases reads_or_stops ts with ⟨s, h⟩ | h
  · cases s with
    | operand stack => exact .inr ⟨_, .ended (awaitsOperand_of_opened h.holds)⟩
    | connective stack e =>
        have hts : IsBeginning ts := isBeginning_of_ends h.holds.1
        rcases State.Holds.closeOr_cases h.holds with
          ⟨-, -, haccepted⟩ | ⟨i, below, whole, -, hends⟩
        · exact .inl haccepted
        · obtain ⟨before, group, n, rfl, hd⟩ := exists_group hends
          exact .inr ⟨_, .unclosed hts hd⟩
  · obtain ⟨fault, hfails⟩ := h.fails []
    rw [List.append_nil] at hfails
    exact .inr ⟨fault, hfails⟩

/-- The state behind an expression that stands alone. -/
theorem IsAccepted.exists_state (h : IsAccepted ts) :
    ∃ state e, closeOr state.1 state.2 = ([], e) ∧
      ∀ rest, parseTokens (ts ++ rest) = parseConnective ts.length state rest := by
  obtain ⟨n, hn, e, hd⟩ := h
  obtain ⟨state, hleaves, hrun⟩ := hd.parseOperand_append [] trivial (Nat.zero_le _)
  refine ⟨state, e, hleaves, fun rest => ?_⟩
  rw [parseTokens, hrun, depth_nil, if_pos (by omega), Nat.zero_add]

/-- The state behind the expression in a parenthesis. -/
theorem exists_state_of_group {before group : List Token} {n : Nat} {e : Expr}
    (h : IsBeginning (before ++ .leftParen :: group)) (hgroup : Derives .expr group n e) :
    ∃ state stack, closeOr state.1 state.2 = (.paren before.length :: stack, e) ∧
      ∀ after, parseTokens (before ++ .leftParen :: (group ++ after)) =
        parseConnective (before.length + 1 + group.length) state after := by
  obtain ⟨stack, hreads⟩ := exists_reads_operand h rfl
  obtain ⟨rest, haccepted⟩ := h
  obtain ⟨tree, htree⟩ := haccepted.parseTokens_eq
  have hopen : ∀ after, parseTokens (before ++ .leftParen :: after) =
      if depth stack < maxDepth then
        parseOperand (before.length + 1) (.paren before.length :: stack) after
      else .error .tooDeep := by
    intro after
    rw [hreads.resume]
    rfl
  rw [List.append_assoc, List.cons_append, hopen] at htree
  -- An expression goes on behind the group, so neither the parenthesis nor the group is too deep.
  split at htree
  · next hdepth =>
    obtain ⟨state, hleaves, hrun⟩ := hgroup.parseOperand_append (.paren before.length :: stack)
      trivial (by rw [depth_paren]; exact hdepth)
    rw [hrun] at htree
    split at htree
    · next hfits =>
      refine ⟨state, stack, hleaves, fun after => ?_⟩
      rw [hopen, if_pos hdepth, hrun, if_pos hfits]
    · cases htree
  · cases htree

/-- The parser refuses tokens that fail, for this reason. -/
theorem Fails.parseTokens_eq (h : Fails ts fault) : parseTokens ts = .error fault := by
  cases h with
  | ended h =>
      obtain ⟨stack, hreads⟩ := h.exists_reads
      have hend := hreads.resume []
      rwa [List.append_nil] at hend
  | @connective before t h ht after =>
      obtain ⟨stack, hreads⟩ := h.exists_reads
      rw [hreads.resume]
      simp only [List.mem_cons, List.not_mem_nil, or_false] at ht
      rcases ht with rfl | rfl <;> rfl
  | @operand before t h ht after =>
      obtain ⟨state, e, hclose, hrun⟩ := h.exists_state
      rw [hrun, parseConnective_beginsOperand ht, hclose]
  | closedEarly h after =>
      obtain ⟨stack, hreads⟩ := h.exists_reads
      rw [hreads.resume]
      rfl
  | unopened h after =>
      obtain ⟨state, e, hclose, hrun⟩ := h.exists_state
      rw [hrun, parseConnective, hclose]
  | @unclosed before group n e h hgroup =>
      obtain ⟨state, stack, hclose, hrun⟩ := exists_state_of_group h hgroup
      have hend := hrun []
      rw [List.append_nil, parseConnective, hclose] at hend
      exact hend
  | @interrupted before group n e t h hgroup ht after =>
      obtain ⟨state, stack, hclose, hrun⟩ := exists_state_of_group h hgroup
      rw [hrun, parseConnective_beginsOperand ht, hclose]
  | @tooDeep before t h ht hdeep after =>
      obtain ⟨stack, hreads⟩ := h.exists_reads
      have hopened : Opened before stack := hreads.holds
      have hlimit : ¬ depth stack < maxDepth := by
        intro hdepth
        apply hdeep
        simp only [List.mem_cons, List.not_mem_nil, or_false] at ht
        rcases ht with rfl | rfl
        · exact (awaitsOperand_of_opened (.not hopened hdepth)).isBeginning
        · exact (awaitsOperand_of_opened (.paren hopened hdepth 0)).isBeginning
      rw [hreads.resume]
      simp only [List.mem_cons, List.not_mem_nil, or_false] at ht
      rcases ht with rfl | rfl <;> exact if_neg hlimit

/-- The parser refuses just the tokens that fail, each for its reason. -/
theorem parseTokens_eq_error_iff : parseTokens ts = .error fault ↔ Fails ts fault := by
  refine ⟨fun h => ?_, Fails.parseTokens_eq⟩
  rcases isAccepted_or_fails ts with haccepted | ⟨fault', hfails⟩
  · obtain ⟨e, he⟩ := haccepted.parseTokens_eq
    rw [h] at he
    cases he
  · have hsame := hfails.parseTokens_eq
    rw [h] at hsame
    cases hsame
    exact hfails

end Fails

end CiPlan.Selector
