import CiPlan.Selector.Parser

/-!
# The parser against its grammar

`Derives` is the grammar of selector expressions as a relation between the tokens of a phrase and its
tree, with the greatest number of parentheses and `not`s that stand around one of its tokens.

The parser keeps a stack instead of calling itself, so the two directions are proved about its states.
Read forwards, a phrase that begins on top of some stack leaves a state from which the same stack and
the tree of the phrase come out again (`Derives.parseOperand_append`).  Read backwards, what has been
read when a stack is reached is one left part of a phrase for each frame (`Opened`), and closing the
frames puts these parts together.

Main results: `Derives.parseTokens_eq`, a derivation decides what the parser answers, and
`exists_derives_of_parseTokens`, it accepts nothing else.
-/

namespace CiPlan.Selector

/-- The phrases of the grammar, loosest first: a whole expression, the operands of `or`, the operands
of `and` and `not`. -/
inductive Level where
  | expr
  | conjunction
  | unary

/-- The tokens are a phrase of the level with tree `e`, and `nesting` is the greatest number of
parentheses and `not`s around one of them. -/
inductive Derives : Level → (tokens : List Token) → (nesting : Nat) → (e : Expr) → Prop
  | word (name : String) : Derives .unary [.word name] 0 (.term name)
  | star : Derives .unary [.star] 0 .all
  | paren {ts n e} (h : Derives .expr ts n e) :
      Derives .unary (.leftParen :: (ts ++ [.rightParen])) (n + 1) e
  | not {ts n e} (h : Derives .unary ts n e) : Derives .unary (.not :: ts) (n + 1) (.not e)
  | ofUnary {ts n e} (h : Derives .unary ts n e) : Derives .conjunction ts n e
  | and {ls m l rs n r} (hl : Derives .conjunction ls m l) (hr : Derives .unary rs n r) :
      Derives .conjunction (ls ++ .and :: rs) (max m n) (.and l r)
  | ofConjunction {ts n e} (h : Derives .conjunction ts n e) : Derives .expr ts n e
  | or {ls m l rs n r} (hl : Derives .expr ls m l) (hr : Derives .conjunction rs n r) :
      Derives .expr (ls ++ .or :: rs) (max m n) (.or l r)

/-- A phrase of the level can begin on top of the stack: what the top frame waits for is no tighter
than the level. -/
def Level.Opens : Level → List Frame → Prop
  | .unary, _ => True
  | .conjunction, .not :: _ | .conjunction, .and _ :: _ => False
  | .conjunction, _ => True
  | .expr, .not :: _ | .expr, .and _ :: _ | .expr, .or _ :: _ => False
  | .expr, _ => True

/-- The state after a phrase of the level with tree `e` that began on top of the stack. -/
def Level.Leaves : Level → List Frame → Expr → List Frame × Expr → Prop
  | .unary, stack, e, state => state = closeNots stack e
  | .conjunction, stack, e, state => closeAnd state.1 state.2 = (stack, e)
  | .expr, stack, e, state => closeOr state.1 state.2 = (stack, e)

section Stacks

variable {stack : List Frame} {e : Expr}

@[simp]
theorem depth_nil : depth [] = 0 := rfl

@[simp]
theorem depth_paren (i : Nat) : depth (.paren i :: stack) = depth stack + 1 :=
  List.countP_cons_of_pos rfl

@[simp]
theorem depth_not : depth (.not :: stack) = depth stack + 1 :=
  List.countP_cons_of_pos rfl

@[simp]
theorem depth_and (l : Expr) : depth (.and l :: stack) = depth stack :=
  List.countP_cons_of_neg Bool.false_ne_true

@[simp]
theorem depth_or (l : Expr) : depth (.or l :: stack) = depth stack :=
  List.countP_cons_of_neg Bool.false_ne_true

theorem closeNots_of_opens (h : Level.conjunction.Opens stack) : closeNots stack e = (stack, e) := by
  match stack, h with
  | [], _ | .paren _ :: _, _ | .or _ :: _, _ => rfl

theorem closeAnd_of_opens (h : Level.conjunction.Opens stack) : closeAnd stack e = (stack, e) := by
  match stack, h with
  | [], _ | .paren _ :: _, _ | .or _ :: _, _ => rfl

theorem Level.Opens.conjunction (h : Level.expr.Opens stack) : Level.conjunction.Opens stack := by
  match stack, h with
  | [], _ | .paren _ :: _, _ => trivial

/-- Without an `or` that waits, closing up to `or` is closing up to `and`. -/
theorem closeOr_of_closeAnd {state : List Frame × Expr} (hopens : Level.expr.Opens stack)
    (h : closeAnd state.1 state.2 = (stack, e)) : closeOr state.1 state.2 = (stack, e) := by
  match stack, hopens with
  | [], _ | .paren _ :: _, _ => rw [closeOr, h]

end Stacks

section Completeness

private theorem ite_ite_max {α : Type} {d m n k : Nat} {x y : α} :
    (if d + m ≤ k then if d + n ≤ k then x else y else y) =
      if d + max m n ≤ k then x else y := by
  by_cases h : d + max m n ≤ k
  · rw [if_pos h, if_pos (by omega), if_pos (by omega)]
  · rw [if_neg h]
    by_cases hm : d + m ≤ k
    · rw [if_pos hm, if_neg (by omega)]
    · rw [if_neg hm]

/-- The parser reads a phrase as one step, unless it stands too deep. -/
theorem Derives.parseOperand_append {level : Level} {ts : List Token} {n : Nat} {e : Expr}
    (h : Derives level ts n e) (stack : List Frame) (hopens : level.Opens stack)
    (hdepth : depth stack ≤ maxDepth) :
    ∃ state, level.Leaves stack e state ∧ ∀ i rest,
      parseOperand i stack (ts ++ rest) =
        if depth stack + n ≤ maxDepth then parseConnective (i + ts.length) state rest
        else .error .tooDeep := by
  -- The stack is general, since the parts of a phrase begin on larger ones.
  induction h generalizing stack with
  | word name =>
      refine ⟨_, rfl, fun i rest => ?_⟩
      rw [if_pos (by omega)]
      rfl
  | star =>
      refine ⟨_, rfl, fun i rest => ?_⟩
      rw [if_pos (by omega)]
      rfl
  | @paren ts n e h ih =>
      refine ⟨_, rfl, fun i rest => ?_⟩
      rw [List.cons_append, parseOperand, List.append_assoc]
      by_cases hlt : depth stack < maxDepth
      · obtain ⟨state, hleaves, hrun⟩ :=
          ih (.paren i :: stack) trivial (by rw [depth_paren]; exact hlt)
        have hclose : closeOr state.1 state.2 = (.paren i :: stack, e) := hleaves
        rw [if_pos hlt, hrun, depth_paren]
        by_cases hfits : depth stack + (n + 1) ≤ maxDepth
        · rw [if_pos hfits, if_pos (by omega), List.singleton_append, parseConnective, hclose]
          simp only [List.length_cons, List.length_append, List.length_nil]
          congr 1
          omega
        · rw [if_neg hfits, if_neg (by omega)]
      · rw [if_neg hlt, if_neg (by omega)]
  | @not ts n e h ih =>
      refine ⟨_, rfl, fun i rest => ?_⟩
      rw [List.cons_append, parseOperand]
      by_cases hlt : depth stack < maxDepth
      · obtain ⟨state, hleaves, hrun⟩ :=
          ih (.not :: stack) trivial (by rw [depth_not]; exact hlt)
        have hstate : state = closeNots stack (.not e) := hleaves
        rw [if_pos hlt, hrun, depth_not, hstate, List.length_cons, Nat.add_assoc, Nat.add_assoc,
          Nat.add_comm 1 n, Nat.add_comm 1 ts.length]
      · rw [if_neg hlt, if_neg (by omega)]
  | ofUnary h ih =>
      obtain ⟨state, hleaves, hrun⟩ := ih stack trivial hdepth
      have hstate : state = (stack, _) := Eq.trans hleaves (closeNots_of_opens hopens)
      refine ⟨state, ?_, hrun⟩
      rw [hstate]
      exact closeAnd_of_opens hopens
  | @and ls m l rs n r hl hr ihl ihr =>
      obtain ⟨stateL, hclose, hrunL⟩ := ihl stack hopens hdepth
      obtain ⟨stateR, hleaves, hrunR⟩ := ihr (.and l :: stack) trivial (by simpa using hdepth)
      have hclose : closeAnd stateL.1 stateL.2 = (stack, l) := hclose
      have hstate : stateR = (.and l :: stack, r) := hleaves
      refine ⟨stateR, by rw [hstate]; rfl, fun i rest => ?_⟩
      have hlen : i + ls.length + 1 + rs.length = i + (ls ++ .and :: rs).length := by
        rw [List.length_append, List.length_cons]
        omega
      rw [List.append_assoc, hrunL, List.cons_append, parseConnective, hclose]
      simp only [hrunR, depth_and, hlen, ite_ite_max]
  | ofConjunction h ih =>
      obtain ⟨state, hclose, hrun⟩ := ih stack hopens.conjunction hdepth
      exact ⟨state, closeOr_of_closeAnd hopens hclose, hrun⟩
  | @or ls m l rs n r hl hr ihl ihr =>
      obtain ⟨stateL, hclose, hrunL⟩ := ihl stack hopens hdepth
      obtain ⟨stateR, hleaves, hrunR⟩ := ihr (.or l :: stack) trivial (by simpa using hdepth)
      have hclose : closeOr stateL.1 stateL.2 = (stack, l) := hclose
      have hstate : closeAnd stateR.1 stateR.2 = (.or l :: stack, r) := hleaves
      refine ⟨stateR, by simp only [Level.Leaves, closeOr, hstate], fun i rest => ?_⟩
      have hlen : i + ls.length + 1 + rs.length = i + (ls ++ .or :: rs).length := by
        rw [List.length_append, List.length_cons]
        omega
      rw [List.append_assoc, hrunL, List.cons_append, parseConnective, hclose]
      simp only [hrunR, depth_or, hlen, ite_ite_max]

/-- A derivation decides the answer of the parser. -/
theorem Derives.parseTokens_eq {ts : List Token} {n : Nat} {e : Expr} (h : Derives .expr ts n e) :
    parseTokens ts = if n ≤ maxDepth then .ok e else .error .tooDeep := by
  obtain ⟨state, hleaves, hrun⟩ := h.parseOperand_append [] trivial (Nat.zero_le _)
  have hclose : closeOr state.1 state.2 = ([], e) := hleaves
  have hwhole := hrun 0 []
  rw [List.append_nil, depth_nil, Nat.zero_add, parseConnective, hclose] at hwhole
  exact hwhole

end Completeness

section Soundness

/-- Reading the tokens can lead to a state before an operand with these frames.  Each frame is a
connective, a `not` or a parenthesis that has been read, and holds the phrase on its left. -/
inductive Opened : (read : List Token) → List Frame → Prop
  | start : Opened [] []
  | paren {ts stack} (h : Opened ts stack) (hdepth : depth stack < maxDepth) (i : Nat) :
      Opened (ts ++ [.leftParen]) (.paren i :: stack)
  | not {ts stack} (h : Opened ts stack) (hdepth : depth stack < maxDepth) :
      Opened (ts ++ [.not]) (.not :: stack)
  | and {ts stack ls n l} (h : Opened ts stack) (hopens : Level.conjunction.Opens stack)
      (hleft : Derives .conjunction ls n l) (hdepth : depth stack + n ≤ maxDepth) :
      Opened (ts ++ ls ++ [.and]) (.and l :: stack)
  | or {ts stack ls n l} (h : Opened ts stack) (hopens : Level.expr.Opens stack)
      (hleft : Derives .expr ls n l) (hdepth : depth stack + n ≤ maxDepth) :
      Opened (ts ++ ls ++ [.or]) (.or l :: stack)

theorem Opened.depth_le {read : List Token} {stack : List Frame} (h : Opened read stack) :
    depth stack ≤ maxDepth := by
  induction h with
  | start => exact Nat.zero_le _
  | paren h hdepth i ih => rwa [depth_paren]
  | not h hdepth ih => rwa [depth_not]
  | and h hopens hleft hdepth ih => rwa [depth_and]
  | or h hopens hleft hdepth ih => rwa [depth_or]

/-- The tokens end in a phrase of the level with tree `state.2`, and the stack `state.1` has been
reached before it. -/
def Level.Ends (level : Level) (read : List Token) (state : List Frame × Expr) : Prop :=
  ∃ before ts n, read = before ++ ts ∧ Opened before state.1 ∧ level.Opens state.1 ∧
    Derives level ts n state.2 ∧ depth state.1 + n ≤ maxDepth

variable {read : List Token} {stack : List Frame} {e : Expr}

theorem ends_of_opened (h : Opened read stack) {ts : List Token} (hd : Derives .unary ts 0 e) :
    Level.unary.Ends (read ++ ts) (stack, e) :=
  ⟨read, ts, 0, rfl, h, trivial, hd, h.depth_le⟩

theorem Level.Ends.conjunction (h : Level.unary.Ends read (stack, e))
    (hopens : Level.conjunction.Opens stack) : Level.conjunction.Ends read (stack, e) := by
  obtain ⟨before, ts, n, hread, hopened, -, hd, hdepth⟩ := h
  exact ⟨before, ts, n, hread, hopened, hopens, .ofUnary hd, hdepth⟩

theorem Level.Ends.expr (h : Level.conjunction.Ends read (stack, e))
    (hopens : Level.expr.Opens stack) : Level.expr.Ends read (stack, e) := by
  obtain ⟨before, ts, n, hread, hopened, -, hd, hdepth⟩ := h
  exact ⟨before, ts, n, hread, hopened, hopens, .ofConjunction hd, hdepth⟩

/-! ### Closing frames -/

theorem Level.Ends.closeNots (h : Level.unary.Ends read (stack, e)) :
    Level.unary.Ends read (closeNots stack e) ∧
      ∀ below, (Selector.closeNots stack e).1 ≠ .not :: below := by
  induction stack generalizing e with
  | nil => exact ⟨h, nofun⟩
  | cons frame stack ih =>
      cases frame with
      | paren | and | or => exact ⟨h, nofun⟩
      | not =>
          obtain ⟨before, ts, n, hread, hopened, -, hd, hdepth⟩ := h
          cases hopened with
          | @not front _ hbelow hlt =>
              refine ih ⟨front, .not :: ts, n + 1, ?_, hbelow, trivial, .not hd, ?_⟩
              · simpa using hread
              · simp only [depth_not] at hdepth ⊢
                omega

theorem Level.Ends.closeAnd (h : Level.unary.Ends read (stack, e))
    (hnot : ∀ below, stack ≠ .not :: below) : Level.conjunction.Ends read (closeAnd stack e) := by
  cases stack with
  | nil => exact h.conjunction trivial
  | cons frame stack =>
      cases frame with
      | paren | or => exact h.conjunction trivial
      | not => exact absurd rfl (hnot stack)
      | and l =>
          obtain ⟨before, ts, n, hread, hopened, -, hd, hdepth⟩ := h
          cases hopened with
          | @and front _ ls m _ hbelow hopens hleft hfits =>
              refine ⟨front, ls ++ .and :: ts, max m n, ?_, hbelow, hopens, .and hleft hd, ?_⟩
              · simpa using hread
              · simp only [depth_and, Selector.closeAnd] at hdepth ⊢
                omega

theorem Level.Ends.closeOr (h : Level.unary.Ends read (stack, e))
    (hnot : ∀ below, stack ≠ .not :: below) : Level.expr.Ends read (closeOr stack e) := by
  have hends := h.closeAnd hnot
  rw [Selector.closeOr]
  rcases hclose : Selector.closeAnd stack e with ⟨outer, tree⟩
  rw [hclose] at hends
  cases outer with
  | nil => exact hends.expr trivial
  | cons frame outer =>
      obtain ⟨before, ts, n, hread, hopened, hopens, hd, hdepth⟩ := hends
      cases frame with
      | paren => exact ⟨before, ts, n, hread, hopened, trivial, .ofConjunction hd, hdepth⟩
      | not | and => exact hopens.elim
      | or l =>
          cases hopened with
          | @or front _ ls m _ hbelow hwide hleft hfits =>
              refine ⟨front, ls ++ .or :: ts, max m n, ?_, hbelow, hwide, .or hleft hd, ?_⟩
              · simpa using hread
              · simp only [depth_or] at hdepth ⊢
                omega

/-! ### Reading a connective or a closing parenthesis -/

theorem Level.Ends.opened_and (h : Level.conjunction.Ends read (stack, e)) :
    Opened (read ++ [.and]) (.and e :: stack) := by
  obtain ⟨before, ts, n, hread, hopened, hopens, hd, hdepth⟩ := h
  rw [hread]
  exact .and hopened hopens hd hdepth

theorem Level.Ends.opened_or (h : Level.expr.Ends read (stack, e)) :
    Opened (read ++ [.or]) (.or e :: stack) := by
  obtain ⟨before, ts, n, hread, hopened, hopens, hd, hdepth⟩ := h
  rw [hread]
  exact .or hopened hopens hd hdepth

/-- A closing parenthesis turns the expression in it into an operand. -/
theorem Level.Ends.unary_of_paren {i : Nat} (h : Level.expr.Ends read (.paren i :: stack, e)) :
    Level.unary.Ends (read ++ [.rightParen]) (stack, e) := by
  obtain ⟨before, ts, n, hread, hopened, -, hd, hdepth⟩ := h
  cases hopened with
  | @paren front _ hbelow hlt =>
      refine ⟨front, .leftParen :: (ts ++ [.rightParen]), n + 1, ?_, hbelow, trivial, .paren hd, ?_⟩
      · rw [hread]
        simp
      · simp only [depth_paren] at hdepth ⊢
        omega

/-- What the parser accepts from a state that the tokens read so far lead to is an expression of the
grammar, both before an operand and after one. -/
theorem exists_derives_of_states {tree : Expr} (rest : List Token) :
    (∀ i read stack, Opened read stack → parseOperand i stack rest = .ok tree →
      ∃ n ≤ maxDepth, Derives .expr (read ++ rest) n tree) ∧
    (∀ i read stack e, Level.unary.Ends read (stack, e) → (∀ below, stack ≠ .not :: below) →
      parseConnective i (stack, e) rest = .ok tree →
      ∃ n ≤ maxDepth, Derives .expr (read ++ rest) n tree) := by
  induction rest with
  | nil =>
      refine ⟨fun i read stack _ h => (nomatch h), fun i read stack e hends hnot h => ?_⟩
      obtain ⟨before, ts, n, hread, hopened, hopens, hd, hdepth⟩ := hends.closeOr hnot
      rw [parseConnective] at h
      rcases hclose : closeOr stack e with ⟨outer, whole⟩
      rw [hclose] at hopened hopens hd hdepth
      simp only [hclose] at h
      cases hopened with
      | start =>
          cases h
          refine ⟨n, by simpa using hdepth, ?_⟩
          rw [hread, List.append_nil]
          exact hd
      | paren => cases h
      | not | and | or => exact hopens.elim
  | cons token rest ih =>
      obtain ⟨ihOperand, ihConnective⟩ := ih
      have happend : ∀ read, read ++ token :: rest = read ++ [token] ++ rest := fun read => by simp
      -- An operand is read: the tree is closed up to the frames that wait for a connective.
      have hstep : ∀ i read stack e, Level.unary.Ends (read ++ [token]) (stack, e) →
          parseConnective (i + 1) (closeNots stack e) rest = .ok tree →
          ∃ n ≤ maxDepth, Derives .expr (read ++ token :: rest) n tree := by
        intro i read stack e hends h
        obtain ⟨hclosed, hnot⟩ := hends.closeNots
        rw [happend]
        exact ihConnective _ _ _ _ hclosed hnot h
      refine ⟨fun i read stack hopened h => ?_, fun i read stack e hends hnot h => ?_⟩
      · cases token with
        | word name => exact hstep i read stack _ (ends_of_opened hopened (.word name)) h
        | star => exact hstep i read stack _ (ends_of_opened hopened .star) h
        | not =>
            rw [parseOperand] at h
            split at h
            · next hlt =>
              rw [happend]
              exact ihOperand _ _ _ (.not hopened hlt) h
            · cases h
        | leftParen =>
            rw [parseOperand] at h
            split at h
            · next hlt =>
              rw [happend]
              exact ihOperand _ _ _ (.paren hopened hlt i) h
            · cases h
        | rightParen | and | or => cases h
      · cases token with
        | and =>
            rw [happend]
            exact ihOperand _ _ _ (hends.closeAnd hnot).opened_and h
        | or =>
            rw [happend]
            exact ihOperand _ _ _ (hends.closeOr hnot).opened_or h
        | rightParen =>
            have hclosed := hends.closeOr hnot
            rw [parseConnective] at h
            rcases hclose : closeOr stack e with ⟨outer, whole⟩
            rw [hclose] at hclosed
            simp only [hclose] at h
            split at h
            · next opened outer whole heq =>
              cases heq
              exact hstep i read outer whole hclosed.unary_of_paren h
            · cases h
        | leftParen | star | not | word =>
            rw [parseConnective] at h
            split at h <;> cases h

/-- The parser accepts only what the grammar derives without standing too deep. -/
theorem exists_derives_of_parseTokens {ts : List Token} {e : Expr} (h : parseTokens ts = .ok e) :
    ∃ n ≤ maxDepth, Derives .expr ts n e :=
  (exists_derives_of_states ts).1 0 [] [] .start h

end Soundness

end CiPlan.Selector
