import CiPlan.Proofs.Grammar
import CiPlan.Proofs.Spelling
import CiPlan.Selector

/-!
# The canonical text of an expression

`Expr.canonical` puts an operand in parentheses only where it binds more loosely than its place
allows.  So the text is a phrase of the grammar whose tree is the expression again
(`exists_spells_canonical`), and in no other phrase with this tree are the tokens under fewer
parentheses and `not`s (`Derives.enclose_nesting_le`).  An accepted text is such a phrase, hence its
canonical text is never nested too deep.

Main result: `parse_canonical`.
-/

namespace CiPlan

open Selector

namespace Expr

section Terms

theorem contains_collect (e : Expr) (s : NameSet) (name : String) :
    (e.collect s).contains name = (s.contains name || e.terms.contains name) := by
  induction e generalizing s with
  | all => exact (Bool.or_false _).symm
  | term x =>
      rw [terms, collect, collect, NameSet.contains_insert, NameSet.contains_insert, Bool.or_comm]
      exact congrArg (s.contains name || ·) (Bool.or_false _).symm
  | not e ih => exact ih s
  | and l r ihl ihr | or l r ihl ihr =>
      rw [terms, collect, collect, ihr (l.collect s), ihl s, Bool.or_assoc]
      exact congrArg (s.contains name || ·) (ihr l.terms).symm

@[simp]
theorem contains_terms_and (l r : Expr) (name : String) :
    (and l r).terms.contains name = (l.terms.contains name || r.terms.contains name) :=
  contains_collect r l.terms name

@[simp]
theorem contains_terms_or (l r : Expr) (name : String) :
    (or l r).terms.contains name = (l.terms.contains name || r.terms.contains name) :=
  contains_collect r l.terms name

/-- Every term of the expression can be written as a word. -/
def IsSpellable (e : Expr) : Prop :=
  ∀ name, e.terms.contains name = true → IsTerm name

instance (e : Expr) : Decidable e.IsSpellable :=
  decidable_of_iff (∀ name ∈ e.terms.names, IsTerm name) (by simp [IsSpellable, NameSet.contains])

theorem IsSpellable.term {name : String} (h : (Expr.term name).IsSpellable) : IsTerm name :=
  h name (by simp [terms, collect])

theorem IsSpellable.not {e : Expr} (h : (Expr.not e).IsSpellable) : e.IsSpellable :=
  h

theorem IsSpellable.and {l r : Expr} (h : (Expr.and l r).IsSpellable) :
    l.IsSpellable ∧ r.IsSpellable :=
  ⟨fun name hl => h name (by simp [hl]), fun name hr => h name (by simp [hr])⟩

theorem IsSpellable.or {l r : Expr} (h : (Expr.or l r).IsSpellable) :
    l.IsSpellable ∧ r.IsSpellable :=
  ⟨fun name hl => h name (by simp [hl]), fun name hr => h name (by simp [hr])⟩

end Terms

section Nesting

/-- A pair of parentheses adds a level. -/
def enclose (wrap : Bool) (nesting : Nat) : Nat :=
  if wrap then nesting + 1 else nesting

/-- The greatest number of parentheses and `not`s around a term or `*` in the canonical text.  The
parentheses are those that `Expr.canonical` writes. -/
def nesting : Expr → Nat
  | all | term _ => 0
  | not e => enclose (e.precedence < 3) e.nesting + 1
  | and l r =>
    max (enclose (l.precedence < 2) l.nesting) (enclose (r.precedence ≤ 2) r.nesting)
  | or l r =>
    max (enclose (l.precedence < 1) l.nesting) (enclose (r.precedence ≤ 1) r.nesting)

theorem precedence_pos (e : Expr) : 0 < e.precedence := by
  cases e <;> exact Nat.succ_pos _

/-- A whole expression needs no parentheses. -/
theorem enclose_precedence (e : Expr) (n : Nat) : enclose (e.precedence < 1) n = n :=
  if_neg (by simpa using Nat.not_lt.mpr e.precedence_pos)

theorem enclose_le (wrap : Bool) (n : Nat) : enclose wrap n ≤ n + 1 := by
  cases wrap with
  | false => exact Nat.le_succ n
  | true => exact Nat.le_refl _

/-- What needs no parentheses at a place needs none where less is asked. -/
theorem enclose_mono (e : Expr) {k k' : Nat} (h : k ≤ k') (n : Nat) :
    enclose (e.precedence < k) n ≤ enclose (e.precedence < k') n := by
  by_cases hk : e.precedence < k
  · have hk' : e.precedence < k' := Nat.lt_of_lt_of_le hk h
    simp [hk, hk']
  · have hbare : enclose (e.precedence < k) n = n := if_neg (by simpa using hk)
    rw [hbare]
    unfold enclose
    split <;> omega

/-- An operand on the right stands where one level more is asked than on the left. -/
theorem decide_precedence_le (e : Expr) (k : Nat) :
    decide (e.precedence ≤ k) = decide (e.precedence < k + 1) :=
  decide_eq_decide.mpr Nat.lt_succ_iff.symm

end Nesting

end Expr

namespace Selector

open CiPlan.Expr (enclose parenthesize)

/-- How tightly an expression binds at least that stands at the level without parentheses. -/
def Level.rank : Level → Nat
  | .expr => 1
  | .conjunction => 2
  | .unary => 3

theorem Level.rank_le (level : Level) : level.rank ≤ Level.unary.rank := by
  cases level <;> decide

/-- A phrase of a tight level is one of each looser level. -/
theorem Derives.loosen {level level' : Level} {ts : List Token} {n : Nat} {e : Expr}
    (h : Derives level ts n e) (hle : level'.rank ≤ level.rank) : Derives level' ts n e := by
  cases level with
  | unary =>
      cases level' with
      | unary => exact h
      | conjunction => exact .ofUnary h
      | expr => exact .ofConjunction (.ofUnary h)
  | conjunction =>
      cases level' with
      | unary => exact absurd hle (by decide)
      | conjunction => exact h
      | expr => exact .ofConjunction h
  | expr =>
      cases level' with
      | unary | conjunction => exact absurd hle (by decide)
      | expr => exact h

theorem Derives.ne_nil {level : Level} {ts : List Token} {n : Nat} {e : Expr}
    (h : Derives level ts n e) : ts ≠ [] := by
  induction h with
  | word | star | paren | not => nofun
  | ofUnary h ih | ofConjunction h ih => exact ih
  | and | or => simp

/-- No phrase of a level with the tree `e` is nested less than the canonical text of `e`, with the
parentheses that it needs at the level. -/
theorem Derives.enclose_nesting_le {level : Level} {ts : List Token} {n : Nat} {e : Expr}
    (h : Derives level ts n e) : enclose (e.precedence < level.rank) e.nesting ≤ n := by
  induction h with
  | word | star => exact Nat.le_refl 0
  -- The pair that is written here makes up for the one that the canonical text may need.
  | @paren ts n e h ih =>
      have hinner : enclose (e.precedence < 1) e.nesting ≤ n := ih
      rw [e.enclose_precedence] at hinner
      exact Nat.le_trans (Expr.enclose_le _ _) (Nat.succ_le_succ hinner)
  | not h ih => exact Nat.succ_le_succ ih
  | @ofUnary ts n e h ih => exact Nat.le_trans (e.enclose_mono (by decide) _) ih
  | @and ls m l rs n r hl hr ihl ihr =>
      have hleft : enclose (l.precedence < 2) l.nesting ≤ m := ihl
      have hright : enclose (r.precedence ≤ 2) r.nesting ≤ n := by
        rw [r.decide_precedence_le]
        exact ihr
      show max _ _ ≤ max m n
      omega
  | @ofConjunction ts n e h ih => exact Nat.le_trans (e.enclose_mono (by decide) _) ih
  | @or ls m l rs n r hl hr ihl ihr =>
      have hleft : enclose (l.precedence < 1) l.nesting ≤ m := ihl
      have hright : enclose (r.precedence ≤ 1) r.nesting ≤ n := by
        rw [r.decide_precedence_le]
        exact ihr
      show max _ _ ≤ max m n
      omega

/-- The terms of a tree are words of each of its phrases. -/
theorem Derives.mem_of_contains_terms {level : Level} {ts : List Token} {n : Nat} {e : Expr}
    (h : Derives level ts n e) {name : String} (hname : e.terms.contains name = true) :
    .word name ∈ ts := by
  induction h with
  | word x =>
      have : name = x := by simpa [Expr.terms, Expr.collect] using hname
      rw [this]
      exact List.mem_singleton_self _
  | star => simp [Expr.terms, Expr.collect] at hname
  | paren h ih => simp [ih hname]
  | not h ih => exact List.mem_cons_of_mem _ (ih hname)
  | ofUnary h ih | ofConjunction h ih => exact ih hname
  | and hl hr ihl ihr | or hl hr ihl ihr =>
      simp only [Expr.contains_terms_and, Expr.contains_terms_or, Bool.or_eq_true] at hname
      rcases hname with hname | hname
      · exact List.mem_append_left _ (ihl hname)
      · exact List.mem_append_right _ (List.mem_cons_of_mem _ (ihr hname))

/-- Written at a place of the level, the text of an operand is a phrase of that level. -/
theorem exists_spells_parenthesize {e : Expr}
    (h : ∃ ts, Spells e.canonical ts ∧
      ∀ level : Level, level.rank ≤ e.precedence → Derives level ts e.nesting e) (level : Level) :
    ∃ ts, Spells (parenthesize (e.precedence < level.rank) e.canonical) ts ∧
      Derives level ts (enclose (e.precedence < level.rank) e.nesting) e := by
  obtain ⟨ts, hspells, hderives⟩ := h
  by_cases hwrap : e.precedence < level.rank
  · have hexpr : Derives .expr ts e.nesting e := hderives .expr e.precedence_pos
    refine ⟨.leftParen :: (ts ++ [.rightParen]), ?_, ?_⟩
    · rw [parenthesize, if_pos (decide_eq_true hwrap)]
      exact hspells.parens
    · rw [enclose, if_pos (decide_eq_true hwrap)]
      exact (Derives.paren hexpr).loosen level.rank_le
  · have hbare : decide (e.precedence < level.rank) = false := decide_eq_false hwrap
    rw [hbare]
    exact ⟨ts, hspells, hderives level (Nat.le_of_not_lt hwrap)⟩

/-- The canonical text of an expression is a phrase with this tree, nested as the tree says. -/
theorem exists_spells_canonical {e : Expr} (h : e.IsSpellable) :
    ∃ ts, Spells e.canonical ts ∧
      ∀ level : Level, level.rank ≤ e.precedence → Derives level ts e.nesting e := by
  induction e with
  | all => exact ⟨_, spells_star, fun level _ => Derives.star.loosen level.rank_le⟩
  | term name => exact ⟨_, spells_term h.term, fun level _ => (Derives.word name).loosen level.rank_le⟩
  | not e ih =>
      obtain ⟨ts, hspells, hderives⟩ := exists_spells_parenthesize (ih h.not) .unary
      refine ⟨.not :: ts, ?_, fun level _ => (Derives.not hderives).loosen level.rank_le⟩
      exact spells_not.append_blank hspells
  | and l r ihl ihr =>
      obtain ⟨ls, hspellsL, hderivesL⟩ := exists_spells_parenthesize (ihl h.and.1) .conjunction
      obtain ⟨rs, hspellsR, hderivesR⟩ := exists_spells_parenthesize (ihr h.and.2) .unary
      have hspells := hspellsL.append_connective spells_and hspellsR
      have hderives := Derives.and hderivesL hderivesR
      refine ⟨ls ++ .and :: rs, ?_, fun level hlevel => ?_⟩
      · rw [Expr.canonical, r.decide_precedence_le]
        exact hspells
      · rw [Expr.nesting, r.decide_precedence_le]
        exact hderives.loosen hlevel
  | or l r ihl ihr =>
      obtain ⟨ls, hspellsL, hderivesL⟩ := exists_spells_parenthesize (ihl h.or.1) .expr
      obtain ⟨rs, hspellsR, hderivesR⟩ := exists_spells_parenthesize (ihr h.or.2) .conjunction
      have hspells := hspellsL.append_connective spells_or hspellsR
      have hderives := Derives.or hderivesL hderivesR
      refine ⟨ls ++ .or :: rs, ?_, fun level hlevel => ?_⟩
      · rw [Expr.canonical, r.decide_precedence_le]
        exact hspells
      · rw [Expr.nesting, r.decide_precedence_le]
        exact hderives.loosen hlevel

section Reading

/-- What is read from characters whose tokens are a phrase of the grammar. -/
theorem parseExpr_of_lexes {cs : List Char} {ts : List Token} {n : Nat} {e : Expr}
    (hlexes : Lexes cs ts) (hderives : Derives .expr ts n e) :
    parseExpr cs =
      if maxLength < byteLength cs then .error (.tooLong (byteLength cs))
      else if maxDepth < n then .error .tooDeep
      else .ok e := by
  obtain ⟨ls, hlex, htokens⟩ := hlexes 0
  have hparse : parseTokens (ls.map (·.token)) = if n ≤ maxDepth then .ok e else .error .tooDeep := by
    rw [htokens]
    exact hderives.parseTokens_eq
  unfold parseExpr
  by_cases hlong : maxLength < byteLength cs
  · rw [if_pos hlong, if_pos hlong]
  · rw [if_neg hlong, if_neg hlong, hlex]
    cases ls with
    | nil =>
        rw [← htokens] at hderives
        exact absurd rfl hderives.ne_nil
    | cons token ls =>
        simp only [hparse]
        by_cases hdeep : maxDepth < n
        · rw [if_pos hdeep, if_neg (Nat.not_le.mpr hdeep)]
          rfl
        · rw [if_neg hdeep, if_pos (Nat.le_of_not_lt hdeep)]
          rfl

/-- An accepted text is short enough, and its tokens are a phrase that is not nested too deep. -/
theorem exists_derives_of_parseExpr {cs : List Char} {e : Expr} (h : parseExpr cs = .ok e) :
    byteLength cs ≤ maxLength ∧ ∃ ls n, lex 0 cs = .ok ls ∧ n ≤ maxDepth ∧
      Derives .expr (ls.map (·.token)) n e := by
  unfold parseExpr at h
  split at h
  · cases h
  · next hshort =>
    refine ⟨Nat.le_of_not_lt hshort, ?_⟩
    rcases hlex : lex 0 cs with stray | ls
    · rw [hlex] at h
      cases h
    · rw [hlex] at h
      have htokens : parseTokens (ls.map (·.token)) = .ok e := by
        cases ls with
        | nil => cases h
        | cons t ls => exact mapError_eq_ok.mp h
      obtain ⟨n, hn, hderives⟩ := exists_derives_of_parseTokens htokens
      exact ⟨ls, n, rfl, hn, hderives⟩

/-- The tree of an accepted text can be spelled and is not nested too deep. -/
theorem isSpellable_of_parseExpr {cs : List Char} {e : Expr} (h : parseExpr cs = .ok e) :
    e.IsSpellable ∧ e.nesting ≤ maxDepth := by
  obtain ⟨-, ls, n, hlex, hn, hderives⟩ := exists_derives_of_parseExpr h
  refine ⟨fun name hname => isTerm_of_lex hlex (hderives.mem_of_contains_terms hname), ?_⟩
  have hleast : enclose (e.precedence < 1) e.nesting ≤ n := hderives.enclose_nesting_le
  rw [e.enclose_precedence] at hleast
  exact Nat.le_trans hleast hn

theorem map_expr_parse (input : String) :
    (parse input).map (·.expr) = parseExpr input.toList := by
  unfold parse
  split
  · next h => exact h.symm
  · next h => exact h.symm

theorem map_expr_parse_canonical {e : Expr} (h : e.IsSpellable) :
    (parse e.canonical).map (·.expr) =
      if maxLength < byteLength e.canonical.toList then
        .error (.tooLong (byteLength e.canonical.toList))
      else if maxDepth < e.nesting then .error .tooDeep
      else .ok e := by
  obtain ⟨ts, hspells, hderives⟩ := exists_spells_canonical h
  rw [map_expr_parse]
  exact parseExpr_of_lexes hspells.lexes (hderives .expr e.precedence_pos)

end Reading

/-- The canonical text of an expression whose terms are words is read as the expression itself,
unless the text is too long or nests too deep.  For the expression of an accepted text it does not
nest too deep, so its canonical text is read as the same expression whenever it is short enough, and
writing that expression gives the same text. -/
theorem parse_canonical :
    (∀ e : Expr, e.IsSpellable →
      (parse e.canonical).map (·.expr) =
        if maxLength < byteLength e.canonical.toList then
          .error (.tooLong (byteLength e.canonical.toList))
        else if maxDepth < e.nesting then .error .tooDeep
        else .ok e) ∧
    ∀ input s, parse input = .ok s →
      s.expr.IsSpellable ∧ s.expr.nesting ≤ maxDepth ∧ parse s.canonical ≠ .error .tooDeep ∧
      (byteLength s.canonical.toList ≤ maxLength →
        ∃ s', parse s.canonical = .ok s' ∧ s'.expr = s.expr ∧ s'.canonical = s.canonical) := by
  refine ⟨fun e he => map_expr_parse_canonical he, fun input s hs => ?_⟩
  have hread : parseExpr input.toList = .ok s.expr := by
    rw [← map_expr_parse, hs]
    rfl
  obtain ⟨hspellable, hnesting⟩ := isSpellable_of_parseExpr hread
  have hagain := map_expr_parse_canonical hspellable
  rw [if_neg (Nat.not_lt.mpr hnesting)] at hagain
  refine ⟨hspellable, hnesting, fun hdeep => ?_, fun hshort => ?_⟩
  · rw [canonical] at hdeep
    rw [hdeep] at hagain
    split at hagain <;> cases hagain
  · have hfits : byteLength s.expr.canonical.toList ≤ maxLength := hshort
    rw [if_neg (Nat.not_lt.mpr hfits)] at hagain
    obtain ⟨s', hs', hexpr⟩ := map_eq_ok.mp hagain
    refine ⟨s', hs', hexpr, ?_⟩
    rw [canonical, canonical, hexpr]

/-- A conjunction whose operands both keep their parentheses. -/
def guarded : Expr :=
  .and (.not (.or (.term "gpu") (.term "slow"))) (.and .all (.term "net"))

/-- A term under `n` negations. -/
def negated (n : Nat) : Expr :=
  Nat.repeat Expr.not n (.term "gpu")

private theorem byteLength_negated (n : Nat) :
    3 ≤ (negated n).precedence ∧ byteLength (negated n).canonical.toList = 4 * n + 3 := by
  induction n with
  | zero => exact ⟨by decide, by decide +kernel⟩
  | succ n ih =>
      obtain ⟨hprecedence, hlength⟩ := ih
      have hbare : decide ((negated n).precedence < 3) = false :=
        decide_eq_false (Nat.not_lt.mpr hprecedence)
      have htext : (negated (n + 1)).canonical = "not " ++ (negated n).canonical := by
        show "not " ++ parenthesize ((negated n).precedence < 3) (negated n).canonical = _
        rw [hbare]
        rfl
      refine ⟨Nat.le_refl 3, ?_⟩
      rw [htext, String.toList_append, byteLength_append, hlength]
      show 4 + (4 * n + 3) = 4 * (n + 1) + 3
      omega

private theorem parseExpr_guarded :
    parseExpr "not ((gpu or (slow))) and (* and net)".toList = .ok guarded :=
  spells_of_toOption (by decide +kernel)

theorem parse_canonical_guarded :
    guarded.IsSpellable ∧ (parse guarded.canonical).map (·.expr) = .ok guarded ∧
      (negated 65).IsSpellable ∧ (parse (negated 65).canonical).map (·.expr) = .error .tooDeep ∧
      ∃ s, parse "not ((gpu or (slow))) and (* and net)" = .ok s ∧
        s.canonical = "not (gpu or slow) and (* and net)" ∧ parse s.canonical ≠ .error .tooDeep ∧
        ∃ s', parse s.canonical = .ok s' ∧ s'.expr = s.expr ∧ s'.canonical = s.canonical := by
  have hguarded : guarded.IsSpellable := by decide +kernel
  have hnegated : (negated 65).IsSpellable := by decide +kernel
  have hread := parse_canonical.1 guarded hguarded
  rw [if_neg (by decide +kernel), if_neg (by decide +kernel)] at hread
  have hdeep := parse_canonical.1 (negated 65) hnegated
  rw [(byteLength_negated 65).2, if_neg (by decide), if_pos (by decide +kernel)] at hdeep
  have hinput := map_expr_parse "not ((gpu or (slow))) and (* and net)"
  rw [parseExpr_guarded] at hinput
  obtain ⟨s, hs, hexpr⟩ := map_eq_ok.mp hinput
  have htext : s.canonical = "not (gpu or slow) and (* and net)" := by
    rw [canonical, hexpr]
    decide +kernel
  obtain ⟨-, -, hnotDeep, hagain⟩ := parse_canonical.2 _ s hs
  exact ⟨hguarded, hread, hnegated, hdeep, s, hs, htext, hnotDeep,
    hagain (by rw [htext]; decide +kernel)⟩

end Selector

end CiPlan
