import CiPlan.Proofs.Canonical

/-!
# The language of selectors

Which texts are selectors, without mention of how they are read.  `Scans` says which tokens a text
consists of: symbols, keywords and maximal runs of identifier characters, with blanks between them.
Together with the grammar `Derives` it describes the language.

* `scans_iff_lexes` — the tokens are those of the lexer.
* `Derives.unique` — the grammar is unambiguous.  In a phrase the parentheses are balanced, and a
  connective that the level does not join by itself stands inside a pair of them, so the place where
  a phrase is put together can be told from the tokens.
* `parse_eq_ok_iff` — what is accepted, and with which tree.
-/

namespace CiPlan.Selector

open Text (isBlank)

/-! ## Tokens of a text -/

/-- The character may stand in a selector. -/
def IsAllowed (c : Char) : Prop :=
  isBlank c = true ∨ c ∈ ['(', ')', '*'] ∨ isWordChar c = true

instance (c : Char) : Decidable (IsAllowed c) :=
  inferInstanceAs (Decidable (_ ∨ _ ∨ _))

/-- The characters consist of the tokens, with blanks between them.  What is made of identifier
characters reaches to where these end: it is a keyword, or the name of a term. -/
inductive Scans : List Char → List Token → Prop
  | nil : Scans [] []
  | blank {c cs ts} (hc : isBlank c = true) (h : Scans cs ts) : Scans (c :: cs) ts
  | symbol {t : Token} {cs ts} (ht : t ∈ [.leftParen, .rightParen, .star]) (h : Scans cs ts) :
      Scans (t.text.toList ++ cs) (t :: ts)
  | keyword {t : Token} {cs ts} (ht : t ∈ [.and, .or, .not]) (hs : Separated cs) (h : Scans cs ts) :
      Scans (t.text.toList ++ cs) (t :: ts)
  | word {name : String} {cs ts} (hn : IsTerm name) (hs : Separated cs) (h : Scans cs ts) :
      Scans (name.toList ++ cs) (.word name :: ts)

section Scanning

variable {cs : List Char} {ts : List Token}

theorem spells_keyword {t : Token} (ht : t ∈ [.and, .or, .not]) : Spells t.text [t] := by
  simp only [List.mem_cons, List.not_mem_nil, or_false] at ht
  rcases ht with rfl | rfl | rfl
  · exact spells_and
  · exact spells_or
  · exact spells_not

/-- The lexer reads the tokens that the characters consist of. -/
theorem Scans.lexes (h : Scans cs ts) : Lexes cs ts := by
  induction h with
  | nil => exact lexes_nil
  | blank hc _ ih => exact ih.blank hc
  | symbol ht _ ih =>
      simp only [List.mem_cons, List.not_mem_nil, or_false] at ht
      rcases ht with rfl | rfl | rfl <;> exact ih.single (by decide) (by decide)
  | keyword ht hs _ ih => exact spells_keyword ht _ _ hs ih
  | word hn hs _ ih => exact spells_term hn _ _ hs ih

/-- What follows a maximal run of identifier characters is separated from it. -/
theorem separated_dropWhile (cs : List Char) : Separated (cs.dropWhile isWordChar) := by
  intro c hc
  have hhead := List.head?_dropWhile_not isWordChar cs
  rw [Option.mem_def] at hc
  rw [hc] at hhead
  simpa using hhead

/-- A run of identifier characters is a keyword or the name of a term. -/
theorem Scans.run {word : List Char} (hne : word ≠ []) (hw : ∀ c ∈ word, isWordChar c = true)
    (hs : Separated cs) (h : Scans cs ts) :
    Scans (word ++ cs) (.ofWord (String.ofList word) :: ts) := by
  by_cases hterm : IsTerm (String.ofList word)
  · rw [Token.ofWord_of_isTerm hterm]
    have hscans := Scans.word hterm hs h
    rwa [String.toList_ofList] at hscans
  · have hkeyword : ∃ t ∈ [Token.and, .or, .not], String.ofList word = t.text := by
      by_contra hnone
      refine hterm ⟨?_, by simpa using hw, fun heq => ?_, fun heq => ?_, fun heq => ?_⟩
      · simpa using hne
      · exact hnone ⟨.and, by simp, heq⟩
      · exact hnone ⟨.or, by simp, heq⟩
      · exact hnone ⟨.not, by simp, heq⟩
    obtain ⟨t, ht, heq⟩ := hkeyword
    have hscans := Scans.keyword ht hs h
    have hchars : word = t.text.toList := by rw [← heq, String.toList_ofList]
    have htoken : Token.ofWord (String.ofList word) = t := by
      rw [heq]
      simp only [List.mem_cons, List.not_mem_nil, or_false] at ht
      rcases ht with rfl | rfl | rfl <;> decide
    rwa [htoken, hchars]

/-- What the lexer reads is what the characters consist of. -/
theorem scans_of_lex {pos : Nat} {ls : List Located} (h : lex pos cs = .ok ls) :
    Scans cs (ls.map (·.token)) := by
  fun_induction lex pos cs generalizing ls with
  | case1 => cases h; exact .nil
  | case2 pos c cs hc ih => exact .blank hc (ih h)
  | case3 pos c cs hc token htoken ih =>
      obtain ⟨rest, hrest, rfl⟩ := map_eq_ok.mp h
      have hsymbol : token ∈ [Token.leftParen, .rightParen, .star] ∧ token.text.toList = [c] := by
        unfold Token.ofChar? at htoken
        split at htoken
        · next heq => cases htoken; subst heq; decide
        · split at htoken
          · next heq => cases htoken; subst heq; decide
          · split at htoken
            · next heq => cases htoken; subst heq; decide
            · cases htoken
      have hscans := Scans.symbol hsymbol.1 (ih hrest)
      rwa [hsymbol.2] at hscans
  | case4 pos c cs hc hnone hw word =>
      rename_i ih
      obtain ⟨rest, hrest, rfl⟩ := map_eq_ok.mp h
      have hchars : ∀ d ∈ word, isWordChar d = true := by
        intro d hd
        rcases List.mem_cons.mp hd with rfl | hd
        · exact hw
        · exact List.all_eq_true.mp List.all_takeWhile d hd
      have hscans := Scans.run (List.cons_ne_nil _ _) hchars (separated_dropWhile cs) (ih hrest)
      have hwhole : word ++ cs.dropWhile isWordChar = c :: cs := by
        show c :: (cs.takeWhile isWordChar ++ cs.dropWhile isWordChar) = c :: cs
        rw [List.takeWhile_append_dropWhile]
      rwa [hwhole] at hscans
  | case5 => cases h

theorem scans_iff_lexes : Scans cs ts ↔ Lexes cs ts := by
  refine ⟨Scans.lexes, fun h => ?_⟩
  obtain ⟨ls, hls, rfl⟩ := h 0
  exact scans_of_lex hls

/-- The tokens of a text are determined. -/
theorem Scans.unique {ts' : List Token} (h : Scans cs ts) (h' : Scans cs ts') : ts = ts' := by
  obtain ⟨ls, hls, htokens⟩ := h.lexes 0
  obtain ⟨ls', hls', htokens'⟩ := h'.lexes 0
  rw [hls] at hls'
  cases hls'
  exact htokens.symm.trans htokens'

theorem isWordChar_of_mem_keyword {t : Token} (ht : t ∈ [.and, .or, .not]) :
    ∀ c ∈ t.text.toList, isWordChar c = true := by
  have hall : t.text.toList.all isWordChar = true := by
    simp only [List.mem_cons, List.not_mem_nil, or_false] at ht
    rcases ht with rfl | rfl | rfl <;> decide
  exact List.all_eq_true.mp hall

theorem Scans.isAllowed (h : Scans cs ts) {c : Char} (hc : c ∈ cs) : IsAllowed c := by
  induction h with
  | nil => cases hc
  | blank hblank _ ih =>
      rcases List.mem_cons.mp hc with rfl | hc
      · exact .inl hblank
      · exact ih hc
  | symbol ht _ ih =>
      rcases List.mem_append.mp hc with hc | hc
      · refine .inr (.inl ?_)
        simp only [List.mem_cons, List.not_mem_nil, or_false] at ht
        rcases ht with rfl | rfl | rfl <;> simp_all [Token.text]
      · exact ih hc
  | keyword ht hs _ ih =>
      rcases List.mem_append.mp hc with hc | hc
      · exact .inr (.inr (isWordChar_of_mem_keyword ht c hc))
      · exact ih hc
  | word hn hs _ ih =>
      rcases List.mem_append.mp hc with hc | hc
      · exact .inr (.inr (hn.chars c hc))
      · exact ih hc

end Scanning

/-! ## Phrases in one way only -/

section Balance

variable {level : Level} {ts : List Token} {n : Nat} {e : Expr}

/-- A phrase has a closing parenthesis for each one that it opens. -/
theorem Derives.count_eq (h : Derives level ts n e) :
    ts.count .rightParen = ts.count .leftParen := by
  induction h with
  | word | star => rfl
  | paren h ih => simp [ih]
  | not h ih => simpa using ih
  | ofUnary h ih | ofConjunction h ih => exact ih
  | and hl hr ihl ihr | or hl hr ihl ihr => simp [ihl, ihr]

theorem prefix_append_iff {α : Type} {p xs ys : List α} :
    p <+: xs ++ ys ↔ p <+: xs ∨ ∃ q, p = xs ++ q ∧ q <+: ys := by
  constructor
  · rintro ⟨rest, h⟩
    rcases List.append_eq_append_iff.mp h with ⟨q, hxs, -⟩ | ⟨q, hp, hys⟩
    · exact .inl ⟨q, hxs.symm⟩
    · exact .inr ⟨q, hp, rest, hys.symm⟩
  · rintro (h | ⟨q, rfl, h⟩)
    · exact List.prefix_append_of_prefix h
    · exact (List.prefix_append_right_inj xs).mpr h

/-- No beginning of a phrase closes a parenthesis that it has not opened. -/
theorem Derives.count_le (h : Derives level ts n e) {p : List Token} (hp : p <+: ts) :
    p.count .rightParen ≤ p.count .leftParen := by
  induction h generalizing p with
  | word | star =>
      rcases List.prefix_cons_iff.mp hp with rfl | ⟨q, rfl, hq⟩
      · exact Nat.le_refl _
      · rw [List.prefix_nil.mp hq]
        exact Nat.le_refl _
  | paren h ih =>
      rcases List.prefix_cons_iff.mp hp with rfl | ⟨q, rfl, hq⟩
      · exact Nat.le_refl _
      · rcases List.prefix_concat_iff.mp hq with rfl | hq
        · simp [h.count_eq]
        · have := ih hq
          simp only [List.count_cons]
          simp
          omega
  | not h ih =>
      rcases List.prefix_cons_iff.mp hp with rfl | ⟨q, rfl, hq⟩
      · exact Nat.le_refl _
      · simpa using ih hq
  | ofUnary h ih | ofConjunction h ih => exact ih hp
  | and hl hr ihl ihr | or hl hr ihl ihr =>
      rcases prefix_append_iff.mp hp with hp | ⟨q, rfl, hq⟩
      · exact ihl hp
      · rcases List.prefix_cons_iff.mp hq with rfl | ⟨q', rfl, hq'⟩
        · simp [hl.count_eq]
        · simpa [hl.count_eq] using ihr hq'

/-- The connectives that do not join the parts of a phrase of the level. -/
def Level.Excludes : Level → Token → Prop
  | .unary, t => t = .and ∨ t = .or
  | .conjunction, t => t = .or
  | .expr, _ => False

theorem excludes_and : Level.unary.Excludes .and :=
  .inl rfl

theorem excludes_or : Level.conjunction.Excludes .or :=
  rfl

theorem Level.Excludes.mem {t : Token} (h : level.Excludes t) : t ∈ [.and, .or] := by
  cases level with
  | unary => simpa [Level.Excludes] using h
  | conjunction => simp [show t = .or from h]
  | expr => exact h.elim

/-- A connective that the level excludes stands inside parentheses. -/
theorem Derives.count_lt (h : Derives level ts n e) {t : Token} (ht : level.Excludes t)
    {p q : List Token} (hts : ts = p ++ t :: q) : p.count .rightParen < p.count .leftParen := by
  have hconnective := ht.mem
  simp only [List.mem_cons, List.not_mem_nil, or_false] at hconnective
  induction h generalizing p q with
  | word | star =>
      have hmem := List.mem_append_right p (List.mem_cons_self (a := t) (l := q))
      rw [← hts, List.mem_singleton] at hmem
      subst hmem
      rcases hconnective with h | h <;> cases h
  | @paren us n e h ih =>
      rcases List.cons_eq_append_iff.mp hts with ⟨-, hhead⟩ | ⟨p', rfl, hrest⟩
      · rcases hconnective with rfl | rfl <;> cases hhead
      · rcases List.append_eq_append_iff.mp hrest with ⟨as, -, hlast⟩ | ⟨bs, hus, -⟩
        · rcases List.singleton_eq_append_iff.mp hlast with ⟨-, heq⟩ | ⟨-, heq⟩
          · rcases hconnective with rfl | rfl <;> cases heq
          · cases heq
        · have hle : p'.count .rightParen ≤ p'.count .leftParen := h.count_le ⟨bs, hus.symm⟩
          simpa using Nat.lt_succ_of_le hle
  | not h ih =>
      rcases List.cons_eq_append_iff.mp hts with ⟨-, hhead⟩ | ⟨p', rfl, hrest⟩
      · rcases hconnective with rfl | rfl <;> cases hhead
      · simpa using ih ht hrest
  | ofUnary h ih => exact ih (.inr ht) hts
  | ofConjunction h ih => exact ht.elim
  | @and ls m l rs n r hl hr ihl ihr =>
      have htor : t = .or := ht
      rcases List.append_eq_append_iff.mp hts with ⟨as, rfl, hright⟩ | ⟨bs, hleft, hright⟩
      · rcases List.cons_eq_append_iff.mp hright with ⟨-, hhead⟩ | ⟨as', rfl, hrest⟩
        · rw [htor] at hhead
          cases hhead
        · have hlt := ihr (.inr htor) hrest
          simpa [hl.count_eq] using hlt
      · rcases List.cons_eq_append_iff.mp hright with ⟨-, hhead⟩ | ⟨bs', rfl, -⟩
        · rw [htor] at hhead
          cases hhead
        · exact ihl ht hleft
  | or hl hr ihl ihr => exact ht.elim

/-- Balanced tokens before a connective are none, when a phrase that excludes it follows another. -/
theorem eq_nil_of_split {t : Token} (ht : level.Excludes t) (h : Derives level ts n e)
    {as rest : List Token} (hbalanced : as.count .rightParen = as.count .leftParen)
    (hsplit : t :: ts = as ++ t :: rest) : as = [] := by
  rcases List.cons_eq_append_iff.mp hsplit with ⟨hnil, -⟩ | ⟨as', rfl, hts⟩
  · exact hnil
  · have hlt := h.count_lt ht hts
    have hconnective := ht.mem
    simp only [List.mem_cons, List.not_mem_nil, or_false] at hconnective
    rcases hconnective with rfl | rfl <;> simp at hbalanced <;> omega

/-- The same tokens are divided at the same connective, when neither right part has it outside of
parentheses. -/
theorem split_unique {t : Token} (ht : level.Excludes t) {levelL : Level}
    {ls ls' rs rs' : List Token} {m m' n n' : Nat} {l l' r r' : Expr}
    (hl : Derives levelL ls m l) (hl' : Derives levelL ls' m' l')
    (hr : Derives level rs n r) (hr' : Derives level rs' n' r')
    (hsplit : ls ++ t :: rs = ls' ++ t :: rs') : ls = ls' ∧ rs = rs' := by
  have hleft := hl.count_eq
  have hleft' := hl'.count_eq
  have hls : ls = ls' := by
    rcases List.append_eq_append_iff.mp hsplit with ⟨as, rfl, hrest⟩ | ⟨bs, rfl, hrest⟩
    · rw [List.count_append, List.count_append] at hleft'
      rw [eq_nil_of_split ht hr (by omega) hrest, List.append_nil]
    · rw [List.count_append, List.count_append] at hleft
      rw [eq_nil_of_split ht hr' (by omega) hrest, List.append_nil]
  subst hls
  exact ⟨rfl, List.tail_eq_of_cons_eq (List.append_cancel_left hsplit)⟩

/-- The grammar is unambiguous: the tokens determine the tree and how deep it is nested. -/
theorem Derives.unique (h : Derives level ts n e) {n' : Nat} {e' : Expr}
    (h' : Derives level ts n' e') : n = n' ∧ e = e' := by
  induction h generalizing n' e' with
  | word name => cases h'; exact ⟨rfl, rfl⟩
  | star => cases h'; exact ⟨rfl, rfl⟩
  | @paren ts n e h ih =>
      generalize hwhole : Token.leftParen :: (ts ++ [.rightParen]) = whole at h'
      cases h' with
      | word | star | not => cases hwhole
      | @paren ts' n' e' h' =>
          have hts : ts = ts' :=
            List.append_cancel_right (List.tail_eq_of_cons_eq hwhole)
          subst hts
          obtain ⟨rfl, rfl⟩ := ih h'
          exact ⟨rfl, rfl⟩
  | not h ih =>
      cases h' with
      | not h' =>
          obtain ⟨rfl, rfl⟩ := ih h'
          exact ⟨rfl, rfl⟩
  | @ofUnary ts n e h ih =>
      generalize hwhole : ts = whole at h'
      cases h' with
      | ofUnary h' => subst hwhole; exact ih h'
      | and hl hr =>
          have hlt := h.count_lt excludes_and hwhole
          exact absurd hl.count_eq (Nat.ne_of_lt hlt)
  | @and ls m l rs n r hl hr ihl ihr =>
      generalize hwhole : ls ++ Token.and :: rs = whole at h'
      cases h' with
      | ofUnary h' =>
          have hlt := h'.count_lt excludes_and hwhole.symm
          exact absurd hl.count_eq (Nat.ne_of_lt hlt)
      | and hl' hr' =>
          obtain ⟨rfl, rfl⟩ := split_unique excludes_and hl hl' hr hr' hwhole
          obtain ⟨rfl, rfl⟩ := ihl hl'
          obtain ⟨rfl, rfl⟩ := ihr hr'
          exact ⟨rfl, rfl⟩
  | @ofConjunction ts n e h ih =>
      generalize hwhole : ts = whole at h'
      cases h' with
      | ofConjunction h' => subst hwhole; exact ih h'
      | or hl hr =>
          have hlt := h.count_lt excludes_or hwhole
          exact absurd hl.count_eq (Nat.ne_of_lt hlt)
  | @or ls m l rs n r hl hr ihl ihr =>
      generalize hwhole : ls ++ Token.or :: rs = whole at h'
      cases h' with
      | ofConjunction h' =>
          have hlt := h'.count_lt excludes_or hwhole.symm
          exact absurd hl.count_eq (Nat.ne_of_lt hlt)
      | or hl' hr' =>
          obtain ⟨rfl, rfl⟩ := split_unique excludes_or hl hl' hr hr' hwhole
          obtain ⟨rfl, rfl⟩ := ihl hl'
          obtain ⟨rfl, rfl⟩ := ihr hr'
          exact ⟨rfl, rfl⟩

end Balance

/-! ## Accepted texts -/

/-- The characters are an expression with this tree; `nesting` is the greatest number of parentheses
and `not`s around one of its tokens. -/
def HasTree (cs : List Char) (nesting : Nat) (e : Expr) : Prop :=
  ∃ ts, Scans cs ts ∧ Derives .expr ts nesting e

theorem HasTree.unique {cs : List Char} {n n' : Nat} {e e' : Expr} (h : HasTree cs n e)
    (h' : HasTree cs n' e') : n = n' ∧ e = e' := by
  obtain ⟨ts, hscans, hderives⟩ := h
  obtain ⟨ts', hscans', hderives'⟩ := h'
  rw [hscans'.unique hscans] at hderives'
  exact hderives.unique hderives'

theorem byteLength_toList (s : String) : byteLength s.toList = s.utf8ByteSize := by
  have hchars : ∀ cs : List Char, byteLength cs = (String.ofList cs).utf8ByteSize := by
    intro cs
    induction cs with
    | nil => rfl
    | cons c cs ih =>
        rw [byteLength, ih, String.ofList_cons, String.utf8ByteSize_append,
          String.utf8ByteSize_singleton]
  rw [hchars, String.ofList_toList]

/-- What is read from characters is the tree that they have, if it is within the limits. -/
theorem parseExpr_eq_ok_iff {cs : List Char} {e : Expr} :
    parseExpr cs = .ok e ↔
      byteLength cs ≤ maxLength ∧ ∃ n ≤ maxDepth, HasTree cs n e := by
  constructor
  · intro h
    obtain ⟨hshort, ls, n, hlex, hn, hderives⟩ := exists_derives_of_parseExpr h
    exact ⟨hshort, n, hn, _, scans_of_lex hlex, hderives⟩
  · rintro ⟨hshort, n, hn, ts, hscans, hderives⟩
    rw [parseExpr_of_lexes hscans.lexes hderives, if_neg (Nat.not_lt.mpr hshort),
      if_neg (Nat.not_lt.mpr hn)]

/-- A text is accepted with a tree when it takes at most 4096 bytes, has allowed characters only, and
is an expression of the grammar with this tree in which no token stands under more than 64
parentheses and `not`s.  No text has two trees. -/
theorem parse_eq_ok_iff :
    (∀ (input : String) (e : Expr), (∃ s, parse input = .ok s ∧ s.expr = e) ↔
      input.utf8ByteSize ≤ 4096 ∧ (∀ c ∈ input.toList, IsAllowed c) ∧
        ∃ n ≤ 64, HasTree input.toList n e) ∧
    ∀ (cs : List Char) (n n' : Nat) (e e' : Expr),
      HasTree cs n e → HasTree cs n' e' → n = n' ∧ e = e' := by
  refine ⟨fun input e => ?_, fun cs n n' e e' h h' => h.unique h'⟩
  have hread : (∃ s, parse input = .ok s ∧ s.expr = e) ↔ parseExpr input.toList = .ok e := by
    rw [← map_expr_parse]
    exact map_eq_ok.symm
  rw [hread, parseExpr_eq_ok_iff, byteLength_toList]
  constructor
  · rintro ⟨hshort, n, hn, ts, hscans, hderives⟩
    exact ⟨hshort, fun c hc => hscans.isAllowed hc, n, hn, ts, hscans, hderives⟩
  · rintro ⟨hshort, -, hphrase⟩
    exact ⟨hshort, hphrase⟩

theorem parse_eq_ok_iff_guarded :
    (∃ n ≤ 64, HasTree "not ((gpu or (slow))) and (* and net)".toList n guarded) ∧
      HasTree (negated 65).canonical.toList 65 (negated 65) ∧
      ¬ ∃ s, parse (negated 65).canonical = .ok s ∧ s.expr = negated 65 := by
  have hguarded : parseExpr "not ((gpu or (slow))) and (* and net)".toList = .ok guarded :=
    spells_of_toOption (by decide +kernel)
  rw [← map_expr_parse] at hguarded
  have hdeep : HasTree (negated 65).canonical.toList 65 (negated 65) := by
    obtain ⟨ts, hspells, hderives⟩ := exists_spells_canonical (e := negated 65) (by decide +kernel)
    exact ⟨ts, scans_iff_lexes.mpr hspells.lexes, hderives .expr (by decide)⟩
  refine ⟨((parse_eq_ok_iff.1 _ _).mp (map_eq_ok.mp hguarded)).2.2, hdeep, fun haccepted => ?_⟩
  obtain ⟨-, -, n, hn, htree⟩ := (parse_eq_ok_iff.1 _ _).mp haccepted
  have hnesting := (parse_eq_ok_iff.2 _ _ _ _ _ hdeep htree).1
  omega

end CiPlan.Selector
