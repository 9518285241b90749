import CiPlan.Proofs.Faults
import CiPlan.Proofs.Layout

/-!
# What the errors of a selector point at

A text is refused because of its length, a character, or its tokens (`parse_eq_error_iff`).  The
character is the first that belongs nowhere (`lex_eq_error_iff`).  A fault of the tokens names one
by its index; the offset that is reported is that of the same token in the text, since tokens and
text are divided alike (`exists_split_of_map_eq`).

The tokens before an unexpected one are the beginning of an expression, and none goes on with that
token: the parser would have to refuse it as well (`Fails.not_isViable`).

Main result: `parse_error_pointsAt`.
-/

namespace CiPlan.Selector

open Text (isBlank)

/-- An expression of the grammar begins with the tokens, however deep it is nested. -/
def IsViable (ts : List Token) : Prop :=
  ∃ rest n e, Derives .expr (ts ++ rest) n e

/-- The character is neither a blank nor part of a token. -/
def BelongsNowhere (c : Char) : Prop :=
  isBlank c = false ∧ ∀ t : Token, t.IsWritten → c ∉ t.text.toList

section Characters

variable {pos : Nat} {cs : List Char} {stray : Stray}

theorem belongsNowhere_iff {c : Char} : BelongsNowhere c ↔ ¬ IsAllowed c := by
  constructor
  · rintro ⟨hblank, hnone⟩ (h | h | h)
    · rw [hblank] at h
      cases h
    · simp only [List.mem_cons, List.not_mem_nil, or_false] at h
      rcases h with rfl | rfl | rfl
      · exact hnone .leftParen trivial (by decide)
      · exact hnone .rightParen trivial (by decide)
      · exact hnone .star trivial (by decide)
    · have hterm : (Token.ofWord (String.singleton c)).IsWritten :=
        Token.isWritten_ofWord (by simp) (by simpa using h)
      refine hnone _ hterm ?_
      rw [Token.text_ofWord]
      simp
  · intro h
    refine ⟨by simpa using fun hblank => h (.inl hblank), fun t ht hc => h ?_⟩
    cases hword : t.isWord with
    | true => exact .inr (.inr ((ht.chars hword).2 c hc))
    | false =>
        refine .inr (.inl ?_)
        cases t with
        | leftParen | rightParen | star => simp_all [Token.text]
        | and | or | not | word => cases hword

/-- Characters up to the first that has a property are divided in one way. -/
theorem eq_of_first {α : Type} {p : α → Prop} {front front' back back' : List α} {a a' : α}
    (h : front ++ a :: back = front' ++ a' :: back') (hfront : ∀ b ∈ front, ¬ p b) (ha : p a)
    (hfront' : ∀ b ∈ front', ¬ p b) (ha' : p a') : front = front' ∧ a = a' := by
  rcases List.append_eq_append_iff.mp h with ⟨as, rfl, hrest⟩ | ⟨bs, rfl, hrest⟩
  · cases as with
    | nil =>
        cases hrest
        exact ⟨(List.append_nil _).symm, rfl⟩
    | cons b as =>
        cases hrest
        exact absurd ha (hfront' a (by simp))
  · cases bs with
    | nil =>
        cases hrest
        exact ⟨List.append_nil _, rfl⟩
    | cons b bs =>
        cases hrest
        exact absurd ha' (hfront a' (by simp))

theorem exists_stray_of_lex (h : lex pos cs = .error stray) :
    ∃ front back, cs = front ++ stray.ch :: back ∧ stray.pos = pos + byteLength front ∧
      (∀ c ∈ front, IsAllowed c) ∧ ¬ IsAllowed stray.ch := by
  fun_induction lex pos cs with
  | case1 => cases h
  | case2 pos c cs hc ih =>
      obtain ⟨front, back, rfl, hpos, hfront, hch⟩ := ih h
      refine ⟨c :: front, back, rfl, ?_, List.forall_mem_cons.mpr ⟨.inl hc, hfront⟩, hch⟩
      rw [hpos, byteLength, Nat.add_assoc]
  | case3 pos c cs hc token htoken ih =>
      obtain ⟨front, back, rfl, hpos, hfront, hch⟩ := ih (map_eq_error.mp h)
      have hallowed : IsAllowed c := by
        refine .inr (.inl ?_)
        unfold Token.ofChar? at htoken
        split_ifs at htoken <;> simp [*]
      refine ⟨c :: front, back, rfl, ?_, List.forall_mem_cons.mpr ⟨hallowed, hfront⟩, hch⟩
      rw [hpos, byteLength, Nat.add_assoc]
  | case4 pos c cs hc hnone hw word =>
      rename_i ih
      obtain ⟨front, back, hrest, hpos, hfront, hch⟩ := ih (map_eq_error.mp h)
      have hword : ∀ d ∈ word, IsAllowed d := by
        intro d hd
        rcases List.mem_cons.mp hd with rfl | hd
        · exact .inr (.inr hw)
        · exact .inr (.inr (List.all_eq_true.mp List.all_takeWhile d hd))
      refine ⟨word ++ front, back, ?_, ?_, List.forall_mem_append.mpr ⟨hword, hfront⟩, hch⟩
      · show c :: cs = c :: (cs.takeWhile isWordChar) ++ front ++ stray.ch :: back
        rw [List.append_assoc, ← hrest, List.cons_append, List.takeWhile_append_dropWhile]
      · rw [hpos, byteLength_append, Nat.add_assoc]
  | case5 pos c cs hc hnone hw =>
      cases h
      refine ⟨[], cs, rfl, rfl, List.forall_mem_nil _, ?_⟩
      rintro (hblank | hsymbol | hword)
      · exact hc hblank
      · simp only [List.mem_cons, List.not_mem_nil, or_false] at hsymbol
        rcases hsymbol with rfl | rfl | rfl <;> cases hnone
      · exact hw hword

/-- The lexer refuses the first character that is not allowed. -/
theorem lex_eq_error_iff :
    lex pos cs = .error stray ↔
      ∃ front back, cs = front ++ stray.ch :: back ∧ stray.pos = pos + byteLength front ∧
        (∀ c ∈ front, IsAllowed c) ∧ ¬ IsAllowed stray.ch := by
  refine ⟨exists_stray_of_lex, fun ⟨front, back, hcs, hpos, hfront, hch⟩ => ?_⟩
  cases hlex : lex pos cs with
  | ok ls =>
      have hallowed : IsAllowed stray.ch := (scans_of_lex hlex).isAllowed (by simp [hcs])
      exact absurd hallowed hch
  | error stray' =>
      obtain ⟨front', back', hcs', hpos', hfront', hch'⟩ := exists_stray_of_lex hlex
      obtain ⟨rfl, heq⟩ := eq_of_first (p := fun c => ¬ IsAllowed c) (hcs.symm.trans hcs')
        (by simpa using hfront) hch (by simpa using hfront') hch'
      have hsame : stray' = stray := by
        cases stray
        cases stray'
        simp_all
      rw [hsame]

end Characters

section Tokens

variable {ls : List Located} {input : String} {err : SelectorError}

/-- A list and what each of its elements is mapped to are divided alike. -/
theorem exists_split_of_map_eq {before : List Token} {t : Token} {after : List Token}
    (h : ls.map (·.token) = before ++ t :: after) :
    ∃ front l back, ls = front ++ l :: back ∧ front.map (·.token) = before ∧ l.token = t ∧
      back.map (·.token) = after ∧ ls[before.length]? = some l := by
  obtain ⟨front, rest, rfl, rfl, hrest⟩ := List.map_eq_append_iff.mp h
  obtain ⟨l, back, rfl, rfl, rfl⟩ := List.map_eq_cons_iff.mp hrest
  exact ⟨front, l, back, rfl, rfl, rfl, rfl, by simp⟩

theorem lex_eq_ok_nil_iff {pos : Nat} {cs : List Char} :
    lex pos cs = .ok [] ↔ cs.all isBlank = true := by
  constructor
  · intro h
    cases laidOut_of_lex h with
    | blanks hblank => exact hblank
  · intro h
    rw [← List.append_nil cs, lex_blanks_append h, lex]

theorem parse_eq_error_iff_parseExpr :
    parse input = .error err ↔ parseExpr input.toList = .error err := by
  rw [← map_expr_parse]
  exact map_eq_error.symm

theorem parse_eq_tooLong (hlong : maxLength < input.utf8ByteSize) :
    parse input = .error (.tooLong input.utf8ByteSize) := by
  rw [parse_eq_error_iff_parseExpr, parseExpr, byteLength_toList, if_pos hlong]

/-- A text that is not too long is refused for its first character that is not allowed, for having
no tokens, or for a fault of its tokens. -/
theorem parse_eq_error_iff (hshort : input.utf8ByteSize ≤ maxLength) :
    parse input = .error err ↔
      (∃ stray, lex 0 input.toList = .error stray ∧ err = .unexpectedChar stray.pos stray.ch) ∨
      (lex 0 input.toList = .ok [] ∧ err = .empty) ∨
      ∃ ls fault, lex 0 input.toList = .ok ls ∧ ls ≠ [] ∧ Fails (ls.map (·.token)) fault ∧
        err = fault.locate ls := by
  rw [parse_eq_error_iff_parseExpr, parseExpr, byteLength_toList, if_neg (Nat.not_lt.mpr hshort)]
  rcases hlex : lex 0 input.toList with stray | ls
  · simp [eq_comm]
  · cases ls with
    | nil => simp [eq_comm]
    | cons l ls => simp [mapError_eq_error, parseTokens_eq_error_iff]

theorem Fault.locate_ne (ls : List Located) (fault : Fault) :
    (∀ pos ch, fault.locate ls ≠ .unexpectedChar pos ch) ∧ fault.locate ls ≠ .empty := by
  cases fault with
  | unexpected i expected =>
      rw [locate]
      split <;> exact ⟨nofun, nofun⟩
  | ended | unbalanced | tooDeep => exact ⟨nofun, nofun⟩

theorem parse_eq_unexpectedChar_iff (hshort : input.utf8ByteSize ≤ maxLength) {pos : Nat}
    {ch : Char} :
    parse input = .error (.unexpectedChar pos ch) ↔ lex 0 input.toList = .error ⟨ch, pos⟩ := by
  rw [parse_eq_error_iff hshort]
  constructor
  · rintro (⟨stray, hlex, heq⟩ | ⟨-, heq⟩ | ⟨ls, fault, -, -, -, heq⟩)
    · cases heq
      exact hlex
    · cases heq
    · exact absurd heq.symm ((fault.locate_ne ls).1 pos ch)
  · exact fun hlex => .inl ⟨_, hlex, rfl⟩

theorem parse_eq_empty_iff (hshort : input.utf8ByteSize ≤ maxLength) :
    parse input = .error .empty ↔ Text.isBlankText input = true := by
  rw [parse_eq_error_iff hshort, Text.isBlankText, ← lex_eq_ok_nil_iff]
  constructor
  · rintro (⟨stray, -, heq⟩ | ⟨hlex, -⟩ | ⟨ls, fault, -, -, -, heq⟩)
    · cases heq
    · exact hlex
    · exact absurd heq.symm (fault.locate_ne ls).2
  · exact fun hlex => .inr (.inl ⟨hlex, rfl⟩)

/-- Behind tokens that end too soon an operand is missing. -/
theorem Fails.awaitsOperand {ts : List Token} (h : Fails ts .ended) : AwaitsOperand ts := by
  cases h with
  | ended h => exact h

/-- A token that cannot stand where it does. -/
theorem Fails.unexpected {ts : List Token} {i : Nat} {expected : Expected}
    (h : Fails ts (.unexpected i expected)) :
    ∃ before t after, ts = before ++ t :: after ∧ i = before.length ∧ IsBeginning before ∧
      ∀ after', Fails (before ++ t :: after') (.unexpected i expected) := by
  cases h with
  | @connective before t h ht after =>
      exact ⟨before, t, after, rfl, rfl, h.isBeginning, fun _ => .connective h ht _⟩
  | @operand before t h ht after =>
      refine ⟨before, t, after, rfl, rfl, ⟨[], ?_⟩, fun _ => .operand h ht _⟩
      rwa [List.append_nil]

theorem IsBeginning.isViable {ts : List Token} (h : IsBeginning ts) : IsViable ts := by
  obtain ⟨rest, n, -, e, hd⟩ := h
  exact ⟨rest, n, e, hd⟩

/-- An expression that goes on with the token would be refused at it. -/
theorem Fails.not_isViable {before : List Token} {t : Token} {i : Nat} {expected : Expected}
    (h : ∀ after, Fails (before ++ t :: after) (.unexpected i expected)) :
    ¬ IsViable (before ++ [t]) := by
  rintro ⟨rest, n, e, hd⟩
  rw [List.append_assoc] at hd
  have hrefused := (h rest).parseTokens_eq
  have hparse := hd.parseTokens_eq
  rw [List.singleton_append, hrefused] at hparse
  split at hparse <;> cases hparse

/-- An unexpected token is one of the text. -/
theorem exists_token_of_unexpected {pos : Nat} {found : Token} {expected : Expected}
    (hshort : input.utf8ByteSize ≤ maxLength)
    (h : parse input = .error (.unexpectedToken pos found expected)) :
    ∃ before after, lex 0 input.toList = .ok (before ++ ⟨found, pos⟩ :: after) ∧
      IsViable (before.map (·.token)) ∧ ¬ IsViable (before.map (·.token) ++ [found]) := by
  rcases (parse_eq_error_iff hshort).mp h with
    ⟨stray, -, heq⟩ | ⟨-, heq⟩ | ⟨ls, fault, hlex, -, hfails, heq⟩
  · cases heq
  · cases heq
  · cases fault with
    | ended | unbalanced | tooDeep => cases heq
    | unexpected i expected' =>
        obtain ⟨before, t, after, hts, rfl, hbegin, hagain⟩ := hfails.unexpected
        obtain ⟨front, l, back, rfl, rfl, rfl, rfl, hget⟩ := exists_split_of_map_eq hts
        rw [Fault.locate, hget] at heq
        cases heq
        exact ⟨front, back, hlex, hbegin.isViable, Fails.not_isViable hagain⟩

/-- At an unexpected end an operand is missing. -/
theorem exists_tokens_of_unexpectedEnd (hshort : input.utf8ByteSize ≤ maxLength)
    (h : parse input = .error .unexpectedEnd) :
    ∃ ls, lex 0 input.toList = .ok ls ∧ AwaitsOperand (ls.map (·.token)) := by
  rcases (parse_eq_error_iff hshort).mp h with
    ⟨stray, -, heq⟩ | ⟨-, heq⟩ | ⟨ls, fault, hlex, -, hfails, heq⟩
  · cases heq
  · cases heq
  · cases fault with
    | unbalanced | tooDeep => cases heq
    | unexpected i expected' =>
        obtain ⟨before, t, after, hts, rfl, -, -⟩ := hfails.unexpected
        obtain ⟨front, l, back, -, -, -, -, hget⟩ := exists_split_of_map_eq hts
        rw [Fault.locate, hget] at heq
        cases heq
    | ended =>
        exact ⟨ls, hlex, hfails.awaitsOperand⟩

end Tokens

/-- What the errors of a text of at most 4096 bytes point at.  A character is refused when the text
has one that belongs nowhere, and it is the first of them; otherwise the error says that there is
nothing just when the text is blank.  An unexpected token stands at its offset, the tokens before it
are the beginning of an expression, and no expression goes on with it; and at an unexpected end the
tokens are the beginning of a longer expression. -/
theorem parse_error_pointsAt {input : String} (hshort : input.utf8ByteSize ≤ 4096) :
    (∀ pos ch, parse input = .error (.unexpectedChar pos ch) ↔
      ∃ front back : String, input = front ++ String.singleton ch ++ back ∧
        pos = front.utf8ByteSize ∧ BelongsNowhere ch ∧
        ∀ c ∈ front.toList, ¬ BelongsNowhere c) ∧
    ((∃ pos ch, parse input = .error (.unexpectedChar pos ch)) ↔
      ∃ c ∈ input.toList, BelongsNowhere c) ∧
    (parse input = .error .empty ↔ Text.isBlankText input = true) ∧
    (∀ pos found expected, parse input = .error (.unexpectedToken pos found expected) →
      ∃ before after, lex 0 input.toList = .ok (before ++ ⟨found, pos⟩ :: after) ∧
        (∃ front back : String, input = front ++ found.text ++ back ∧ pos = front.utf8ByteSize) ∧
        IsViable (before.map (·.token)) ∧ ¬ IsViable (before.map (·.token) ++ [found])) ∧
    (parse input = .error .unexpectedEnd →
      ∃ ls, lex 0 input.toList = .ok ls ∧
        ∃ rest ≠ [], ∃ n e, Derives .expr (ls.map (·.token) ++ rest) n e) := by
  refine ⟨fun pos ch => ?_, ⟨?_, ?_⟩, parse_eq_empty_iff hshort, fun pos found expected h => ?_,
    fun h => ?_⟩
  · rw [parse_eq_unexpectedChar_iff hshort, lex_eq_error_iff]
    constructor
    · rintro ⟨front, back, hinput, hpos, hfront, hch⟩
      refine ⟨String.ofList front, String.ofList back, ?_, ?_, belongsNowhere_iff.mpr hch, ?_⟩
      · apply String.toList_inj.mp
        simpa using hinput
      · rw [utf8ByteSize_ofList, ← Nat.zero_add (byteLength front)]
        exact hpos
      · simpa [belongsNowhere_iff] using hfront
    · rintro ⟨front, back, rfl, rfl, hch, hfront⟩
      refine ⟨front.toList, back.toList, by simp, ?_, ?_, belongsNowhere_iff.mp hch⟩
      · rw [byteLength_toList, Nat.zero_add]
      · simpa [belongsNowhere_iff] using hfront
  · rintro ⟨pos, ch, h⟩
    obtain ⟨front, back, hinput, -, -, hch⟩ :=
      lex_eq_error_iff.mp ((parse_eq_unexpectedChar_iff hshort).mp h)
    exact ⟨ch, by simp [hinput], belongsNowhere_iff.mpr hch⟩
  · rintro ⟨c, hc, hstray⟩
    cases hlex : lex 0 input.toList with
    | ok ls => exact absurd ((scans_of_lex hlex).isAllowed hc) (belongsNowhere_iff.mp hstray)
    | error stray => exact ⟨_, _, (parse_eq_unexpectedChar_iff hshort).mpr hlex⟩
  · obtain ⟨before, after, hlex, hviable, hnone⟩ := exists_token_of_unexpected hshort h
    exact ⟨before, after, hlex, exists_text_of_lex hlex, hviable, hnone⟩
  · obtain ⟨ls, hlex, rest, n, -, e, hd⟩ := exists_tokens_of_unexpectedEnd hshort h
    rw [List.append_assoc] at hd
    exact ⟨ls, hlex, _, List.cons_ne_nil _ _, n, e, hd⟩

/-- A stray character behind a wide blank, a word behind another, and an operand that is missing. -/
theorem parse_error_pointsAt_threeTexts :
    (∃ front back : String, "a\u3000&b" = front ++ String.singleton '&' ++ back ∧
      4 = front.utf8ByteSize ∧ BelongsNowhere '&' ∧ ∀ c ∈ front.toList, ¬ BelongsNowhere c) ∧
    (∃ before after, lex 0 "a\u3000not b".toList = .ok (before ++ ⟨.not, 4⟩ :: after) ∧
      (∃ front back : String, "a\u3000not b" = front ++ Token.not.text ++ back ∧
        4 = front.utf8ByteSize) ∧
      IsViable (before.map (·.token)) ∧ ¬ IsViable (before.map (·.token) ++ [.not])) ∧
    ∃ ls, lex 0 "a and (not".toList = .ok ls ∧
      ∃ rest ≠ [], ∃ n e, Derives .expr (ls.map (·.token) ++ rest) n e := by
  have hstray : parse "a\u3000&b" = .error (.unexpectedChar 4 '&') := by decide +kernel
  have hword : parse "a\u3000not b" = .error (.unexpectedToken 4 .not .connective) := by
    decide +kernel
  have hend : parse "a and (not" = .error .unexpectedEnd := by decide +kernel
  obtain ⟨hchar, -, -, -, -⟩ := @parse_error_pointsAt "a\u3000&b" (by decide +kernel)
  obtain ⟨-, -, -, htoken, -⟩ := @parse_error_pointsAt "a\u3000not b" (by decide +kernel)
  obtain ⟨-, -, -, -, hawaits⟩ := @parse_error_pointsAt "a and (not" (by decide +kernel)
  exact ⟨(hchar _ _).mp hstray, htoken _ _ _ hword, hawaits hend⟩

end CiPlan.Selector
