import CiPlan.Text.Blank

/-!
# Tokens of a selector expression

A selector text is a sequence of parentheses, stars and words, with blanks between them.  A word is
a maximal run of identifier characters; `and`, `or` and `not` are keywords, in lower case only.

Each token carries the byte offset at which it starts.  Main statements: `lex_append_blanks` and
`lex_blanks_append`, blanks around a text change no token but shift their offsets.
-/

namespace CiPlan.Selector

open Text (isBlank)

/-- The kinds of tokens. -/
inductive Token where
  | leftParen
  | rightParen
  | star
  | and
  | or
  | not
  | word (name : String)
  deriving DecidableEq, Repr

/-- The characters of words: ASCII letters and digits, and the punctuation of test names. -/
def isWordChar (c : Char) : Bool :=
  c.isAlphanum || c == '_' || c == '-' || c == '.' || c == '[' || c == ']' || c == ':' || c == '/'

/-- The token of a whole word. -/
def Token.ofWord (name : String) : Token :=
  if name = "and" then .and
  else if name = "or" then .or
  else if name = "not" then .not
  else .word name

/-- The token of a character that is one by itself. -/
def Token.ofChar? (c : Char) : Option Token :=
  if c = '(' then some .leftParen
  else if c = ')' then some .rightParen
  else if c = '*' then some .star
  else none

/-- The text of a token. -/
def Token.text : Token → String
  | .leftParen => "("
  | .rightParen => ")"
  | .star => "*"
  | .and => "and"
  | .or => "or"
  | .not => "not"
  | .word name => name

/-- A token as error messages name it. -/
def Token.display : Token → String
  | .word name => "identifier '" ++ name ++ "'"
  | token => "'" ++ token.text ++ "'"

/-- A token and the byte offset of its first character. -/
structure Located where
  token : Token
  pos : Nat
  deriving DecidableEq, Repr

/-- How many bytes the characters take in UTF-8. -/
def byteLength : List Char → Nat
  | [] => 0
  | c :: cs => c.utf8Size + byteLength cs

/-- A character that belongs to no token, and its byte offset. -/
structure Stray where
  ch : Char
  pos : Nat
  deriving DecidableEq, Repr

/-- The tokens of a text that starts at byte `pos`, or the first character that belongs to none. -/
def lex (pos : Nat) : List Char → Except Stray (List Located)
  | [] => .ok []
  | c :: cs =>
    if isBlank c then lex (pos + c.utf8Size) cs
    else match Token.ofChar? c with
      | some token => (⟨token, pos⟩ :: ·) <$> lex (pos + c.utf8Size) cs
      | none =>
        if isWordChar c then
          let word := c :: cs.takeWhile isWordChar
          (⟨.ofWord (String.ofList word), pos⟩ :: ·) <$>
            lex (pos + byteLength word) (cs.dropWhile isWordChar)
        else .error ⟨c, pos⟩
termination_by cs => cs.length
decreasing_by
  · simp
  · simp
  · have := (List.dropWhile_sublist isWordChar (l := cs)).length_le
    simp only [List.length_cons]
    omega

section Blanks

private theorem ascii_of_isWordChar {c : Char} (h : isWordChar c = true) :
    0x21 ≤ c.toNat ∧ c.toNat < 0x80 := by
  simp only [isWordChar, Bool.or_eq_true, beq_iff_eq] at h
  rcases h with ((((((h | h) | h) | h) | h) | h) | h) | h
  · have hranges : (decide ('A'.val ≤ c.val ∧ c.val ≤ 'Z'.val) ||
        (decide ('a'.val ≤ c.val) && decide (c.val ≤ 'z'.val)) ||
        (decide ('0'.val ≤ c.val) && decide (c.val ≤ '9'.val))) = true := h
    simp only [Bool.or_eq_true, Bool.and_eq_true, decide_eq_true_eq,
      UInt32.le_iff_toNat_le] at hranges
    have hv : c.val.toNat = c.toNat := rfl
    simp only [hv] at hranges
    simp at hranges
    omega
  all_goals subst h; decide

private theorem not_ascii_of_isBlank {c : Char} (h : isBlank c = true) :
    c.toNat ≤ 0x20 ∨ 0x80 ≤ c.toNat := by
  simp only [isBlank, Bool.or_eq_true, Bool.and_eq_true, decide_eq_true_eq, beq_iff_eq] at h
  omega

/-- A blank is no word character. -/
theorem isWordChar_of_isBlank {c : Char} (h : isBlank c = true) : isWordChar c = false := by
  cases hw : isWordChar c with
  | false => rfl
  | true =>
    have := ascii_of_isWordChar hw
    have := not_ascii_of_isBlank h
    omega

/-- Blanks at the front of a text only shift the offsets of its tokens. -/
theorem lex_blanks_append {front : List Char} (hf : front.all isBlank = true) (pos : Nat)
    (cs : List Char) : lex pos (front ++ cs) = lex (pos + byteLength front) cs := by
  induction front generalizing pos with
  | nil => simp [byteLength]
  | cons c front ih =>
    have hc : isBlank c = true ∧ front.all isBlank = true := by simpa using hf
    rw [List.cons_append, lex, if_pos hc.1, ih hc.2]
    simp [byteLength, Nat.add_assoc]

private theorem takeWhile_append_blanks {back : List Char} (hb : back.all isBlank = true)
    (cs : List Char) : (cs ++ back).takeWhile isWordChar = cs.takeWhile isWordChar := by
  induction cs with
  | nil =>
    cases back with
    | nil => rfl
    | cons c back =>
      have hc : isBlank c = true ∧ back.all isBlank = true := by simpa using hb
      simp [isWordChar_of_isBlank hc.1]
  | cons c cs ih =>
    by_cases h : isWordChar c <;> simp [h, ih]

private theorem dropWhile_append_blanks {back : List Char} (hb : back.all isBlank = true)
    (cs : List Char) : (cs ++ back).dropWhile isWordChar = cs.dropWhile isWordChar ++ back := by
  induction cs with
  | nil =>
    cases back with
    | nil => rfl
    | cons c back =>
      have hc : isBlank c = true ∧ back.all isBlank = true := by simpa using hb
      simp [isWordChar_of_isBlank hc.1]
  | cons c cs ih =>
    by_cases h : isWordChar c <;> simp [h, ih]

private theorem lex_blanks {back : List Char} (hb : back.all isBlank = true) (pos : Nat) :
    lex pos back = .ok [] := by
  rw [← List.append_nil back, lex_blanks_append hb, lex]

/-- Blanks at the back of a text change nothing. -/
theorem lex_append_blanks {back : List Char} (hb : back.all isBlank = true) (pos : Nat)
    (cs : List Char) : lex pos (cs ++ back) = lex pos cs := by
  fun_induction lex pos cs with
  | case1 pos => simpa using lex_blanks hb pos
  | case2 pos c cs h ih => rw [List.cons_append, lex, if_pos h, ih]
  | case3 pos c cs h token ht ih => rw [List.cons_append, lex, if_neg h, ht]; simp only [ih]
  | case4 pos c cs h ht hw word ih =>
    rw [List.cons_append, lex, if_neg h, ht]
    simp only [if_pos hw, takeWhile_append_blanks hb, dropWhile_append_blanks hb]
    rw [ih]
  | case5 pos c cs h ht hw =>
    rw [List.cons_append, lex, if_neg h, ht]
    simp only [if_neg hw]

/-- The tokens of a text, as opposed to their offsets, do not depend on where it starts. -/
theorem lex_tokens {pos : Nat} {cs : List Char} {ls : List Located} (h : lex pos cs = .ok ls)
    (pos' : Nat) : ∃ ls', lex pos' cs = .ok ls' ∧ ls'.map (·.token) = ls.map (·.token) := by
  fun_induction lex pos cs generalizing ls pos' with
  | case1 pos => exact ⟨[], by rw [lex], by simp_all⟩
  | case2 pos c cs hc ih =>
    obtain ⟨ls', h1, h2⟩ := ih h (pos' + c.utf8Size)
    exact ⟨ls', by rw [lex, if_pos hc, h1], h2⟩
  | case3 pos c cs hc token ht ih =>
    rcases hl : lex (pos + c.utf8Size) cs with e | tl
    · rw [hl] at h; cases h
    · rw [hl] at h
      obtain ⟨ls', h1, h2⟩ := ih hl (pos' + c.utf8Size)
      refine ⟨⟨token, pos'⟩ :: ls', by rw [lex, if_neg hc, ht]; simp only [h1]; rfl, ?_⟩
      cases h
      simp [h2]
  | case4 pos c cs hc ht hw word =>
    rename_i ih
    rcases hl : lex (pos + byteLength word) (cs.dropWhile isWordChar) with e | tl
    · rw [hl] at h; cases h
    · rw [hl] at h
      obtain ⟨ls', h1, h2⟩ := ih hl (pos' + byteLength word)
      refine ⟨⟨.ofWord (String.ofList word), pos'⟩ :: ls', ?_, ?_⟩
      · rw [lex, if_neg hc, ht]; simp only [if_pos hw]; rw [h1]; rfl
      · cases h
        simp [h2]
  | case5 pos c cs hc ht hw => cases h

end Blanks

end CiPlan.Selector
