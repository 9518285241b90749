import CiPlan.Proofs.Language

/-!
# Where the tokens of a text stand

Reading a text into tokens can be undone: each token stands at its offset as it is written, and
between the tokens there are blanks only (`LaidOut`).  How much of a word was read shows in what
follows it, which is no identifier character, so two words never touch.

That the tokens do not depend on the blanks between them is the other half: the texts of the tokens
with single spaces between them are read as the same tokens (`spells_intercalate`).

Main result: `lex_losesNothing`.
-/

namespace CiPlan.Selector

open Text (isBlank)

/-! ## Tokens as they are written -/

namespace Token

/-- The token consists of identifier characters: it is a keyword or the name of a term. -/
def isWord : Token → Bool
  | leftParen | rightParen | star => false
  | and | or | not | word _ => true

/-- Some text has this token: a name is one that a term can have. -/
def IsWritten : Token → Prop
  | word name => IsTerm name
  | _ => True

theorem text_ofWord (name : String) : (ofWord name).text = name := by
  unfold ofWord
  split_ifs with hand hor hnot
  · exact hand.symm
  · exact hor.symm
  · exact hnot.symm
  · rfl

theorem isWritten_ofWord {name : String} (hne : name ≠ "")
    (hchars : ∀ c ∈ name.toList, isWordChar c = true) : (ofWord name).IsWritten := by
  unfold ofWord
  split_ifs with hand hor hnot
  · trivial
  · trivial
  · trivial
  · exact ⟨hne, hchars, hand, hor, hnot⟩

theorem of_ofChar? {c : Char} {t : Token} (h : ofChar? c = some t) :
    t.text.toList = [c] ∧ t.isWord = false ∧ t.IsWritten := by
  unfold ofChar? at h
  split_ifs at h with hleft hright hstar
  · cases h
    exact ⟨by rw [hleft]; rfl, rfl, trivial⟩
  · cases h
    exact ⟨by rw [hright]; rfl, rfl, trivial⟩
  · cases h
    exact ⟨by rw [hstar]; rfl, rfl, trivial⟩

/-- A word has identifier characters only, and at least one. -/
theorem IsWritten.chars {t : Token} (h : t.IsWritten) (hword : t.isWord = true) :
    t.text ≠ "" ∧ ∀ c ∈ t.text.toList, isWordChar c = true := by
  cases t with
  | leftParen | rightParen | star => cases hword
  | and => exact ⟨by decide, isWordChar_of_mem_keyword (t := .and) (by decide)⟩
  | or => exact ⟨by decide, isWordChar_of_mem_keyword (t := .or) (by decide)⟩
  | not => exact ⟨by decide, isWordChar_of_mem_keyword (t := .not) (by decide)⟩
  | word name => exact ⟨IsTerm.nonempty h, IsTerm.chars h⟩

theorem IsWritten.text_ne_empty {t : Token} (h : t.IsWritten) : t.text ≠ "" := by
  cases hword : t.isWord with
  | true => exact (h.chars hword).1
  | false =>
      cases t with
      | leftParen | rightParen | star => decide
      | and | or | not | word => cases hword

theorem IsWritten.spells {t : Token} (h : t.IsWritten) : Spells t.text [t] := by
  cases t with
  | leftParen | rightParen | star => exact fun _ _ _ hcs => hcs.single (by decide) (by decide)
  | and => exact spells_and
  | or => exact spells_or
  | not => exact spells_not
  | word name => exact spells_term h

end Token

/-- Single spaces keep the tokens apart. -/
theorem spells_intercalate {ts : List Token} (h : ∀ t ∈ ts, t.IsWritten) :
    Spells (" ".intercalate (ts.map Token.text)) ts := by
  induction ts with
  | nil => exact fun _ _ _ hcs => hcs
  | cons t ts ih =>
      obtain ⟨ht, hts⟩ := List.forall_mem_cons.mp h
      cases ts with
      | nil => simpa using ht.spells
      | cons u ts =>
          rw [List.map_cons, List.map_cons, String.intercalate_cons_cons, ← List.map_cons]
          exact ht.spells.append_blank (ih hts)

/-! ## Tokens at their offsets -/

/-- The characters from byte `pos` on are the texts of the tokens at their offsets, with nothing but
blanks around them.  A word reaches to where no identifier character follows. -/
inductive LaidOut : (pos : Nat) → List Char → List Located → Prop
  | blanks {pos cs} (h : cs.all isBlank = true) : LaidOut pos cs []
  | token {pos gap t cs ls} (hgap : gap.all isBlank = true) (ht : t.IsWritten)
      (hs : t.isWord = true → Separated cs)
      (h : LaidOut (pos + byteLength gap + byteLength t.text.toList) cs ls) :
      LaidOut pos (gap ++ (t.text.toList ++ cs)) (⟨t, pos + byteLength gap⟩ :: ls)

section LaidOut

variable {pos : Nat} {cs : List Char} {ls before after : List Located}

/-- A token at the very front. -/
theorem LaidOut.cons {t : Token} (ht : t.IsWritten) (hs : t.isWord = true → Separated cs)
    (h : LaidOut (pos + byteLength t.text.toList) cs ls) :
    LaidOut pos (t.text.toList ++ cs) (⟨t, pos⟩ :: ls) :=
  @LaidOut.token pos [] t cs ls rfl ht hs h

theorem LaidOut.blank {c : Char} (hc : isBlank c = true)
    (h : LaidOut (pos + c.utf8Size) cs ls) : LaidOut pos (c :: cs) ls := by
  generalize hpos : pos + c.utf8Size = pos' at h
  cases h with
  | blanks h => exact .blanks (by simpa [hc] using h)
  | @token _ gap t cs ls hgap ht hs h =>
      have hlen : pos + byteLength (c :: gap) = pos' + byteLength gap := by
        rw [byteLength, ← hpos, Nat.add_assoc]
      have hall : (c :: gap).all isBlank = true := by simpa [hc] using hgap
      rw [← hlen] at h ⊢
      exact .token hall ht hs h

/-- What the lexer reads is laid out where it has been read. -/
theorem laidOut_of_lex (h : lex pos cs = .ok ls) : LaidOut pos cs ls := by
  fun_induction lex pos cs generalizing ls with
  | case1 => cases h; exact .blanks rfl
  | case2 pos c cs hc ih => exact (ih h).blank hc
  | case3 pos c cs hc token htoken ih =>
      obtain ⟨rest, hrest, rfl⟩ := map_eq_ok.mp h
      obtain ⟨htext, hword, hwritten⟩ := Token.of_ofChar? htoken
      have hlen : byteLength token.text.toList = c.utf8Size := by
        rw [htext]
        rfl
      have hlaid := LaidOut.cons hwritten (by simp [hword]) (hlen ▸ ih hrest)
      rwa [htext] at hlaid
  | case4 pos c cs hc hnone hw word =>
      rename_i ih
      obtain ⟨rest, hrest, rfl⟩ := map_eq_ok.mp h
      have htext : (Token.ofWord (String.ofList word)).text.toList = word := by
        rw [Token.text_ofWord, String.toList_ofList]
      have hchars : ∀ d ∈ word, isWordChar d = true := by
        intro d hd
        rcases List.mem_cons.mp hd with rfl | hd
        · exact hw
        · exact List.all_eq_true.mp List.all_takeWhile d hd
      have hwritten : (Token.ofWord (String.ofList word)).IsWritten :=
        Token.isWritten_ofWord (by simp [word]) (by rwa [String.toList_ofList])
      have hlaid := LaidOut.cons hwritten (fun _ => separated_dropWhile cs)
        (htext.symm ▸ ih hrest)
      have hwhole : word ++ cs.dropWhile isWordChar = c :: cs := by
        show c :: (cs.takeWhile isWordChar ++ cs.dropWhile isWordChar) = c :: cs
        rw [List.takeWhile_append_dropWhile]
      rwa [htext, hwhole] at hlaid
  | case5 => cases h

theorem LaidOut.isWritten (h : LaidOut pos cs ls) : ∀ l ∈ ls, l.token.IsWritten := by
  induction h with
  | blanks => nofun
  | token _ ht _ _ ih => exact List.forall_mem_cons.mpr ⟨ht, ih⟩

theorem LaidOut.le_pos (h : LaidOut pos cs ls) : ∀ l ∈ ls, pos ≤ l.pos := by
  induction h with
  | blanks => nofun
  | token _ _ _ _ ih =>
      refine List.forall_mem_cons.mpr ⟨Nat.le_add_right _ _, fun l hl => ?_⟩
      have := ih l hl
      omega

theorem byteLength_pos (h : cs ≠ []) : 0 < byteLength cs := by
  cases cs with
  | nil => exact absurd rfl h
  | cons c cs =>
      have := c.utf8Size_pos
      rw [byteLength]
      omega

/-- Each token stands behind the ones before it. -/
theorem LaidOut.pairwise (h : LaidOut pos cs ls) : ls.Pairwise (·.pos < ·.pos) := by
  induction h with
  | blanks => exact .nil
  | @token pos gap t cs ls _ ht _ h ih =>
      refine List.pairwise_cons.mpr ⟨fun l hl => ?_, ih⟩
      have hpos := h.le_pos l hl
      have hne : t.text.toList ≠ [] := by simpa using ht.text_ne_empty
      have htext := byteLength_pos hne
      show pos + byteLength gap < l.pos
      omega

/-- Behind some of the tokens the others are laid out. -/
theorem LaidOut.drop (h : LaidOut pos cs (before ++ after)) :
    ∃ front back, cs = front ++ back ∧ LaidOut (pos + byteLength front) back after := by
  induction before generalizing pos cs with
  | nil => exact ⟨[], cs, rfl, h⟩
  | cons l before ih =>
      cases h with
      | @token _ gap t cs _ _ _ _ h =>
          obtain ⟨front, back, rfl, hback⟩ := ih h
          refine ⟨gap ++ t.text.toList ++ front, back, by simp, ?_⟩
          rwa [byteLength_append, byteLength_append, ← Nat.add_assoc, ← Nat.add_assoc]

/-- A token can be read off the characters at its offset. -/
theorem LaidOut.exists_text {l : Located} (h : LaidOut pos cs (before ++ l :: after)) :
    ∃ front back, cs = front ++ l.token.text.toList ++ back ∧ l.pos = pos + byteLength front := by
  obtain ⟨front, back, rfl, hback⟩ := h.drop
  cases hback with
  | @token _ gap t cs _ _ _ _ _ =>
      refine ⟨front ++ gap, cs, by simp, ?_⟩
      rw [byteLength_append, Nat.add_assoc]

/-- Two words that follow each other have a blank between them. -/
theorem LaidOut.exists_gap {t u : Located} (h : LaidOut pos cs (before ++ t :: u :: after))
    (ht : t.token.isWord = true) (hu : u.token.isWord = true) :
    ∃ front gap back, gap ≠ [] ∧ gap.all isBlank = true ∧
      cs = front ++ t.token.text.toList ++ gap ++ u.token.text.toList ++ back ∧
      t.pos = pos + byteLength front ∧
      u.pos = t.pos + byteLength t.token.text.toList + byteLength gap := by
  obtain ⟨front, back, rfl, hback⟩ := h.drop
  cases hback with
  | @token _ gap t _ _ _ _ hs hrest =>
      cases hrest with
      | @token _ gap' u cs _ hgap' hwritten _ _ =>
          refine ⟨front ++ gap, gap', cs, fun hnil => ?_, hgap', by simp, ?_, rfl⟩
          · -- Without a blank the first word would go on with the characters of the second.
            obtain ⟨hne, hchars⟩ := hwritten.chars hu
            have htext : u.text.toList ≠ [] := by simpa using hne
            obtain ⟨c, cs', hcs'⟩ := List.exists_cons_of_ne_nil htext
            have hfirst : isWordChar c = false := hs ht c (by simp [hnil, hcs'])
            have hword : isWordChar c = true := hchars c (by simp [hcs'])
            rw [hfirst] at hword
            cases hword
          · rw [byteLength_append, Nat.add_assoc]

end LaidOut

theorem utf8ByteSize_ofList (cs : List Char) : (String.ofList cs).utf8ByteSize = byteLength cs := by
  rw [← byteLength_toList, String.toList_ofList]

/-- A token that is read from a text stands at its offset. -/
theorem exists_text_of_lex {input : String} {before after : List Located} {l : Located}
    (h : lex 0 input.toList = .ok (before ++ l :: after)) :
    ∃ front back : String, input = front ++ l.token.text ++ back ∧ l.pos = front.utf8ByteSize := by
  obtain ⟨front, back, hinput, hpos⟩ := (laidOut_of_lex h).exists_text
  refine ⟨String.ofList front, String.ofList back, ?_, ?_⟩
  · apply String.toList_inj.mp
    simpa using hinput
  · rw [hpos, Nat.zero_add, utf8ByteSize_ofList]

/-- Reading a text into tokens loses nothing.  The offsets of the tokens increase and lie between
characters; the text is that of the tokens at their offsets, with nothing but blanks around them,
and with at least one blank between two words; and the texts of the tokens with single spaces
between them are read as the same tokens. -/
theorem lex_losesNothing {input : String} {ls : List Located} (h : lex 0 input.toList = .ok ls) :
    ls.Pairwise (·.pos < ·.pos) ∧
    (∀ l ∈ ls, String.Pos.Raw.IsValid input ⟨l.pos⟩) ∧
    LaidOut 0 input.toList ls ∧
    (∀ before t u after, ls = before ++ t :: u :: after →
      t.token.isWord = true → u.token.isWord = true →
      ∃ front gap back : String, gap ≠ "" ∧ Text.isBlankText gap = true ∧
        input = front ++ t.token.text ++ gap ++ u.token.text ++ back ∧
        t.pos = front.utf8ByteSize ∧
        u.pos = t.pos + t.token.text.utf8ByteSize + gap.utf8ByteSize) ∧
    ∃ ls', lex 0 (" ".intercalate (ls.map (·.token.text))).toList = .ok ls' ∧
      ls'.map (·.token) = ls.map (·.token) := by
  have hlaid := laidOut_of_lex h
  have hwritten : ∀ t ∈ ls.map (·.token), t.IsWritten := by
    simpa using hlaid.isWritten
  refine ⟨hlaid.pairwise, fun l hl => ?_, hlaid, ?_, ?_⟩
  · obtain ⟨before, after, rfl⟩ := List.append_of_mem hl
    obtain ⟨front, back, hinput, hpos⟩ := exists_text_of_lex h
    refine String.Pos.Raw.isValid_iff_exists_append.mpr ⟨front, l.token.text ++ back, ?_, ?_⟩
    · rw [hinput, String.append_assoc]
    · rw [hpos]
      rfl
  · rintro before t u after rfl ht hu
    obtain ⟨front, gap, back, hne, hgap, hinput, htpos, hupos⟩ := hlaid.exists_gap ht hu
    refine ⟨String.ofList front, String.ofList gap, String.ofList back, by simpa using hne, ?_, ?_,
      ?_, ?_⟩
    · rwa [Text.isBlankText, String.toList_ofList]
    · apply String.toList_inj.mp
      simp [hinput]
    · rw [htpos, Nat.zero_add, utf8ByteSize_ofList]
    · rw [hupos, byteLength_toList, utf8ByteSize_ofList]
  · have hlexes := (spells_intercalate hwritten).lexes 0
    rwa [List.map_map] at hlexes

/-- Words that touch only symbols, a word that begins like a keyword and a wide blank between two
keywords. -/
theorem lex_losesNothing_dense :
    ∃ ls, lex 0 "(a)or\u3000not*notb".toList = .ok ls ∧ ls.map (·.pos) = [0, 1, 2, 3, 8, 11, 12] ∧
      ls.map (·.token) =
        [.leftParen, .word "a", .rightParen, .or, .not, .star, .word "notb"] ∧
      LaidOut 0 "(a)or\u3000not*notb".toList ls ∧
      (∃ front gap back : String, gap ≠ "" ∧ Text.isBlankText gap = true ∧
        "(a)or\u3000not*notb" = front ++ Token.or.text ++ gap ++ Token.not.text ++ back ∧
        3 = front.utf8ByteSize ∧ 8 = 3 + Token.or.text.utf8ByteSize + gap.utf8ByteSize) ∧
      ∃ ls', lex 0 (" ".intercalate (ls.map (·.token.text))).toList = .ok ls' ∧
        ls'.map (·.token) = ls.map (·.token) := by
  have hlex : lex 0 "(a)or\u3000not*notb".toList =
      .ok ([⟨.leftParen, 0⟩, ⟨.word "a", 1⟩, ⟨.rightParen, 2⟩] ++ ⟨.or, 3⟩ :: ⟨.not, 8⟩ ::
        [⟨.star, 11⟩, ⟨.word "notb", 12⟩]) := by
    decide +kernel
  obtain ⟨-, -, hlaid, hgap, hagain⟩ := lex_losesNothing hlex
  have hblank := hgap _ _ _ _ rfl rfl rfl
  exact ⟨_, hlex, rfl, rfl, hlaid, hblank, hagain⟩

end CiPlan.Selector
