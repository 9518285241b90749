import CiPlan.Proofs.Except
import CiPlan.Selector.Token

/-!
# Texts and their tokens

A word ends where no identifier character follows, so what is written after a word decides whether it
stands by itself.  `Spells` is therefore about a text with whatever may come behind it, and two texts
that are written one after the other with a blank or a parenthesis between them spell their tokens
one after the other.

Main results: `Spells` is kept by the ways in which a text is put together (`spells_term`,
`Spells.parens`, `Spells.append_connective`), and the words of a text are terms (`isTerm_of_lex`).
-/

namespace CiPlan.Selector

open Text (isBlank)

/-- The text can be the name of a term: it has identifier characters only, at least one, and is no
keyword. -/
structure IsTerm (name : String) : Prop where
  nonempty : name ≠ ""
  chars : ∀ c ∈ name.toList, isWordChar c = true
  not_and : name ≠ "and"
  not_or : name ≠ "or"
  not_not : name ≠ "not"

instance (name : String) : Decidable (IsTerm name) :=
  decidable_of_iff
    (name ≠ "" ∧ name.toList.all isWordChar = true ∧ name ≠ "and" ∧ name ≠ "or" ∧ name ≠ "not")
    ⟨fun ⟨hne, hchars, hand, hor, hnot⟩ => ⟨hne, List.all_eq_true.mp hchars, hand, hor, hnot⟩,
      fun h => ⟨h.nonempty, List.all_eq_true.mpr h.chars, h.not_and, h.not_or, h.not_not⟩⟩

/-- The characters are read as the tokens, wherever they begin. -/
def Lexes (cs : List Char) (ts : List Token) : Prop :=
  ∀ pos, ∃ ls, lex pos cs = .ok ls ∧ ls.map (·.token) = ts

/-- A word that stands before the characters ends there. -/
def Separated (cs : List Char) : Prop :=
  ∀ c ∈ cs.head?, isWordChar c = false

/-- The text is read as the tokens, also when more follows that is separated from it. -/
def Spells (text : String) (ts : List Token) : Prop :=
  ∀ cs us, Separated cs → Lexes cs us → Lexes (text.toList ++ cs) (ts ++ us)

section Characters

variable {cs : List Char} {ts : List Token} {c : Char}

theorem lexes_nil : Lexes [] [] :=
  fun pos => ⟨[], by rw [lex], rfl⟩

theorem separated_nil : Separated [] :=
  fun _ h => nomatch h

theorem separated_cons (h : isWordChar c = false) : Separated (c :: cs) := by
  intro d hd
  cases hd
  exact h

theorem Lexes.blank (h : Lexes cs ts) (hc : isBlank c = true) : Lexes (c :: cs) ts := by
  intro pos
  obtain ⟨ls, hls, htokens⟩ := h (pos + c.utf8Size)
  exact ⟨ls, by rw [lex, if_pos hc, hls], htokens⟩

theorem Lexes.single (h : Lexes cs ts) {token : Token} (hc : isBlank c = false)
    (htoken : Token.ofChar? c = some token) : Lexes (c :: cs) (token :: ts) := by
  intro pos
  obtain ⟨ls, hls, htokens⟩ := h (pos + c.utf8Size)
  refine ⟨⟨token, pos⟩ :: ls, ?_, by rw [List.map_cons, htokens]⟩
  rw [lex, if_neg (by simp [hc]), htoken]
  simp only [hls]
  rfl

theorem isBlank_of_isWordChar (h : isWordChar c = true) : isBlank c = false := by
  cases hb : isBlank c with
  | false => rfl
  | true => rw [isWordChar_of_isBlank hb] at h; cases h

theorem ofChar?_of_isWordChar (h : isWordChar c = true) : Token.ofChar? c = none := by
  unfold Token.ofChar?
  split
  · next hc => subst hc; revert h; decide
  · split
    · next hc => subst hc; revert h; decide
    · split
      · next hc => subst hc; revert h; decide
      · rfl

theorem takeWhile_append_separated {word : List Char} (hw : ∀ c ∈ word, isWordChar c = true)
    (hs : Separated cs) : (word ++ cs).takeWhile isWordChar = word := by
  rw [List.takeWhile_append_of_pos hw]
  cases cs with
  | nil => simp
  | cons c cs => simp [hs c rfl]

theorem dropWhile_append_separated {word : List Char} (hw : ∀ c ∈ word, isWordChar c = true)
    (hs : Separated cs) : (word ++ cs).dropWhile isWordChar = cs := by
  rw [List.dropWhile_append_of_pos hw]
  cases cs with
  | nil => simp
  | cons c cs => simp [hs c rfl]

/-- Identifier characters before a separated text are one word. -/
theorem Lexes.word (h : Lexes cs ts) (hs : Separated cs) {word : List Char} (hne : word ≠ [])
    (hw : ∀ c ∈ word, isWordChar c = true) :
    Lexes (word ++ cs) (.ofWord (String.ofList word) :: ts) := by
  intro pos
  match word, hne with
  | c :: word, _ =>
    have hc : isWordChar c = true := hw c List.mem_cons_self
    have hrest : ∀ d ∈ word, isWordChar d = true := fun d hd => hw d (List.mem_cons_of_mem _ hd)
    obtain ⟨ls, hls, htokens⟩ := h (pos + byteLength (c :: word))
    refine ⟨⟨.ofWord (String.ofList (c :: word)), pos⟩ :: ls, ?_, by rw [List.map_cons, htokens]⟩
    rw [List.cons_append, lex, if_neg (by simp [isBlank_of_isWordChar hc]),
      ofChar?_of_isWordChar hc]
    simp only [if_pos hc, takeWhile_append_separated hrest hs, dropWhile_append_separated hrest hs,
      hls]
    rfl

end Characters

section Texts

theorem Token.ofWord_of_isTerm {name : String} (h : IsTerm name) :
    Token.ofWord name = .word name := by
  rw [Token.ofWord, if_neg h.not_and, if_neg h.not_or, if_neg h.not_not]

/-- Identifier characters are one token, a keyword or a word. -/
theorem spells_of_isWordChar {name : String} {token : Token} (hne : name ≠ "")
    (hchars : name.toList.all isWordChar = true) (htoken : Token.ofWord name = token) :
    Spells name [token] := by
  intro cs us hs hcs
  have hne' : name.toList ≠ [] := by simpa using hne
  have hword := hcs.word hs hne' (List.all_eq_true.mp hchars)
  rwa [String.ofList_toList, htoken] at hword

theorem spells_term {name : String} (h : IsTerm name) : Spells name [.word name] :=
  spells_of_isWordChar h.nonempty (List.all_eq_true.mpr h.chars) (Token.ofWord_of_isTerm h)

theorem spells_not : Spells "not" [.not] :=
  spells_of_isWordChar (by decide) (by decide) (by decide)

theorem spells_and : Spells "and" [.and] :=
  spells_of_isWordChar (by decide) (by decide) (by decide)

theorem spells_or : Spells "or" [.or] :=
  spells_of_isWordChar (by decide) (by decide) (by decide)

theorem spells_star : Spells "*" [.star] :=
  fun _ _ _ hcs => hcs.single (by decide) (by decide)

/-- Parentheses around a text are a token each. -/
theorem Spells.parens {text : String} {ts : List Token} (h : Spells text ts) :
    Spells ("(" ++ text ++ ")") (.leftParen :: (ts ++ [.rightParen])) := by
  intro cs us hs hcs
  have hclosed : Lexes (')' :: cs) (.rightParen :: us) := hcs.single (by decide) (by decide)
  have htext := h _ _ (separated_cons (by decide)) hclosed
  have hopened : Lexes ('(' :: (text.toList ++ ')' :: cs)) (.leftParen :: (ts ++ .rightParen :: us)) :=
    htext.single (by decide) (by decide)
  simpa using hopened

/-- A blank keeps the tokens of two texts apart. -/
theorem Spells.append_blank {text text' : String} {ts ts' : List Token} (h : Spells text ts)
    (h' : Spells text' ts') : Spells (text ++ " " ++ text') (ts ++ ts') := by
  intro cs us hs hcs
  have hblank : Lexes (' ' :: (text'.toList ++ cs)) (ts' ++ us) := (h' cs us hs hcs).blank (by decide)
  have hboth := h _ _ (separated_cons (by decide)) hblank
  simpa using hboth

/-- A connective between two texts, with a blank on both of its sides. -/
theorem Spells.append_connective {text name text' : String} {ts ts' : List Token} {token : Token}
    (h : Spells text ts) (hname : Spells name [token]) (h' : Spells text' ts') :
    Spells (text ++ (" " ++ name ++ " ") ++ text') (ts ++ token :: ts') := by
  have hall := (h.append_blank hname).append_blank h'
  simpa [String.append_assoc] using hall

theorem Spells.lexes {text : String} {ts : List Token} (h : Spells text ts) :
    Lexes text.toList ts := by
  simpa using h [] [] separated_nil lexes_nil

end Texts

section Words

theorem ofWord_eq_word {name name' : String} (h : Token.ofWord name = .word name') :
    name = name' ∧ name ≠ "and" ∧ name ≠ "or" ∧ name ≠ "not" := by
  unfold Token.ofWord at h
  split at h
  · cases h
  · split at h
    · cases h
    · split at h
      · cases h
      · cases h
        exact ⟨rfl, ‹_›, ‹_›, ‹_›⟩

theorem ofChar?_ne_word {c : Char} {name : String} : Token.ofChar? c ≠ some (.word name) := by
  unfold Token.ofChar?
  split
  · nofun
  · split
    · nofun
    · split <;> nofun

/-- The words of a text are terms. -/
theorem isTerm_of_lex {pos : Nat} {cs : List Char} {ls : List Located} (h : lex pos cs = .ok ls)
    {name : String} (hname : .word name ∈ ls.map (·.token)) : IsTerm name := by
  fun_induction lex pos cs generalizing ls with
  | case1 => cases h; cases hname
  | case2 pos c cs hc ih => exact ih h hname
  | case3 pos c cs hc token htoken ih =>
      obtain ⟨rest, hrest, hls⟩ := map_eq_ok.mp h
      subst hls
      rcases List.mem_cons.mp hname with hhead | htail
      · have hword : token = .word name := hhead.symm
        rw [hword] at htoken
        exact absurd htoken ofChar?_ne_word
      · exact ih hrest htail
  | case4 pos c cs hc hnone hw word =>
      rename_i ih
      obtain ⟨rest, hrest, hls⟩ := map_eq_ok.mp h
      subst hls
      rcases List.mem_cons.mp hname with hhead | htail
      · obtain ⟨hofList, hand, hor, hnot⟩ := ofWord_eq_word (Eq.symm hhead)
        subst hofList
        refine ⟨by simp [word], fun d hd => ?_, hand, hor, hnot⟩
        rw [String.toList_ofList] at hd
        rcases List.mem_cons.mp hd with rfl | hd
        · exact hw
        · exact List.all_eq_true.mp (List.all_takeWhile) d hd
      · exact ih hrest htail
  | case5 => cases h

end Words

end CiPlan.Selector
