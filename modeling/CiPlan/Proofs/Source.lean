import CiPlan.Matrix
import CiPlan.Proofs.Language
import CiPlan.Run.Command

/-!
# The text of a selector

A selector is kept, shown and handed on as its text, which is what it was read from without the blanks
around it.  Nothing is lost that way: the text is read as the selector itself (`parse_self`), by a
matrix that is read again (`Bucket.read_self`) and by the program that runs the tests
(`TestCommand.parse_of_selectorOption_eq`).

Blanks around a text change neither whether it is accepted nor what it is read as, except that they
count towards its length.  The reason is that a text with other blanks around it has the same tokens
(`lexes_blanks_iff`), although they stand elsewhere, and the same trimmed text.

Main result: `parse_source`.
-/

namespace CiPlan

namespace Selector

/-! ## Reading a text again -/

/-- A selector is determined by its text. -/
theorem eq_of_source_eq {s t : Selector} (h : s.source = t.source) : s = t := by
  obtain ⟨source, e, htrimmed, hspells⟩ := s
  obtain ⟨source', e', htrimmed', hspells'⟩ := t
  cases h
  cases hspells.symm.trans hspells'
  rfl

/-- What is accepted has its text trimmed. -/
theorem parse_eq_ok_iff_source {input : String} {s : Selector} :
    parse input = .ok s ↔
      (∃ e, parseExpr input.toList = .ok e) ∧ s.source = Text.trim input := by
  constructor
  · intro h
    unfold parse at h
    split at h
    · cases h
    · next e hread =>
      cases h
      exact ⟨⟨e, hread⟩, rfl⟩
  · rintro ⟨⟨e, hread⟩, hsource⟩
    unfold parse
    split
    · next hfail =>
      rw [hread] at hfail
      cases hfail
    · exact congrArg Except.ok (eq_of_source_eq hsource.symm)

/-- The text of a selector is read as the selector. -/
theorem parse_self (s : Selector) : parse s.source = .ok s :=
  parse_eq_ok_iff_source.mpr ⟨⟨s.expr, s.spells⟩, s.trimmed.symm⟩

/-! ## Blanks around a text -/

/-- Two texts differ only in the blanks around them. -/
def SameButBlanks (a b : String) : Prop :=
  ∃ text front back front' back' : String,
    (∀ blanks ∈ [front, back, front', back'], Text.isBlankText blanks = true) ∧
      a = front ++ text ++ back ∧ b = front' ++ text ++ back'

section Blanks

variable {front back : String} (hf : Text.isBlankText front = true)
  (hb : Text.isBlankText back = true)
include hf hb

/-- Blanks around a text do not change its tokens. -/
theorem lexes_blanks_iff (text : String) {ts : List Token} :
    Lexes (front ++ text ++ back).toList ts ↔ Lexes text.toList ts := by
  have hlex : ∀ pos, lex pos (front ++ text ++ back).toList =
      lex (pos + byteLength front.toList) text.toList := by
    intro pos
    rw [String.toList_append, String.toList_append, List.append_assoc, lex_blanks_append hf,
      lex_append_blanks hb]
  constructor
  · intro h pos
    obtain ⟨ls, hls, rfl⟩ := h 0
    rw [hlex] at hls
    exact lex_tokens hls pos
  · intro h pos
    rw [hlex]
    exact h _

theorem hasTree_blanks_iff (text : String) {n : Nat} {e : Expr} :
    HasTree (front ++ text ++ back).toList n e ↔ HasTree text.toList n e := by
  simp only [HasTree, scans_iff_lexes, lexes_blanks_iff hf hb]

theorem trim_blanks (text : String) : Text.trim (front ++ text ++ back) = Text.trim text := by
  rw [Text.trim, Text.trim, String.toList_append, String.toList_append, List.append_assoc,
    Text.trimChars_blanks_append hf, Text.trimChars_append_blanks hb]

/-- Blanks around a text make no difference, except that they count. -/
theorem parse_blanks_eq_ok_iff (text : String) (s : Selector) :
    parse (front ++ text ++ back) = .ok s ↔
      (front ++ text ++ back).utf8ByteSize ≤ maxLength ∧
        (∃ e, ∃ n ≤ maxDepth, HasTree text.toList n e) ∧ s.source = Text.trim text := by
  rw [parse_eq_ok_iff_source, trim_blanks hf hb]
  simp only [parseExpr_eq_ok_iff, byteLength_toList, hasTree_blanks_iff hf hb, exists_and_left,
    and_assoc]

end Blanks

/-- Texts that are short enough are read alike when they differ only in the blanks around them. -/
theorem SameButBlanks.parse_iff {a b : String} (h : SameButBlanks a b)
    (ha : a.utf8ByteSize ≤ maxLength) (hb : b.utf8ByteSize ≤ maxLength) (s : Selector) :
    parse a = .ok s ↔ parse b = .ok s := by
  obtain ⟨text, front, back, front', back', hblanks, rfl, rfl⟩ := h
  simp only [List.forall_mem_cons] at hblanks
  obtain ⟨hfront, hback, hfront', hback', -⟩ := hblanks
  rw [parse_blanks_eq_ok_iff hfront hback, parse_blanks_eq_ok_iff hfront' hback',
    and_iff_right ha, and_iff_right hb]

/-- Texts that are short enough and differ only in the blanks around them are both read as one selector,
or neither is accepted. -/
theorem SameButBlanks.parse_cases {a b : String} (h : SameButBlanks a b)
    (ha : a.utf8ByteSize ≤ maxLength) (hb : b.utf8ByteSize ≤ maxLength) :
    (∃ s, parse a = .ok s ∧ parse b = .ok s) ∨
      (∃ e, parse a = .error e) ∧ ∃ e, parse b = .error e := by
  have hread := h.parse_iff ha hb
  cases hparse : parse a with
  | ok s => exact .inl ⟨s, rfl, (hread s).mp hparse⟩
  | error e =>
      refine .inr ⟨⟨e, rfl⟩, ?_⟩
      cases hparse' : parse b with
      | ok s => exact absurd ((hread s).mpr hparse') (by simp [hparse])
      | error e' => exact ⟨e', rfl⟩

end Selector

/-! ## Texts that are handed on -/

/-- A bucket whose selectors are read again from their texts is the same. -/
theorem Bucket.read_self (b : Bucket) :
    Bucket.read b.name b.level b.marker.source (b.keyword.map (·.source)) b.profile b.timeoutSecs
      b.exclusiveGroup = .ok b := by
  have hmarker : selectorOf b.name b.marker.source = .ok b.marker := by
    rw [selectorOf, Selector.parse_self]
    rfl
  rw [read, hmarker]
  obtain ⟨name, level, marker, keyword, profile, timeoutSecs, exclusiveGroup⟩ := b
  cases keyword with
  | none => rfl
  | some s =>
      have hkeyword : selectorOf name s.source = .ok s := by
        rw [selectorOf, Selector.parse_self]
        rfl
      show (do let keyword ← some <$> selectorOf name s.source; _) = _
      rw [hkeyword]
      rfl

/-- The texts that the program which runs the tests is given are read as the selectors. -/
theorem TestCommand.parse_of_selectorOption_eq {option text : String} {s : Selector}
    (h : selectorOption option (some s) = [option, text]) : Selector.parse text = .ok s := by
  rw [selectorOption] at h
  split at h
  · cases h
  · cases h
    exact s.parse_self

namespace Selector

/-- Nothing is lost when a selector is kept as its text.  What is accepted has a text that is read as
the selector itself; and of two texts that are short enough and differ only in the blanks around them
both are read as one selector or neither is accepted.  Buckets are read again from the texts of their
selectors, and the texts that are handed to the program which runs the tests are read as well. -/
theorem parse_source :
    (∀ (input : String) (s : Selector), parse input = .ok s →
      s.source = Text.trim input ∧ parse s.source = .ok s) ∧
    (∀ a b : String, a.utf8ByteSize ≤ 4096 → b.utf8ByteSize ≤ 4096 → SameButBlanks a b →
      (∃ s, parse a = .ok s ∧ parse b = .ok s) ∨
        (∃ e, parse a = .error e) ∧ ∃ e, parse b = .error e) ∧
    (∀ b : Bucket, Bucket.read b.name b.level b.marker.source (b.keyword.map (·.source)) b.profile
      b.timeoutSecs b.exclusiveGroup = .ok b) ∧
    ∀ (option text : String) (s : Selector),
      TestCommand.selectorOption option (some s) = [option, text] → parse text = .ok s := by
  refine ⟨fun input s h => ⟨(parse_eq_ok_iff_source.mp h).2, s.parse_self⟩,
    fun a b ha hb hsame => hsame.parse_cases ha hb, Bucket.read_self, fun option text s h => ?_⟩
  exact TestCommand.parse_of_selectorOption_eq h

/-- Blanks that are not ASCII are left out as well. -/
theorem parse_source_wideBlanks :
    SameButBlanks "\u3000not gpu\u00a0" "not gpu" ∧
      ∃ s, parse "\u3000not gpu\u00a0" = .ok s ∧ s.source = "not gpu" ∧ parse "not gpu" = .ok s := by
  have hsame : SameButBlanks "\u3000not gpu\u00a0" "not gpu" :=
    ⟨"not gpu", "\u3000", "\u00a0", "", "", by decide +kernel, by decide +kernel, by decide +kernel⟩
  have htree : parseExpr "not gpu".toList = .ok (.not (.term "gpu")) :=
    spells_of_toOption (by decide +kernel)
  rw [← map_expr_parse] at htree
  obtain ⟨s, hs, -⟩ := map_eq_ok.mp htree
  have hsource : s.source = "not gpu" :=
    (parse_source.1 _ s hs).1.trans (by decide +kernel)
  refine ⟨hsame, s, ?_, hsource, hs⟩
  rcases parse_source.2.1 _ _ (by decide +kernel) (by decide +kernel) hsame with
    ⟨s', hwide, hnarrow⟩ | ⟨-, e, hnarrow⟩
  · cases hs.symm.trans hnarrow
    exact hwide
  · cases hs.symm.trans hnarrow

end Selector

end CiPlan
