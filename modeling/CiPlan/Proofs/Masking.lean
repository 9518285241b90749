import CiPlan.Leak.Redaction
import Mathlib.Data.List.Infix

/-!
# What masking leaves of a text

A replacement reads a text from its front: an occurrence of the old text there is replaced as a
whole, and any other first character is kept.  `replaceChars_induction` is induction along that
reading.  A search text that shares no character with what is put in cannot use any of it, so such a
text occurs in the result only where it occurred before.  Hence masking secret after secret never
brings back one that is free of the mask character.

* `not_infix_maskChars` — no secret without the mask character is left.
* `maskChars_eq_self` — a text in which no secret occurs stays as it is.
* `replaceChars_append_cons` — the two sides of a character that is not searched for are read
  separately.
-/

namespace CiPlan

namespace Text

/-! ## Occurrences -/

theorem occursIn_iff {needle cs : List Char} : occursIn needle cs = true ↔ needle <:+: cs := by
  induction cs with
  | nil => simp [occursIn]
  | cons c cs ih => simp [occursIn, ih, List.infix_cons_iff]

theorem contains_iff {hay needle : String} :
    contains hay needle = true ↔ needle.toList <:+: hay.toList :=
  occursIn_iff

section Separator

variable {sep : Char} {front back needle : List Char}

/-- What begins a text with a separator in it begins before the separator or goes beyond it. -/
theorem prefix_append_cons_iff :
    needle <+: front ++ sep :: back ↔
      needle <+: front ∨ ∃ tail, tail <+: back ∧ needle = front ++ sep :: tail := by
  constructor
  · intro h
    rcases List.prefix_or_prefix_of_prefix h (List.prefix_append front _) with hfront | ⟨t, rfl⟩
    · exact .inl hfront
    · rw [List.prefix_append_right_inj, List.prefix_cons_iff] at h
      rcases h with rfl | ⟨tail, rfl, htail⟩
      · rw [List.append_nil]
        exact .inl (List.prefix_refl front)
      · exact .inr ⟨tail, htail, rfl⟩
  · rintro (hfront | ⟨tail, htail, rfl⟩)
    · exact hfront.trans (List.prefix_append front _)
    · exact (List.prefix_append_right_inj front).mpr (List.cons_prefix_cons.mpr ⟨rfl, htail⟩)

/-- What occurs in a text with a separator in it is on one side of the separator or around it. -/
theorem infix_append_cons_iff :
    needle <:+: front ++ sep :: back ↔ needle <:+: front ∨ needle <:+: back ∨
      ∃ head tail, head <:+ front ∧ tail <+: back ∧ needle = head ++ sep :: tail := by
  rw [List.infix_append_iff]
  constructor
  · rintro (hfront | hback | ⟨head, t, rfl, hhead, ht⟩)
    · exact .inl hfront
    · rw [List.infix_cons_iff, List.prefix_cons_iff] at hback
      rcases hback with (rfl | ⟨tail, rfl, htail⟩) | hback
      · exact .inl List.nil_infix
      · exact .inr (.inr ⟨[], tail, List.nil_suffix, htail, rfl⟩)
      · exact .inr (.inl hback)
    · rcases List.prefix_cons_iff.mp ht with rfl | ⟨tail, rfl, htail⟩
      · rw [List.append_nil]
        exact .inl hhead.isInfix
      · exact .inr (.inr ⟨head, tail, hhead, htail, rfl⟩)
  · rintro (hfront | hback | ⟨head, tail, hhead, htail, rfl⟩)
    · exact .inl hfront
    · exact .inr (.inl (hback.trans (List.suffix_cons sep back).isInfix))
    · exact .inr (.inr ⟨head, sep :: tail, rfl, hhead, List.cons_prefix_cons.mpr ⟨rfl, htail⟩⟩)

/-- What does not have the separator begins before it. -/
theorem prefix_of_prefix_append_cons (hsep : sep ∉ needle) (h : needle <+: front ++ sep :: back) :
    needle <+: front := by
  rcases prefix_append_cons_iff.mp h with hfront | ⟨tail, -, rfl⟩
  · exact hfront
  · exact absurd (List.mem_append_right front List.mem_cons_self) hsep

end Separator

/-! ## One replacement -/

section Replace

variable {old new needle : List Char}

theorem replaceChars_append (hold : old ≠ []) (cs : List Char) :
    replaceChars old new (old ++ cs) = new ++ replaceChars old new cs := by
  cases old with
  | nil => exact absurd rfl hold
  | cons o old =>
      rw [List.cons_append, replaceChars, dif_pos]
      · rw [← List.cons_append, List.drop_left]
      · exact ⟨hold, List.isPrefixOf_iff_prefix.mpr (List.prefix_append (o :: old) cs)⟩

theorem replaceChars_cons {c : Char} {cs : List Char} (h : ¬ old <+: c :: cs) :
    replaceChars old new (c :: cs) = c :: replaceChars old new cs := by
  rw [replaceChars, dif_neg]
  rintro ⟨-, hbegins⟩
  exact h (List.isPrefixOf_iff_prefix.mp hbegins)

/-- Nothing is searched for. -/
theorem replaceChars_nil (new cs : List Char) : replaceChars [] new cs = cs := by
  induction cs with
  | nil => rw [replaceChars]
  | cons c cs ih => rw [replaceChars, dif_neg (fun h => h.1 rfl), ih]

/-- Induction along a replacement, which either replaces what is in front or keeps a character. -/
theorem replaceChars_induction (hold : old ≠ []) {motive : List Char → Prop} (nil : motive [])
    (replace : ∀ cs, motive cs → motive (old ++ cs))
    (keep : ∀ c cs, ¬ old <+: c :: cs → motive cs → motive (c :: cs)) (cs : List Char) :
    motive cs := by
  fun_induction replaceChars old [] cs with
  | case1 => exact nil
  | case2 c cs h ih =>
      obtain ⟨rest, hrest⟩ := List.isPrefixOf_iff_prefix.mp h.2
      rw [← hrest, List.drop_left] at ih
      rw [← hrest]
      exact replace rest ih
  | case3 c cs h ih =>
      exact keep c cs (fun hbegins => h ⟨hold, List.isPrefixOf_iff_prefix.mpr hbegins⟩) ih

/-- A text without an occurrence stays as it is. -/
theorem replaceChars_eq_self {cs : List Char} (h : ¬ old <:+: cs) : replaceChars old new cs = cs := by
  induction cs with
  | nil => rw [replaceChars]
  | cons c cs ih =>
      rw [List.infix_cons_iff, not_or] at h
      rw [replaceChars_cons h.1, ih h.2]

theorem mem_replaceChars {c : Char} {cs : List Char} (h : c ∈ replaceChars old new cs) :
    c ∈ cs ∨ c ∈ new := by
  by_cases hold : old = []
  · rw [hold, replaceChars_nil] at h
    exact .inl h
  · induction cs using replaceChars_induction hold with
    | nil =>
        rw [replaceChars] at h
        exact .inl h
    | replace cs ih =>
        rw [replaceChars_append hold, List.mem_append] at h
        rw [List.mem_append]
        rcases h with h | h
        · exact .inr h
        · exact (ih h).imp_left .inr
    | keep d cs hd ih =>
        rw [replaceChars_cons hd, List.mem_cons] at h
        rw [List.mem_cons]
        rcases h with h | h
        · exact .inl (.inl h)
        · exact (ih h).imp_left .inr

theorem replaceChars_ne_nil {cs : List Char} (hnew : new ≠ []) (h : cs ≠ []) :
    replaceChars old new cs ≠ [] := by
  cases cs with
  | nil => exact absurd rfl h
  | cons c cs =>
      rw [replaceChars]
      split
      · exact List.append_ne_nil_of_left_ne_nil hnew _
      · exact List.cons_ne_nil _ _

/-- A search text that shares no character with a front part does not begin in it. -/
theorem prefix_append_of_disjoint {front back : List Char} (hdis : needle.Disjoint front)
    (hfront : front ≠ []) (h : needle <+: front ++ back) : needle = [] := by
  cases needle with
  | nil => rfl
  | cons c needle =>
      obtain ⟨d, front, rfl⟩ := List.exists_cons_of_ne_nil hfront
      have hcd : c = d := (List.cons_prefix_cons.mp h).1
      exact absurd (hcd ▸ List.mem_cons_self) (hdis List.mem_cons_self)

theorem infix_append_of_disjoint {front back : List Char} (hdis : needle.Disjoint front)
    (hne : needle ≠ []) (h : needle <:+: front ++ back) : needle <:+: back := by
  rcases List.infix_append_iff_ne_nil.mp h with hfront | hback | ⟨s, t, hs, -, rfl, hsuffix, -⟩
  · obtain ⟨c, hc⟩ := List.exists_mem_of_ne_nil _ hne
    exact absurd (hfront.mem hc) (hdis hc)
  · exact hback
  · obtain ⟨c, hc⟩ := List.exists_mem_of_ne_nil _ hs
    exact absurd (hsuffix.mem hc) (hdis (List.mem_append_left t hc))

/-- What begins the result, and shares nothing with what was put in, began the text. -/
theorem prefix_of_prefix_replaceChars (hold : old ≠ []) (hnew : new ≠ []) {cs : List Char} :
    ∀ {needle}, List.Disjoint needle new → needle <+: replaceChars old new cs → needle <+: cs := by
  induction cs using replaceChars_induction hold with
  | nil =>
      intro needle _ h
      rwa [replaceChars] at h
  | replace cs _ =>
      intro needle hdis h
      rw [replaceChars_append hold] at h
      rw [prefix_append_of_disjoint hdis hnew h]
      exact List.nil_prefix
  | keep c cs hc ih =>
      intro needle hdis h
      rw [replaceChars_cons hc, List.prefix_cons_iff] at h
      rcases h with rfl | ⟨t, rfl, ht⟩
      · exact List.nil_prefix
      · exact List.cons_prefix_cons.mpr ⟨rfl, ih (List.disjoint_cons_left.mp hdis).2 ht⟩

/-- What occurs in the result, and shares nothing with what was put in, occurred in the text. -/
theorem infix_of_infix_replaceChars (hnew : new ≠ []) (hdis : needle.Disjoint new)
    (hne : needle ≠ []) {cs : List Char} (h : needle <:+: replaceChars old new cs) :
    needle <:+: cs := by
  by_cases hold : old = []
  · rwa [hold, replaceChars_nil] at h
  · induction cs using replaceChars_induction hold with
    | nil => rwa [replaceChars] at h
    | replace cs ih =>
        rw [replaceChars_append hold] at h
        have hrest := ih (infix_append_of_disjoint hdis hne h)
        exact hrest.trans (List.suffix_append old cs).isInfix
    | keep c cs hc ih =>
        rw [replaceChars_cons hc, List.infix_cons_iff, ← replaceChars_cons hc] at h
        rw [List.infix_cons_iff]
        exact h.imp (prefix_of_prefix_replaceChars hold hnew hdis) ih

/-- What was searched for is gone, unless it has characters of what was put in. -/
theorem not_infix_replaceChars (hold : old ≠ []) (hnew : new ≠ []) (hdis : old.Disjoint new)
    (cs : List Char) : ¬ old <:+: replaceChars old new cs := by
  induction cs using replaceChars_induction hold with
  | nil =>
      rw [replaceChars, List.infix_nil]
      exact hold
  | replace cs ih =>
      rw [replaceChars_append hold]
      exact fun h => ih (infix_append_of_disjoint hdis hold h)
  | keep c cs hc ih =>
      rw [replaceChars_cons hc, List.infix_cons_iff, ← replaceChars_cons hc, not_or]
      exact ⟨fun h => hc (prefix_of_prefix_replaceChars hold hnew hdis h), ih⟩

/-- The two sides of a separator that is not searched for are read separately. -/
theorem replaceChars_append_cons {sep : Char} (hsep : sep ∉ old) (front back : List Char) :
    replaceChars old new (front ++ sep :: back) =
      replaceChars old new front ++ sep :: replaceChars old new back := by
  by_cases hold : old = []
  · simp only [hold, replaceChars_nil]
  · induction front using replaceChars_induction hold with
    | nil =>
        have hnot : ¬ old <+: sep :: back := by
          intro h
          have hnil : old <+: [] := prefix_of_prefix_append_cons hsep h
          exact hold (List.prefix_nil.mp hnil)
        rw [List.nil_append, replaceChars_cons hnot, replaceChars]
        rfl
    | replace cs ih =>
        rw [List.append_assoc, replaceChars_append hold, replaceChars_append hold, ih,
          List.append_assoc]
    | keep c cs hc ih =>
        have hnot : ¬ old <+: c :: (cs ++ sep :: back) := by
          intro h
          have hfront : old <+: c :: cs := prefix_of_prefix_append_cons hsep h
          exact hc hfront
        rw [List.cons_append, replaceChars_cons hnot, replaceChars_cons hc, ih, List.cons_append]

end Replace

end Text

/-! ## The secrets of a profile -/

theorem mem_dropRepeats {s : String} {texts : List String} : s ∈ dropRepeats texts ↔ s ∈ texts := by
  fun_induction dropRepeats texts with
  | case1 t u rest htu ih =>
      have heq : t = u := by simpa using htu
      rw [ih, heq]
      refine ⟨List.mem_cons_of_mem u, fun h => ?_⟩
      rcases List.mem_cons.mp h with rfl | h
      · exact List.mem_cons_self
      · exact h
  | case2 t u rest _ ih => rw [List.mem_cons, ih, ← List.mem_cons]
  | case3 => exact Iff.rfl

/-- The secrets are the texts of the secret variables that are long enough to be masked. -/
theorem Profile.mem_secretValues {env : Environment} {p : Profile} {secret : String} :
    secret ∈ p.secretValues env ↔
      ((∃ name ∈ p.secretEnv, env name = some secret) ∨
        ∃ e ∈ p.env.entries, p.hides e.1 = true ∧ e.2 = secret) ∧
      minSecretLength ≤ secret.utf8ByteSize := by
  simp only [Profile.secretValues, mem_dropRepeats, List.mem_mergeSort, List.mem_filter,
    List.mem_append, List.mem_filterMap, List.mem_map, decide_eq_true_eq, and_assoc]

theorem Profile.secret_ne_empty {env : Environment} {p : Profile} {secret : String}
    (h : secret ∈ p.secretValues env) : secret ≠ "" := by
  rintro rfl
  exact absurd (Profile.mem_secretValues.mp h).2 (by decide)

/-- The environment in which one variable is set. -/
def onlySet (name text : String) : Environment := fun asked =>
  if asked = name then some text else none

/-- The secret of a profile with one secret variable and no variables of its own. -/
theorem Profile.secretValues_onlySet {p : Profile} {name secret : String}
    (hnames : p.secretEnv = [name]) (hown : p.env.entries = [])
    (hlong : minSecretLength ≤ secret.utf8ByteSize) :
    p.secretValues (onlySet name secret) = [secret] := by
  have hhanded : p.secretEnv.filterMap (onlySet name secret) = [secret] := by
    simp [hnames, onlySet]
  simp [Profile.secretValues, hhanded, hown, hlong, dropRepeats]

/-! ## Masking secret after secret -/

open Text

/-- `redactValues` on characters. -/
def maskChars (secrets : List String) (cs : List Char) : List Char :=
  secrets.foldl (fun cs secret => replaceChars secret.toList Profile.mask.toList cs) cs

section Mask

variable {secret : String} {secrets : List String} {cs needle : List Char}

theorem toList_redactValues (secrets : List String) (text : String) :
    (redactValues secrets text).toList = maskChars secrets text.toList := by
  induction secrets generalizing text with
  | nil => rfl
  | cons secret secrets ih =>
      have hone : (replaceAll secret Profile.mask text).toList =
          replaceChars secret.toList Profile.mask.toList text.toList := String.toList_ofList
      show (redactValues secrets (replaceAll secret Profile.mask text)).toList = _
      rw [ih, hone]
      rfl

/-- There is nothing to mask in an empty text. -/
theorem maskChars_nil (secrets : List String) : maskChars secrets [] = [] := by
  induction secrets with
  | nil => rfl
  | cons secret secrets ih =>
      show maskChars secrets (replaceChars secret.toList Profile.mask.toList []) = []
      rw [replaceChars, ih]

/-- Masking puts in no characters but those of the mask. -/
theorem mem_maskChars {c : Char} (h : c ∈ maskChars secrets cs) :
    c ∈ cs ∨ c ∈ Profile.mask.toList := by
  induction secrets generalizing cs with
  | nil => exact .inl h
  | cons secret secrets ih =>
      rcases ih h with hone | hmask
      · exact mem_replaceChars hone
      · exact .inr hmask

theorem mask_ne_nil : Profile.mask.toList ≠ [] := by decide

/-- A text shares no character with the mask when it does not have the one that masks consist of. -/
theorem disjoint_mask (h : '*' ∉ needle) : needle.Disjoint Profile.mask.toList := by
  intro c hc hmask
  have hstar : c = '*' := by
    have : c ∈ ['*', '*', '*'] := hmask
    simpa using this
  exact h (hstar ▸ hc)

/-- What occurs after masking, and does not have the mask character, occurred before. -/
theorem infix_of_infix_maskChars (hstar : '*' ∉ needle) (hne : needle ≠ [])
    (h : needle <:+: maskChars secrets cs) : needle <:+: cs := by
  induction secrets generalizing cs with
  | nil => exact h
  | cons secret secrets ih =>
      exact infix_of_infix_replaceChars mask_ne_nil (disjoint_mask hstar) hne (ih h)

/-- After masking no secret is left that is free of the mask character. -/
theorem not_infix_maskChars (hsecret : secret ∈ secrets) (hne : secret ≠ "")
    (hstar : '*' ∉ secret.toList) (cs : List Char) :
    ¬ secret.toList <:+: maskChars secrets cs := by
  have hchars : secret.toList ≠ [] := fun h => hne (String.toList_eq_nil_iff.mp h)
  induction secrets generalizing cs with
  | nil => exact absurd hsecret List.not_mem_nil
  | cons first secrets ih =>
      rcases List.mem_cons.mp hsecret with rfl | hsecret
      · exact fun h => not_infix_replaceChars hchars mask_ne_nil (disjoint_mask hstar) cs
          (infix_of_infix_maskChars hstar hchars h)
      · exact ih hsecret _

/-- A text in which no secret occurs stays as it is. -/
theorem maskChars_eq_self (h : ∀ secret ∈ secrets, ¬ secret.toList <:+: cs) :
    maskChars secrets cs = cs := by
  induction secrets with
  | nil => rfl
  | cons secret secrets ih =>
      have hone : replaceChars secret.toList Profile.mask.toList cs = cs :=
        replaceChars_eq_self (h secret List.mem_cons_self)
      show maskChars secrets (replaceChars secret.toList Profile.mask.toList cs) = cs
      rw [hone]
      exact ih fun secret hsecret => h secret (List.mem_cons_of_mem _ hsecret)

end Mask

end CiPlan
