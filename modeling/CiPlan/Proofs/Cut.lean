import CiPlan.Leak.Query
import CiPlan.Proofs.Masking

/-!
# Masking what was cut

The reason of a failed query is cut before it is masked.  A replacement that is read up to the cut has
either finished its last occurrence there, and then the two sides are read separately, or it is within
an occurrence, which it misses when what is behind the cut is gone: `replaceChars_append_or_severed`.
Masking goes on with the next secret in either case, so what counts is whether a secret lies across
the cut when its turn comes, in the text that the secrets before it have left (`SeversFirst`).

* `maskChars_append_or_seversFirst` — if none does, the masked beginning begins the masked text;
* `SeversFirst.discloses` — if one does, its leading characters are left at the end, unless a later
  secret has a part in them;
* `queryStatus_reason` — both for the reason of a failed query.
-/

namespace CiPlan

namespace Text

/-! ## One replacement of a cut text -/

/-- A text is cut between `front` and `back`, within an occurrence of `old` that a replacement comes
upon: `head`, the beginning of the occurrence, is the end of `front`. -/
inductive Severed (old : List Char) : (front back head : List Char) → Prop
  | here {head tail : List Char} (after : List Char) (hhead : head ≠ []) (htail : tail ≠ [])
      (hold : old = head ++ tail) : Severed old head (tail ++ after) head
  | replaced {front back head : List Char} (h : Severed old front back head) :
      Severed old (old ++ front) back head
  | kept {c : Char} {front back head : List Char} (hc : ¬ old <+: c :: (front ++ back))
      (h : Severed old front back head) : Severed old (c :: front) back head

section Cut

variable {old new front back head needle : List Char}

/-- The occurrence begins at the end of the one side and ends at the beginning of the other. -/
theorem Severed.split (h : Severed old front back head) :
    ∃ tail, old = head ++ tail ∧ head ≠ [] ∧ tail ≠ [] ∧ head <:+ front ∧ tail <+: back := by
  induction h with
  | here after hhead htail hold =>
      exact ⟨_, hold, hhead, htail, List.suffix_rfl, List.prefix_append _ after⟩
  | replaced h ih =>
      obtain ⟨tail, hold, hhead, htail, hfront, hback⟩ := ih
      exact ⟨tail, hold, hhead, htail, List.suffix_append_of_suffix hfront, hback⟩
  | kept hc h ih =>
      obtain ⟨tail, hold, hhead, htail, hfront, hback⟩ := ih
      exact ⟨tail, hold, hhead, htail, hfront.trans (List.suffix_cons _ _), hback⟩

theorem replaceChars_of_lt_length (h : needle.length < old.length) :
    replaceChars old new needle = needle :=
  replaceChars_eq_self fun hoccurs => Nat.not_lt.mpr hoccurs.length_le h

/-- Without the other side the beginning of the occurrence is kept. -/
theorem Severed.replaceChars_eq (h : Severed old front back head) (new : List Char) :
    ∃ x y, replaceChars old new front = x ++ head ∧
      replaceChars old new (front ++ back) = x ++ new ++ y := by
  induction h with
  | @here head tail after hhead htail hold =>
      have hne : old ≠ [] := hold ▸ List.append_ne_nil_of_left_ne_nil hhead tail
      have hshort : head.length < old.length := by
        have := List.length_pos_of_ne_nil htail
        rw [hold, List.length_append]
        omega
      refine ⟨[], replaceChars old new after, replaceChars_of_lt_length hshort, ?_⟩
      rw [← List.append_assoc, ← hold, replaceChars_append hne]
      rfl
  | replaced h ih =>
      obtain ⟨x, y, hfront, hboth⟩ := ih
      obtain ⟨tail, hold, hhead, -⟩ := h.split
      have hne : old ≠ [] := hold ▸ List.append_ne_nil_of_left_ne_nil hhead tail
      refine ⟨new ++ x, y, ?_, ?_⟩
      · rw [replaceChars_append hne, hfront, List.append_assoc]
      · rw [List.append_assoc, replaceChars_append hne, hboth]
        simp only [List.append_assoc]
  | @kept c front back head hc h ih =>
      obtain ⟨x, y, hfront, hboth⟩ := ih
      have hcfront : ¬ old <+: c :: front := fun hbegins =>
        hc (hbegins.trans (List.cons_prefix_cons.mpr ⟨rfl, List.prefix_append front back⟩))
      refine ⟨c :: x, y, ?_, ?_⟩
      · rw [replaceChars_cons hcfront, hfront, List.cons_append]
      · rw [List.cons_append, replaceChars_cons hc, hboth]
        rfl

/-- The two sides of a cut are read separately, unless the cut is within an occurrence. -/
theorem replaceChars_append_or_severed (hold : old ≠ []) (new front back : List Char) :
    replaceChars old new (front ++ back) =
        replaceChars old new front ++ replaceChars old new back ∨
      ∃ head, Severed old front back head := by
  induction front using replaceChars_induction hold with
  | nil =>
      left
      rw [List.nil_append, replaceChars, List.nil_append]
  | replace front ih =>
      rcases ih with hsides | ⟨head, hsevered⟩
      · left
        rw [List.append_assoc, replaceChars_append hold, replaceChars_append hold, hsides,
          List.append_assoc]
      · exact .inr ⟨head, hsevered.replaced⟩
  | keep c front hc ih =>
      by_cases hbegins : old <+: c :: (front ++ back)
      · -- The occurrence does not end in front of the cut, so it ends behind it.
        rcases List.prefix_or_prefix_of_prefix hbegins
          (List.prefix_append (c :: front) back) with hfront | ⟨tail, htail⟩
        · exact absurd hfront hc
        · right
          have hne : tail ≠ [] := by
            rintro rfl
            rw [List.append_nil] at htail
            exact hc (htail ▸ List.prefix_rfl)
          rw [← htail, ← List.cons_append, List.prefix_append_right_inj] at hbegins
          obtain ⟨after, rfl⟩ := hbegins
          exact ⟨_, .here after (List.cons_ne_nil c front) hne htail.symm⟩
      · rcases ih with hsides | ⟨head, hsevered⟩
        · left
          rw [List.cons_append, replaceChars_cons hbegins, replaceChars_cons hc, hsides,
            List.cons_append]
        · exact .inr ⟨head, hsevered.kept hbegins⟩

/-- Characters that are not searched for are kept. -/
theorem replaceChars_separators_append {seps : List Char} (hdis : old.Disjoint seps)
    (cs : List Char) : replaceChars old new (seps ++ cs) = seps ++ replaceChars old new cs := by
  induction seps with
  | nil => rfl
  | cons sep seps ih =>
      obtain ⟨hsep, hdis⟩ := List.disjoint_cons_right.mp hdis
      have hone : replaceChars old new (sep :: (seps ++ cs)) =
          replaceChars old new [] ++ sep :: replaceChars old new (seps ++ cs) :=
        replaceChars_append_cons hsep [] (seps ++ cs)
      rw [List.cons_append, hone, replaceChars, ih hdis]
      rfl

/-- So what is in front of some of them and what is behind them are read separately. -/
theorem replaceChars_append_separators {seps : List Char} (hdis : old.Disjoint seps)
    (hne : seps ≠ []) (front back : List Char) :
    replaceChars old new (front ++ seps ++ back) =
      replaceChars old new front ++ seps ++ replaceChars old new back := by
  cases seps with
  | nil => exact absurd rfl hne
  | cons sep seps =>
      obtain ⟨hsep, hdis⟩ := List.disjoint_cons_right.mp hdis
      rw [List.append_assoc, List.cons_append, replaceChars_append_cons hsep,
        replaceChars_separators_append hdis, List.append_assoc, List.cons_append]

/-- A text that does not have the first character of `old` is read without coming upon it. -/
theorem Severed.append_of_notMem {c : Char} {rest : List Char} (hold : old = c :: rest)
    (h : Severed old front back head) {before : List Char} (hc : c ∉ before) :
    Severed old (before ++ front) back head := by
  induction before with
  | nil => exact h
  | cons d before ih =>
      rw [List.mem_cons, not_or] at hc
      refine .kept (fun hbegins => ?_) (ih hc.2)
      rw [hold, List.cons_prefix_cons] at hbegins
      exact hc.1 hbegins.1

/-! ## What is kept at the end -/

/-- A result without what was put in is the text itself. -/
theorem replaceChars_eq_self_of_disjoint (hnew : new ≠ []) {cs : List Char}
    (h : (replaceChars old new cs).Disjoint new) : replaceChars old new cs = cs := by
  by_cases hold : old = []
  · rw [hold, replaceChars_nil]
  · induction cs using replaceChars_induction hold with
    | nil => rw [replaceChars]
    | replace cs _ =>
        rw [replaceChars_append hold] at h
        obtain ⟨c, hc⟩ := List.exists_mem_of_ne_nil new hnew
        exact absurd hc (h (List.mem_append_left _ hc))
    | keep c cs hc ih =>
        rw [replaceChars_cons hc] at h ⊢
        rw [ih (List.disjoint_cons_left.mp h).2]

/-- What ends the result, and shares nothing with what was put in, ended the text. -/
theorem suffix_of_suffix_replaceChars (hnew : new ≠ []) (hdis : needle.Disjoint new) {cs : List Char}
    (h : needle <:+ replaceChars old new cs) : needle <:+ cs := by
  by_cases hold : old = []
  · rwa [hold, replaceChars_nil] at h
  · induction cs using replaceChars_induction hold with
    | nil => rwa [replaceChars] at h
    | replace cs ih =>
        rw [replaceChars_append hold] at h
        rcases List.suffix_or_suffix_of_suffix h (List.suffix_append new _) with
          hrest | ⟨front, hfront⟩
        · exact List.suffix_append_of_suffix (ih hrest)
        · -- Then it would reach into what was put in.
          obtain ⟨before, hbefore⟩ := h
          rw [← hfront, ← List.append_assoc, List.append_cancel_right_eq] at hbefore
          cases front with
          | nil => exact List.suffix_append_of_suffix (ih (hfront ▸ List.suffix_rfl))
          | cons d front =>
              have hneedle : d ∈ needle := hfront ▸ List.mem_cons_self
              have hnew : d ∈ new := hbefore ▸ List.mem_append_right before List.mem_cons_self
              exact absurd hnew (hdis hneedle)
    | keep c cs hc ih =>
        rw [replaceChars_cons hc, List.suffix_cons_iff] at h
        rcases h with rfl | h
        · rw [replaceChars_eq_self_of_disjoint hnew (List.disjoint_cons_left.mp hdis).2]
        · exact (ih h).trans (List.suffix_cons c cs)

/-- No occurrence of `text` in `cs` has a part in `head`, the end of `cs`. -/
structure LeavesAlone (text head cs : List Char) : Prop where
  notWithin : ¬ text <:+: head
  notInto : ∀ front back, text = front ++ back → back ≠ [] → back <+: head → ¬ front ++ head <:+ cs

/-- What is left alone by a replacement stays at the end. -/
theorem replaceChars_append_of_leavesAlone {x : List Char} (hold : old ≠ []) (new : List Char)
    (h : LeavesAlone old head (x ++ head)) :
    replaceChars old new (x ++ head) = replaceChars old new x ++ head := by
  rcases replaceChars_append_or_severed hold new x head with hsides | ⟨front, hsevered⟩
  · rw [hsides, replaceChars_eq_self h.notWithin]
  · obtain ⟨back, hsplit, -, hback, ⟨before, hbefore⟩, hbegins⟩ := hsevered.split
    refine absurd ⟨before, ?_⟩ (h.notInto front back hsplit hback hbegins)
    rw [← hbefore, List.append_assoc]

end Cut

end Text

open Text

/-! ## Masking a cut text -/

section Mask

variable {secret : String} {secrets after : List String} {front back head needle : List Char}

theorem maskChars_cons (secret : String) (secrets : List String) (cs : List Char) :
    maskChars (secret :: secrets) cs =
      maskChars secrets (replaceChars secret.toList Profile.mask.toList cs) :=
  rfl

/-- Secrets without the mask character do not reach over a mask. -/
theorem maskChars_append_mask (hstar : ∀ secret ∈ secrets, '*' ∉ secret.toList) (x y : List Char) :
    maskChars secrets (x ++ Profile.mask.toList ++ y) =
      maskChars secrets x ++ Profile.mask.toList ++ maskChars secrets y := by
  induction secrets generalizing x y with
  | nil => rfl
  | cons secret secrets ih =>
      have hone := @replaceChars_append_separators secret.toList Profile.mask.toList _
        (disjoint_mask (hstar secret List.mem_cons_self)) mask_ne_nil x y
      rw [maskChars_cons, hone, ih (fun s hs => hstar s (List.mem_cons_of_mem _ hs))]
      rfl

/-- Without mask characters it is enough to look at the ends of the text before masking. -/
theorem Text.LeavesAlone.of_suffixes {text front' : List Char} (h : LeavesAlone text head front)
    (htext : '*' ∉ text) (hhead : '*' ∉ head)
    (hends : ∀ needle, '*' ∉ needle → needle <:+ front' → needle <:+ front) :
    LeavesAlone text head front' := by
  refine ⟨h.notWithin, fun before rest hsplit hrest hbegins hoccurs => ?_⟩
  have hstar : '*' ∉ before ++ head := by
    rw [List.mem_append, not_or]
    exact ⟨fun hbefore => htext (hsplit ▸ List.mem_append_left rest hbefore), hhead⟩
  exact h.notInto before rest hsplit hrest hbegins (hends _ hstar hoccurs)

/-- Masking a text on both sides of a cut, `secret` is the first one that lies across the cut when its
turn comes.  The secrets `after` it are still to be masked, and `head` is its part in front. -/
inductive SeversFirst :
    (secrets : List String) → (front back : List Char) → String → List String → List Char → Prop
  | here {secret : String} {after : List String} {front back head : List Char}
      (h : Severed secret.toList front back head) :
      SeversFirst (secret :: after) front back secret after head
  | later {first secret : String} {secrets after : List String} {front back head : List Char}
      (hsides : replaceChars first.toList Profile.mask.toList (front ++ back) =
        replaceChars first.toList Profile.mask.toList front ++
          replaceChars first.toList Profile.mask.toList back)
      (h : SeversFirst secrets (replaceChars first.toList Profile.mask.toList front)
        (replaceChars first.toList Profile.mask.toList back) secret after head) :
      SeversFirst (first :: secrets) front back secret after head

/-- The two sides of a cut are masked separately, unless a secret lies across the cut. -/
theorem maskChars_append_or_seversFirst (hne : ∀ secret ∈ secrets, secret ≠ "")
    (front back : List Char) :
    maskChars secrets (front ++ back) = maskChars secrets front ++ maskChars secrets back ∨
      ∃ secret after head, SeversFirst secrets front back secret after head := by
  induction secrets generalizing front back with
  | nil => exact .inl rfl
  | cons first secrets ih =>
      have hfirst : first.toList ≠ [] :=
        mt String.toList_eq_nil_iff.mp (hne first List.mem_cons_self)
      rcases replaceChars_append_or_severed hfirst Profile.mask.toList front back with
        hsides | ⟨head, hsevered⟩
      · rcases ih (fun s hs => hne s (List.mem_cons_of_mem _ hs)) _ _ with
          hrest | ⟨secret, after, head, hrest⟩
        · left
          rw [maskChars_cons, hsides, hrest]
          rfl
        · exact .inr ⟨secret, after, head, .later hsides hrest⟩
      · exact .inr ⟨first, secrets, head, .here hsevered⟩

namespace SeversFirst

/-- The secret lies across the cut in the text itself, unless it has mask characters. -/
theorem split (h : SeversFirst secrets front back secret after head) (hstar : '*' ∉ secret.toList) :
    ∃ tail, secret.toList = head ++ tail ∧ head ≠ [] ∧ tail ≠ [] ∧ head <:+ front ∧ tail <+: back := by
  induction h with
  | here h => exact h.split
  | @later first secret secrets after front back head hsides h ih =>
      obtain ⟨tail, hsecret, hhead, htail, hfront, hback⟩ := ih hstar
      rw [hsecret, List.mem_append, not_or] at hstar
      refine ⟨tail, hsecret, hhead, htail, ?_, ?_⟩
      · exact suffix_of_suffix_replaceChars mask_ne_nil (disjoint_mask hstar.1) hfront
      · by_cases hfirst : first.toList = []
        · rwa [hfirst, replaceChars_nil] at hback
        · exact prefix_of_prefix_replaceChars hfirst mask_ne_nil (disjoint_mask hstar.2) hback

/-- Where the whole text has a mask, the part of the secret is left in the beginning of the text. -/
theorem maskChars_eq (h : SeversFirst secrets front back secret after head) :
    ∃ x y, maskChars secrets front = maskChars after (x ++ head) ∧
      maskChars secrets (front ++ back) = maskChars after (x ++ Profile.mask.toList ++ y) ∧
      ∀ needle, '*' ∉ needle → needle <:+ x ++ head → needle <:+ front := by
  induction h with
  | here h =>
      obtain ⟨x, y, hfront, hboth⟩ := h.replaceChars_eq Profile.mask.toList
      refine ⟨x, y, ?_, ?_, fun needle hstar hneedle => ?_⟩
      · rw [maskChars_cons, hfront]
      · rw [maskChars_cons, hboth]
      · rw [← hfront] at hneedle
        exact suffix_of_suffix_replaceChars mask_ne_nil (disjoint_mask hstar) hneedle
  | later hsides h ih =>
      obtain ⟨x, y, hfront, hboth, hends⟩ := ih
      refine ⟨x, y, ?_, ?_, fun needle hstar hneedle => ?_⟩
      · rw [maskChars_cons, hfront]
      · rw [maskChars_cons, hsides, hboth]
      · exact suffix_of_suffix_replaceChars mask_ne_nil (disjoint_mask hstar)
          (hends needle hstar hneedle)

theorem suffix (h : SeversFirst secrets front back secret after head) : secret :: after <:+ secrets := by
  induction h with
  | here => exact List.suffix_rfl
  | later _ _ ih => exact ih.trans (List.suffix_cons _ _)

/-- The part of the secret is still there after the other secrets, if they leave it alone. -/
theorem maskChars_append_of_leavesAlone {x : List Char} (hne : ∀ later ∈ after, later ≠ "")
    (hhead : '*' ∉ head) (hstar : ∀ later ∈ after, '*' ∉ later.toList)
    (halone : ∀ later ∈ after, LeavesAlone later.toList head (x ++ head)) :
    maskChars after (x ++ head) = maskChars after x ++ head := by
  induction after generalizing x with
  | nil => rfl
  | cons first after ih =>
      have hfirst : first.toList ≠ [] :=
        mt String.toList_eq_nil_iff.mp (hne first List.mem_cons_self)
      have hone := replaceChars_append_of_leavesAlone hfirst Profile.mask.toList
        (halone first List.mem_cons_self)
      rw [maskChars_cons, hone]
      refine ih (fun s hs => hne s (List.mem_cons_of_mem _ hs))
        (fun s hs => hstar s (List.mem_cons_of_mem _ hs)) fun later hlater => ?_
      have hmem := List.mem_cons_of_mem first hlater
      refine (halone later hmem).of_suffixes (hstar later hmem) hhead fun needle hneedle hends => ?_
      exact suffix_of_suffix_replaceChars mask_ne_nil (disjoint_mask hneedle) (hone ▸ hends)

/-- The leading characters of the secret are at the end of the masked beginning, where the masked
text has a mask. -/
theorem discloses (h : SeversFirst secrets front back secret after head)
    (hne : ∀ secret ∈ secrets, secret ≠ "") (hstar : ∀ s ∈ secret :: after, '*' ∉ s.toList)
    (halone : ∀ later ∈ after, LeavesAlone later.toList head front) :
    head <:+ maskChars secrets front ∧
      ¬ maskChars secrets front <+: maskChars secrets (front ++ back) := by
  obtain ⟨tail, hsecret, hheadne, -⟩ := h.split (hstar secret List.mem_cons_self)
  have hhead : '*' ∉ head := fun hmem =>
    hstar secret List.mem_cons_self (hsecret ▸ List.mem_append_left tail hmem)
  have hafter : ∀ later ∈ after, '*' ∉ later.toList := fun later hlater =>
    hstar later (List.mem_cons_of_mem _ hlater)
  obtain ⟨x, y, hfront, hwhole, hends⟩ := h.maskChars_eq
  have hkept : maskChars secrets front = maskChars after x ++ head := by
    rw [hfront]
    refine maskChars_append_of_leavesAlone (fun later hlater => ?_) hhead hafter fun later hlater => ?_
    · exact hne later (h.suffix.subset (List.mem_cons_of_mem _ hlater))
    · exact (halone later hlater).of_suffixes (hafter later hlater) hhead hends
  refine ⟨hkept ▸ List.suffix_append _ head, fun hbegins => ?_⟩
  rw [hkept, hwhole, maskChars_append_mask hafter, List.append_assoc,
    List.prefix_append_right_inj] at hbegins
  -- The masked text goes on with a mask there.
  exact hheadne (prefix_append_of_disjoint (disjoint_mask hhead) mask_ne_nil hbegins)

end SeversFirst

/-- A text that was cut between `front` and `back` has been masked after that, so that only what is in
front of the cut was seen. -/
structure IsMaskedCut (secrets : List String) (front back masked : List Char) : Prop where
  /-- No secret is left as a whole. -/
  hidden : ∀ secret ∈ secrets, '*' ∉ secret.toList → ¬ secret.toList <:+: masked
  /-- It is what the masked text begins with, if no secret lies across the cut. -/
  begins : (∀ secret after head, ¬ SeversFirst secrets front back secret after head) →
    masked <+: maskChars secrets (front ++ back)
  /-- Else it ends with the part of the secret in front of the cut, if the secrets that are masked
  later have no part in that, and the masked text begins in another way. -/
  discloses : ∀ secret after head, SeversFirst secrets front back secret after head →
    (∀ s ∈ secret :: after, '*' ∉ s.toList) →
    (∀ later ∈ after, LeavesAlone later.toList head front) →
    (∃ tail, secret.toList = head ++ tail ∧ head ≠ [] ∧ tail ≠ [] ∧ head <:+ front ∧ tail <+: back) ∧
      head <:+ masked ∧ ¬ masked <+: maskChars secrets (front ++ back)

theorem isMaskedCut_maskChars (hne : ∀ secret ∈ secrets, secret ≠ "") (front back : List Char) :
    IsMaskedCut secrets front back (maskChars secrets front) where
  hidden secret hsecret hstar := not_infix_maskChars hsecret (hne secret hsecret) hstar front
  begins hnone := by
    rcases maskChars_append_or_seversFirst hne front back with hsides | ⟨secret, after, head, h⟩
    · rw [hsides]
      exact List.prefix_append _ _
    · exact absurd h (hnone secret after head)
  discloses secret after head h hstar halone :=
    ⟨h.split (hstar secret List.mem_cons_self), h.discloses hne hstar halone⟩

/-- No secret lies across a cut after a character that no secret has. -/
theorem not_seversFirst_of_notMem {c : Char} (hstar : ∀ secret ∈ secrets, '*' ∉ secret.toList)
    (hc : ∀ secret ∈ secrets, c ∉ secret.toList) (front back : List Char) :
    ¬ SeversFirst secrets (front ++ [c]) back secret after head := by
  intro h
  have hmem : secret ∈ secrets := h.suffix.subset List.mem_cons_self
  obtain ⟨tail, hsecret, hhead, -, hends, -⟩ := h.split (hstar secret hmem)
  have hlast : c ∈ head := by
    rw [List.suffix_concat_iff] at hends
    rcases hends with rfl | ⟨before, rfl, -⟩
    · exact absurd rfl hhead
    · exact List.mem_append_right before List.mem_cons_self
  exact hc secret hmem (hsecret ▸ List.mem_append_left tail hlast)

end Mask

/-! ## The reason of a failed query -/

/-- Text in ASCII is decoded byte by byte. -/
theorem Text.decodeFrom_ascii {bytes : Bytes} (h : ∀ b ∈ bytes, b < 0x80) :
    decodeFrom none bytes = bytes.map fun b => Char.ofNat b.toNat := by
  induction bytes with
  | nil => rfl
  | cons b bytes ih =>
      have hb : openWith b = ([Char.ofNat b.toNat], none) := if_pos (h b List.mem_cons_self)
      rw [decodeFrom, hb, List.map_cons, ← ih fun b hb => h b (List.mem_cons_of_mem _ hb)]
      rfl

namespace ProcessOutput

/-- What a process wrote about its failure, without the blanks around it. -/
def complaint (output : ProcessOutput) : List Char :=
  trimChars (decodeLossy output.stderr).toList

/-- The status of a process and its whole complaint. -/
def account (output : ProcessOutput) : String :=
  output.status.display ++ ": " ++ String.ofList output.complaint

/-- The part of the account that is kept. -/
def kept (output : ProcessOutput) : List Char :=
  (output.status.display ++ ": ").toList ++ takeBytes maxErrorBytes output.complaint

/-- The part of the account that is cut off. -/
def cutOff (output : ProcessOutput) : List Char :=
  output.complaint.drop (takeBytes maxErrorBytes output.complaint).length

theorem toList_account (output : ProcessOutput) :
    output.account.toList = output.kept ++ output.cutOff := by
  have hcut := takeBytes_prefix maxErrorBytes output.complaint
  rw [account, String.toList_append, String.toList_ofList, kept, cutOff, List.append_assoc,
    ← List.prefix_append_drop hcut]

theorem toList_queryFailure (secrets : List String) (output : ProcessOutput) :
    (queryFailure secrets output).toList = maskChars secrets output.kept := by
  rw [queryFailure, toList_redactValues, String.toList_append, String.toList_ofList]
  rfl

end ProcessOutput

namespace Profile

section Failing

variable {launch : Launcher} {env : Environment} {p : Profile} {program : String}
  {arguments : List String} {output : ProcessOutput}

theorem queryStatus_failure (hcommand : p.statusCommand = program :: arguments)
    (hlaunch : launch program arguments (p.childEnvironment env) = .ok output)
    (hstatus : output.status.isSuccess = false) :
    (p.queryStatus launch env).answer =
      .error (.query p.name (queryFailure (p.secretValues env) output)) := by
  simp only [queryStatus, hcommand, hlaunch, hstatus, Bool.false_eq_true, if_false]

/-- What a failing status command is answered with.  Its account is cut before it is masked: the reason
is the beginning of the masked account as long as no secret lies across the cut, and the leading
characters of one that does are left at the end of the reason. -/
theorem queryStatus_reason (hcommand : p.statusCommand = program :: arguments)
    (hlaunch : launch program arguments (p.childEnvironment env) = .ok output)
    (hstatus : output.status.isSuccess = false) :
    ∃ reason, (p.queryStatus launch env).answer = .error (.query p.name reason) ∧
      output.account.toList = output.kept ++ output.cutOff ∧
      IsMaskedCut (p.secretValues env) output.kept output.cutOff reason.toList := by
  refine ⟨_, queryStatus_failure hcommand hlaunch hstatus, output.toList_account, ?_⟩
  rw [output.toList_queryFailure]
  exact isMaskedCut_maskChars (fun _ hsecret => secret_ne_empty hsecret) _ _

end Failing

/-! ### A key at the cut -/

/-- A profile whose status command is handed a key. -/
def keyProfile : Profile :=
  { Profile.ofKind "aws" .aws with
    statusCommand := ["sky", "status"], secretEnv := ["SERVICE_KEY"] }

def serviceKey : String := "key-4711-0815"

theorem secretValues_keyProfile :
    keyProfile.secretValues (onlySet "SERVICE_KEY" serviceKey) = [serviceKey] :=
  secretValues_onlySet rfl rfl (by decide)

/-- What a process leaves that complains and exits with 1. -/
def complaining (complaint : Bytes) : ProcessOutput := ⟨.exited 1, [], complaint, 0⟩

/-- The status command leaves this. -/
def leaving (output : ProcessOutput) : Launcher := fun _ _ _ => .ok output

theorem launch_leaving (output : ProcessOutput) :
    leaving output "sky" ["status"] (keyProfile.childEnvironment (onlySet "SERVICE_KEY" serviceKey)) =
      .ok output :=
  rfl

/-- A long complaint in which the key is in front of the cut. -/
def keyFirst : ProcessOutput :=
  complaining (serviceKey.toUTF8.data.toList ++ 0x20 :: List.replicate 2048 0x78)

/-- A long complaint in which the cut is within the key. -/
def keyLast : ProcessOutput :=
  complaining (List.replicate 2044 0x78 ++ serviceKey.toUTF8.data.toList)

theorem complaint_complaining {bytes : Bytes} (h : bytes.all (· < 0x80) = true) :
    (complaining bytes).complaint = trimChars (bytes.map fun b => Char.ofNat b.toNat) := by
  have hascii : ∀ b ∈ bytes, b < 0x80 := fun b hb =>
    of_decide_eq_true (List.all_eq_true.mp h b hb)
  rw [ProcessOutput.complaint, decodeLossy, String.toList_ofList]
  exact congrArg trimChars (decodeFrom_ascii hascii)

theorem complaint_keyFirst :
    keyFirst.complaint = (serviceKey ++ " ").toList ++ List.replicate 2048 'x' := by
  rw [keyFirst, complaint_complaining (by decide +kernel)]
  decide +kernel

theorem complaint_keyLast :
    keyLast.complaint = List.replicate 2044 'x' ++ serviceKey.toList := by
  rw [keyLast, complaint_complaining (by decide +kernel)]
  decide +kernel

/-- The key is masked, and the reason is the beginning of the masked account. -/
theorem queryStatus_reason_keyFirst :
    ∃ reason,
      (keyProfile.queryStatus (leaving keyFirst) (onlySet "SERVICE_KEY" serviceKey)).answer =
        .error (.query "aws" reason) ∧
      contains reason serviceKey = false ∧
      reason.toList <+: (redactValues [serviceKey] keyFirst.account).toList := by
  obtain ⟨reason, hanswer, haccount, hcut⟩ :=
    queryStatus_reason rfl (launch_leaving keyFirst) rfl
  rw [secretValues_keyProfile] at hcut
  have hkept : keyFirst.kept =
      ("exit status: 1: " ++ serviceKey ++ " ").toList ++ List.replicate 2033 'x' ++ ['x'] := by
    rw [ProcessOutput.kept, complaint_keyFirst]
    decide +kernel
  refine ⟨reason, hanswer, ?_, ?_⟩
  · rw [← Bool.not_eq_true, contains_iff]
    exact hcut.hidden serviceKey List.mem_cons_self (by decide)
  · rw [toList_redactValues, haccount]
    refine hcut.begins fun secret after head => ?_
    rw [hkept]
    exact not_seversFirst_of_notMem (by decide) (by decide) _ _

/-- The reason ends with the first characters of a key that lies across the cut, where the masked
account has a mask. -/
theorem queryStatus_discloses_keyLast :
    ∃ reason,
      (keyProfile.queryStatus (leaving keyLast) (onlySet "SERVICE_KEY" serviceKey)).answer =
        .error (.query "aws" reason) ∧
      "key-".toList <:+ reason.toList ∧
      ¬ reason.toList <+: (redactValues [serviceKey] keyLast.account).toList := by
  have hkept : keyLast.kept =
      ("exit status: 1: ".toList ++ List.replicate 2044 'x') ++ "key-".toList := by
    rw [ProcessOutput.kept, complaint_keyLast]
    decide +kernel
  have hcutOff : keyLast.cutOff = "4711-0815".toList ++ [] := by
    rw [ProcessOutput.cutOff, complaint_keyLast]
    decide +kernel
  -- The key has no other place to begin, as no `k` is in front of it.
  have hsevers : SeversFirst [serviceKey] keyLast.kept keyLast.cutOff serviceKey [] "key-".toList := by
    rw [hkept, hcutOff]
    exact .here (Severed.append_of_notMem (c := 'k') rfl
      (.here [] (by decide) (by decide) (by decide)) (by decide +kernel))
  obtain ⟨hends, hbegins⟩ := hsevers.discloses (by decide) (by decide) (fun _ h => absurd h (by simp))
  refine ⟨queryFailure [serviceKey] keyLast, ?_, ?_⟩
  · rw [queryStatus_failure rfl (launch_leaving keyLast) rfl, secretValues_keyProfile]
    rfl
  · rw [keyLast.toList_queryFailure, toList_redactValues, keyLast.toList_account]
    exact ⟨hends, hbegins⟩

end Profile

end CiPlan
