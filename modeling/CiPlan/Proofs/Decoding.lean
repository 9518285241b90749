import CiPlan.Text.Utf8

/-!
# Line feeds in decoded text

The decoder reads one byte after the other (`decodeByte`).  A sequence of several bytes is continued
only by bytes outside ASCII, and what its bits come to is outside ASCII as well, since the shortest
spelling of a character is the only one that is read (`OpenSequence.IsBeyondAscii`).  So a line feed
is always the one byte that spells it:

* `newline_mem_decodeFrom` — a decoded line feed comes from a byte that is one.
* `decodeFrom_append_newline` — the two sides of a line feed are decoded separately.
-/

namespace CiPlan.Text

/-! ## Open sequences -/

/-- Neither the next byte of the sequence nor the character that it spells is in ASCII. -/
structure OpenSequence.IsBeyondAscii (s : OpenSequence) : Prop where
  low_ge : 0x80 ≤ s.low.toNat
  /-- The least that the bits can be after the next byte.  Every byte after that multiplies them by
  64, so two are enough when there is one. -/
  bits_ge : (if s.missing ≤ 1 then 0x80 else 2) ≤ s.bits * 64 + (s.low.toNat - 0x80)

/-- The first byte of a sequence of two is at least two above the least of its kind; of a longer
one, one above is enough. -/
theorem isBeyondAscii_ofLead {missing : Nat} {b lead : UInt8} (least : Nat)
    (hlead : lead.toNat = least) (h : least < b.toNat)
    (hshort : missing ≤ 1 → least + 1 < b.toNat) :
    (OpenSequence.ofLead missing (b - lead)).IsBeyondAscii where
  low_ge := Nat.le_refl 0x80
  bits_ge := by
    have hle : lead.toNat ≤ b.toNat := by omega
    have hbits : (b - lead).toNat = b.toNat - lead.toNat :=
      UInt8.toNat_sub_of_le b lead (UInt8.le_iff_toNat_le.mpr hle)
    apply Nat.le_trans _ (Nat.le_add_right _ _)
    show (if missing ≤ 1 then 0x80 else 2) ≤ (b - lead).toNat * 64
    rw [hbits]
    split
    · next hmissing =>
      have := hshort hmissing
      omega
    · omega

/-- What a byte at the start of a character opens. -/
theorem isBeyondAscii_of_openWith {b : UInt8} {s : OpenSequence} (h : (openWith b).2 = some s) :
    s.IsBeyondAscii := by
  -- The tables of the standard: one case for each range of first bytes.
  unfold openWith at h
  simp only [UInt8.lt_iff_toNat_lt, ← UInt8.toNat_inj, UInt8.reduceToNat] at h
  split at h
  · cases h
  split at h
  · cases h
  split at h
  · cases h
    exact isBeyondAscii_ofLead 0xC0 rfl (by omega) (by omega)
  split at h
  · cases h
    exact ⟨by decide, by decide⟩
  split at h
  · cases h
    exact ⟨by decide, by decide⟩
  split at h
  · cases h
    exact isBeyondAscii_ofLead 0xE0 rfl (by omega) (by omega)
  split at h
  · cases h
    exact ⟨by decide, by decide⟩
  split at h
  · cases h
    exact isBeyondAscii_ofLead 0xF0 rfl (by omega) (by omega)
  split at h
  · cases h
    exact ⟨by decide, by decide⟩
  · cases h

/-- The number that a line feed is made from. -/
theorem eq_of_newline_eq_ofNat {n : Nat} (h : '\n' = Char.ofNat n) : n = 0x0A := by
  by_cases hn : n.isValidChar
  · have hnat : (Char.ofNat n).toNat = n := toNat_ofNat_of_isValidChar hn
    rw [← h] at hnat
    exact hnat.symm
  · have hnul : Char.ofNat n = '\x00' := by
      rw [Char.ofNat, dif_neg hn]
      rfl
    rw [hnul] at h
    exact absurd h (by decide)

/-- What a byte at the start of a character says is a line feed only if the byte is. -/
theorem newline_mem_openWith {b : UInt8} (h : '\n' ∈ (openWith b).1) : b = 0x0A := by
  unfold openWith at h
  by_cases hascii : b < 0x80
  · rw [if_pos hascii] at h
    have hb : b.toNat = 0x0A := eq_of_newline_eq_ofNat (List.mem_singleton.mp h)
    exact UInt8.toNat_inj.mp hb
  · rw [if_neg hascii] at h
    -- The other bytes say nothing, or that there is nothing to be decoded.
    repeat' split at h
    all_goals exact absurd h (by simp [replacement])

theorem isBeyondAscii_of_none : ∀ s, none = some s → OpenSequence.IsBeyondAscii s := by
  intro s hs
  cases hs

/-! ## One byte after the other -/

/-- The characters that a byte adds, and what is open after it. -/
def decodeByte (state : Option OpenSequence) (b : UInt8) : List Char × Option OpenSequence :=
  match state with
  | none => openWith b
  | some s =>
    if s.low ≤ b ∧ b ≤ s.high then
      let bits := s.bits * 64 + (b.toNat - 0x80)
      if s.missing ≤ 1 then ([Char.ofNat bits], none)
      else ([], some ⟨s.missing - 1, 0x80, 0xBF, bits⟩)
    else (replacement :: (openWith b).1, (openWith b).2)

theorem decodeFrom_cons (state : Option OpenSequence) (b : UInt8) (rest : Bytes) :
    decodeFrom state (b :: rest) =
      (decodeByte state b).1 ++ decodeFrom (decodeByte state b).2 rest := by
  cases state with
  | none => rfl
  | some s =>
      rw [decodeFrom, decodeByte]
      by_cases hrange : s.low ≤ b ∧ b ≤ s.high
      · rw [if_pos hrange, if_pos hrange]
        by_cases hlast : s.missing ≤ 1
        · rw [if_pos hlast, if_pos hlast]
          rfl
        · rw [if_neg hlast, if_neg hlast]
          rfl
      · rw [if_neg hrange, if_neg hrange]
        rfl

/-- What is open is beyond ASCII after every byte if it was before. -/
theorem isBeyondAscii_decodeByte {state : Option OpenSequence} {b : UInt8}
    (hstate : ∀ s, state = some s → s.IsBeyondAscii) :
    ∀ s, (decodeByte state b).2 = some s → s.IsBeyondAscii := by
  intro next hnext
  cases state with
  | none => exact isBeyondAscii_of_openWith hnext
  | some s =>
      have hs := hstate s rfl
      unfold decodeByte at hnext
      by_cases hrange : s.low ≤ b ∧ b ≤ s.high
      · by_cases hlast : s.missing ≤ 1
        · simp only [hrange, hlast, if_true, and_self] at hnext
          cases hnext
        · simp only [hrange, hlast, if_true, if_false, and_self] at hnext
          cases hnext
          have hbits := hs.bits_ge
          have hb : s.low.toNat ≤ b.toNat := UInt8.le_iff_toNat_le.mp hrange.1
          rw [if_neg hlast] at hbits
          refine ⟨Nat.le_refl 0x80, Nat.le_trans ?_ (Nat.le_add_right _ _)⟩
          dsimp only
          split <;> omega
      · simp only [hrange, if_false] at hnext
        exact isBeyondAscii_of_openWith hnext

/-- What a byte adds is a line feed only if the byte is. -/
theorem newline_mem_decodeByte {state : Option OpenSequence} {b : UInt8}
    (hstate : ∀ s, state = some s → s.IsBeyondAscii) (h : '\n' ∈ (decodeByte state b).1) :
    b = 0x0A := by
  cases state with
  | none => exact newline_mem_openWith h
  | some s =>
      have hs := hstate s rfl
      unfold decodeByte at h
      by_cases hrange : s.low ≤ b ∧ b ≤ s.high
      · by_cases hlast : s.missing ≤ 1
        · simp only [hrange, hlast, if_true, and_self] at h
          have hbits := hs.bits_ge
          have hb : s.low.toNat ≤ b.toNat := UInt8.le_iff_toNat_le.mp hrange.1
          have hchar := eq_of_newline_eq_ofNat (List.mem_singleton.mp h)
          rw [if_pos hlast] at hbits
          omega
        · simp only [hrange, hlast, if_true, if_false, and_self] at h
          exact absurd h List.not_mem_nil
      · simp only [hrange, if_false] at h
        rcases List.mem_cons.mp h with hbroken | hopened
        · exact absurd hbroken (by decide)
        · exact newline_mem_openWith hopened

/-- A line feed ends whatever is open. -/
theorem decodeByte_newline {state : Option OpenSequence}
    (hstate : ∀ s, state = some s → s.IsBeyondAscii) :
    decodeByte state 0x0A = (decodeFrom state [] ++ ['\n'], none) := by
  cases state with
  | none => rfl
  | some s =>
      have hlow : ¬ (s.low ≤ 0x0A ∧ 0x0A ≤ s.high) := by
        intro hrange
        have hle : s.low.toNat ≤ 0x0A := UInt8.le_iff_toNat_le.mp hrange.1
        have hge := (hstate s rfl).low_ge
        omega
      rw [decodeByte]
      simp only [hlow, if_false]
      rfl

/-! ## Whole texts -/

theorem newline_mem_of_decodeFrom {bytes : Bytes} {state : Option OpenSequence}
    (hstate : ∀ s, state = some s → s.IsBeyondAscii) (h : '\n' ∈ decodeFrom state bytes) :
    0x0A ∈ bytes := by
  induction bytes generalizing state with
  | nil =>
      rw [decodeFrom] at h
      split at h
      · exact absurd h (by decide)
      · exact absurd h List.not_mem_nil
  | cons b rest ih =>
      rw [decodeFrom_cons, List.mem_append] at h
      rcases h with hb | hrest
      · rw [newline_mem_decodeByte hstate hb]
        exact List.mem_cons_self
      · exact List.mem_cons_of_mem b (ih (isBeyondAscii_decodeByte hstate) hrest)

/-- A decoded line feed comes from a byte that is one. -/
theorem newline_mem_decodeFrom {bytes : Bytes} (h : '\n' ∈ decodeFrom none bytes) : 0x0A ∈ bytes :=
  newline_mem_of_decodeFrom isBeyondAscii_of_none h

theorem decodeFrom_append_of_state {state : Option OpenSequence}
    (hstate : ∀ s, state = some s → s.IsBeyondAscii) (front back : Bytes) :
    decodeFrom state (front ++ 0x0A :: back) =
      decodeFrom state front ++ '\n' :: decodeFrom none back := by
  induction front generalizing state with
  | nil =>
      rw [List.nil_append, decodeFrom_cons, decodeByte_newline hstate, List.append_assoc]
      rfl
  | cons b front ih =>
      rw [List.cons_append, decodeFrom_cons, decodeFrom_cons, ih (isBeyondAscii_decodeByte hstate),
        List.append_assoc]

/-- The two sides of a line feed are decoded separately. -/
theorem decodeFrom_append_newline (front back : Bytes) :
    decodeFrom none (front ++ 0x0A :: back) =
      decodeFrom none front ++ '\n' :: decodeFrom none back :=
  decodeFrom_append_of_state isBeyondAscii_of_none front back

end CiPlan.Text
