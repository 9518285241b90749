import CiPlan.Text.Utf8
import Mathlib.Tactic.SplitIfs

/-!
# The order of texts

Texts are compared code point by code point.  That is the order of their bytes in UTF-8 as well: the
bytes of a code point are below those of a greater one at a byte that both have
(`utf8EncodeChar_append_lt`), so what follows does not matter.

Main statement: `lt_iff_bytes_lt`.
-/

namespace CiPlan

namespace Text

/-- The bytes of a text. -/
def bytes (s : String) : Bytes := s.toUTF8.data.toList

theorem bytes_eq (s : String) : bytes s = s.toList.flatMap String.utf8EncodeChar := by
  rw [bytes, String.toUTF8, ← String.utf8Encode_toList, List.utf8Encode,
    List.toList_data_toByteArray]

theorem utf8EncodeChar_ne_nil (c : Char) : String.utf8EncodeChar c ≠ [] := by
  rw [String.utf8EncodeChar]
  split_ifs <;> simp

/-- The bytes of a code point are below those of a greater one, whatever follows. -/
theorem utf8EncodeChar_append_lt {c d : Char} (h : c < d) (xs ys : Bytes) :
    String.utf8EncodeChar c ++ xs < String.utf8EncodeChar d ++ ys := by
  have hval : c.val.toNat < d.val.toNat := h
  have hd : d.val.toNat < 0x110000 := by
    have hvalid := d.valid
    simp only [UInt32.isValidChar, Nat.isValidChar] at hvalid
    omega
  generalize hm : c.val.toNat = m at hval
  generalize hn : d.val.toNat = n at hval hd
  -- Bytes are compared as numbers.
  have hlt : ∀ a b, a < 256 → b < 256 → (UInt8.ofNat a < UInt8.ofNat b ↔ a < b) :=
    fun _ _ ha hb => UInt8.ofNat_lt_iff_lt ha hb
  have heq : ∀ a b, a < 256 → b < 256 → (UInt8.ofNat a = UInt8.ofNat b ↔ a = b) := by
    intro a b ha hb
    rw [← UInt8.toNat_inj, UInt8.toNat_ofNat', UInt8.toNat_ofNat', Nat.mod_eq_of_lt ha,
      Nat.mod_eq_of_lt hb]
  -- The digits of a number in base 64 are those of its quotients.
  have hdigits : ∀ k, k / 64 / 64 = k / 4096 ∧ k / 4096 / 64 = k / 262144 := fun k =>
    ⟨Nat.div_div_eq_div_mul k 64 64, Nat.div_div_eq_div_mul k 4096 64⟩
  have hdm := hdigits m
  have hdn := hdigits n
  have hm8 : m / 262144 % 8 = m / 262144 := Nat.mod_eq_of_lt (by omega)
  have hn8 : n / 262144 % 8 = n / 262144 := Nat.mod_eq_of_lt (by omega)
  simp only [String.utf8EncodeChar, hm, hn]
  -- One case for each pair of lengths.
  split_ifs <;>
    simp (disch := omega) only [List.cons_append, List.nil_append, List.cons_lt_cons_iff, hlt, heq,
      hm8, hn8]
      <;> omega

theorem flatMap_utf8EncodeChar_lt {cs ds : List Char} (h : cs < ds) :
    cs.flatMap String.utf8EncodeChar < ds.flatMap String.utf8EncodeChar := by
  induction h with
  | @nil d ds =>
      obtain ⟨b, bs, hd⟩ := List.exists_cons_of_ne_nil (utf8EncodeChar_ne_nil d)
      rw [List.flatMap_nil, List.flatMap_cons, hd, List.cons_append]
      exact List.nil_lt_cons ..
  | rel h => exact utf8EncodeChar_append_lt h _ _
  | cons h ih =>
      rw [List.flatMap_cons, List.flatMap_cons]
      exact List.append_left_lt ih

/-- Texts are in the order of their bytes. -/
theorem lt_iff_bytes_lt (s t : String) : s < t ↔ bytes s < bytes t := by
  have hlt : ∀ {s t : String}, s < t → bytes s < bytes t := by
    intro s t h
    rw [bytes_eq, bytes_eq]
    exact flatMap_utf8EncodeChar_lt (String.lt_iff.mp h)
  constructor
  · exact hlt
  · intro h
    refine Classical.byContradiction fun hnot => ?_
    by_cases heq : s = t
    · rw [heq] at h
      exact List.lt_irrefl _ h
    · have hts : t < s := by
        refine Classical.byContradiction fun hnot' => ?_
        exact heq (String.le_antisymm (String.not_lt.mp hnot') (String.not_lt.mp hnot))
      exact List.lt_asymm h (hlt hts)

end Text

end CiPlan
