/-!
# Decoding bytes as text

What a process writes is a sequence of bytes that need not be UTF-8.  Decoding never fails: each
longest piece of a broken sequence becomes one replacement character, as the Unicode standard
recommends.

The decoder is one pass over the bytes, with the sequence that is still open as its state.

Main statement: `takeBytes_prefix`, cutting a text to a number of bytes keeps a beginning of it.
-/

namespace CiPlan

/-- Bytes, as processes write them. -/
abbrev Bytes := List UInt8

namespace Text

/-- The character that stands for what cannot be decoded. -/
def replacement : Char := '\uFFFD'

/-- A sequence of which some bytes have been read. -/
structure OpenSequence where
  /-- How many bytes are missing. -/
  missing : Nat
  /-- The least byte that may come next. -/
  low : UInt8
  /-- The greatest byte that may come next. -/
  high : UInt8
  /-- The bits that have been read. -/
  bits : Nat

/-- The bytes that continue a sequence, unless its first byte allows fewer. -/
def OpenSequence.ofLead (missing : Nat) (bits : UInt8) : OpenSequence :=
  ⟨missing, 0x80, 0xBF, bits.toNat⟩

/-- What a byte at the start of a character begins or says. -/
def openWith (b : UInt8) : List Char × Option OpenSequence :=
  if b < 0x80 then ([Char.ofNat b.toNat], none)
  else if b < 0xC2 then ([replacement], none)
  else if b < 0xE0 then ([], some (.ofLead 1 (b - 0xC0)))
  else if b = 0xE0 then ([], some { OpenSequence.ofLead 2 0 with low := 0xA0 })
  else if b = 0xED then ([], some { OpenSequence.ofLead 2 0xD with high := 0x9F })
  else if b < 0xF0 then ([], some (.ofLead 2 (b - 0xE0)))
  else if b = 0xF0 then ([], some { OpenSequence.ofLead 3 0 with low := 0x90 })
  else if b < 0xF4 then ([], some (.ofLead 3 (b - 0xF0)))
  else if b = 0xF4 then ([], some { OpenSequence.ofLead 3 4 with high := 0x8F })
  else ([replacement], none)

/-- The characters after the bytes of an open sequence. -/
def decodeFrom (state : Option OpenSequence) : Bytes → List Char
  | [] => if state.isSome then [replacement] else []
  | b :: rest =>
    match state with
    | none =>
      let (chars, next) := openWith b
      chars ++ decodeFrom next rest
    | some s =>
      if s.low ≤ b ∧ b ≤ s.high then
        let bits := s.bits * 64 + (b.toNat - 0x80)
        if s.missing ≤ 1 then Char.ofNat bits :: decodeFrom none rest
        else decodeFrom (some ⟨s.missing - 1, 0x80, 0xBF, bits⟩) rest
      else
        let (chars, next) := openWith b
        replacement :: (chars ++ decodeFrom next rest)

/-- The number of a character that is made from a number. -/
theorem toNat_ofNat_of_isValidChar {n : Nat} (h : n.isValidChar) : (Char.ofNat n).toNat = n := by
  rw [Char.ofNat, dif_pos h]
  rfl

/-- The text that some bytes spell. -/
def decodeLossy (bytes : Bytes) : String :=
  String.ofList (decodeFrom none bytes)

/-- The longest beginning of some characters that takes at most so many bytes. -/
def takeBytes (limit : Nat) : List Char → List Char
  | [] => []
  | c :: cs => if c.utf8Size ≤ limit then c :: takeBytes (limit - c.utf8Size) cs else []

/-- What is cut off is at the end. -/
theorem takeBytes_prefix (limit : Nat) (cs : List Char) : takeBytes limit cs <+: cs := by
  induction cs generalizing limit with
  | nil => exact List.prefix_refl _
  | cons c cs ih =>
    unfold takeBytes
    split
    · exact List.cons_prefix_cons.2 ⟨rfl, ih _⟩
    · exact List.nil_prefix

example : decodeFrom none [0x61, 0xC3, 0xA9, 0xE2, 0x82, 0xAC, 0xF0, 0x9F, 0x98, 0x80] =
    ['a', 'é', '€', '😀'] := by decide

example : decodeFrom none [0xE2, 0x82, 0x61, 0xC0, 0xAF] =
    [replacement, 'a', replacement, replacement] := by decide

end Text

end CiPlan
