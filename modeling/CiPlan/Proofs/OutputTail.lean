import CiPlan.Proofs.Decoding
import CiPlan.Proofs.Masking
import CiPlan.Run.Command

/-!
# The lines that are kept of a stream

The end of a stream is gathered line by line in a buffer that lets its oldest line go when it is
full.  What the buffer holds is at every moment the end of the lines that have come (`IsEnd`): this
is kept by one line more (`isEnd_push`), and so it holds of the whole stream.

The lines themselves are read from pieces that end in their line feeds.  Since a line feed is
decoded by itself and is a blank, they are the lines between the line feeds (`isEnd_outputTail`).
-/

namespace CiPlan

open Text

/-- `kept` are the last of some lines: as many as there are, up to a number. -/
structure IsEnd (count : Nat) (kept lines : List String) : Prop where
  suffix : kept <:+ lines
  length_eq : kept.length = min count lines.length

/-- There is one end of each length. -/
theorem IsEnd.eq_drop {count : Nat} {kept lines : List String} (h : IsEnd count kept lines) :
    kept = lines.drop (lines.length - count) := by
  have hlength := h.length_eq
  obtain ⟨front, rfl⟩ := h.suffix
  rw [List.length_append] at hlength
  have hfront : (front ++ kept).length - count = front.length := by
    rw [List.length_append]
    omega
  rw [hfront, List.drop_left]

/-- The lines of a stream that are not blank, each without blanks at its end and with some secrets
masked. -/
def nonblankLines (secrets : List String) (stream : Bytes) : List String :=
  ((stream.splitOn 0x0A).map (shownLine secrets)).filter (!isBlankText ·)

/-! ## The buffer -/

namespace OutputTail

variable {tail : OutputTail} {line : String} {seen : List String}

theorem isEnd_empty : IsEnd tailLines empty.lines [] :=
  ⟨List.suffix_refl [], (Nat.min_zero tailLines).symm⟩

theorem lines_push_of_nonblank (h : isBlankText line = false) :
    (tail.push line).lines = tail.stay ++ [line] := by
  rw [push, dif_pos h]

theorem push_of_blank (h : isBlankText line = true) : tail.push line = tail := by
  rw [push, dif_neg (ne_false_of_eq_true h)]

/-- One line more: the buffer holds the end of what has come, as it did before. -/
theorem isEnd_push (h : IsEnd tailLines tail.lines seen) (hline : isBlankText line = false) :
    IsEnd tailLines (tail.push line).lines (seen ++ [line]) := by
  have hlength := h.length_eq
  have hpos : 0 < tailLines := Nat.zero_lt_succ 19
  rw [lines_push_of_nonblank hline]
  constructor
  · have hstay : tail.stay <:+ seen := tail.stay_suffix.trans h.suffix
    obtain ⟨front, rfl⟩ := hstay
    exact ⟨front, (List.append_assoc front tail.stay [line]).symm⟩
  · rw [List.length_append, List.length_append, List.length_singleton]
    unfold stay
    by_cases hfull : tail.lines.length = tailLines
    · -- The oldest line goes, and there were lines enough without it.
      rw [if_pos hfull, List.length_tail]
      omega
    · rw [if_neg hfull]
      omega

/-- Of some lines more, the buffer takes those that are not blank. -/
theorem isEnd_foldl_push (lines : List String) (h : IsEnd tailLines tail.lines seen) :
    IsEnd tailLines (lines.foldl push tail).lines (seen ++ lines.filter (!isBlankText ·)) := by
  induction lines generalizing tail seen with
  | nil =>
      rw [List.filter_nil, List.append_nil]
      exact h
  | cons line lines ih =>
      rw [List.foldl_cons]
      by_cases hline : isBlankText line = true
      · rw [push_of_blank hline, List.filter_cons_of_neg (by simp [hline])]
        exact ih h
      · have hnonblank : isBlankText line = false := Bool.eq_false_iff.mpr hline
        have hstep := ih (isEnd_push h hnonblank)
        rw [List.append_assoc, List.singleton_append] at hstep
        rw [List.filter_cons_of_pos (by simp [hnonblank])]
        exact hstep

/-- Lines that are not blank make a text that is not empty. -/
theorem intercalate_eq_empty_iff {lines : List String}
    (h : ∀ line ∈ lines, isBlankText line = false) : "\n".intercalate lines = "" ↔ lines = [] := by
  cases lines with
  | nil => exact ⟨fun _ => rfl, fun _ => String.intercalate_nil⟩
  | cons first rest =>
      have hfirst : first ≠ "" := by
        rintro rfl
        exact absurd (h "" List.mem_cons_self) (by decide)
      refine ⟨fun hempty => absurd ?_ hfirst, fun hnil => absurd hnil (List.cons_ne_nil _ _)⟩
      cases rest with
      | nil => rwa [String.intercalate_singleton] at hempty
      | cons next rest =>
          rw [String.intercalate_cons_cons, String.append_eq_empty_iff,
            String.append_eq_empty_iff] at hempty
          exact hempty.1.1

theorem isEmpty_joined_iff : tail.joined.isEmpty = true ↔ tail.lines = [] :=
  String.isEmpty_iff.trans (intercalate_eq_empty_iff tail.nonblank)

/-- Two ends together are their lines one after the other. -/
theorem joinedWith_eq (first second : OutputTail) :
    first.joinedWith second = "\n".intercalate (first.lines ++ second.lines) := by
  unfold joinedWith
  by_cases hsecond : second.lines = []
  · rw [if_pos (isEmpty_joined_iff.mpr hsecond), hsecond, List.append_nil, joined]
  · rw [if_neg (mt isEmpty_joined_iff.mp hsecond)]
    by_cases hfirst : first.lines = []
    · have hempty : first.joined = "" := String.isEmpty_iff.mp (isEmpty_joined_iff.mpr hfirst)
      rw [if_pos (isEmpty_joined_iff.mpr hfirst), hempty, hfirst, List.nil_append]
      rfl
    · rw [if_neg (mt isEmpty_joined_iff.mp hfirst),
        String.intercalate_append_of_ne_nil hfirst hsecond]
      rfl

theorem joinedWith_eq_empty_iff {first second : OutputTail} :
    first.joinedWith second = "" ↔ first.lines ++ second.lines = [] := by
  rw [joinedWith_eq]
  apply intercalate_eq_empty_iff
  intro line hline
  rcases List.mem_append.mp hline with h | h
  · exact first.nonblank line h
  · exact second.nonblank line h

end OutputTail

/-! ## Pieces and lines -/

section Lines

variable {secrets : List String}

/-- What is between two separators has none. -/
theorem notMem_of_mem_splitOn {α : Type} [BEq α] [LawfulBEq α] {sep : α} {xs piece : List α}
    (h : piece ∈ xs.splitOn sep) : sep ∉ piece := by
  induction xs generalizing piece with
  | nil =>
      rw [List.splitOn_nil, List.mem_singleton] at h
      rw [h]
      exact List.not_mem_nil
  | cons x xs ih =>
      rw [List.splitOn_cons_eq_if_modifyHead] at h
      by_cases hx : x = sep
      · rw [if_pos (beq_iff_eq.mpr hx), List.mem_cons] at h
        rcases h with rfl | h
        · exact List.not_mem_nil
        · exact ih h
      · rw [if_neg (by simpa using hx)] at h
        cases hrest : xs.splitOn sep with
        | nil =>
            rw [hrest] at h
            exact absurd h List.not_mem_nil
        | cons first rest =>
            rw [hrest, List.modifyHead_cons, List.mem_cons] at h
            rcases h with rfl | h
            · have hfirst : sep ∉ first := ih (hrest ▸ List.mem_cons_self)
              exact List.not_mem_cons_of_ne_of_not_mem (Ne.symm hx) hfirst
            · exact ih (hrest ▸ List.mem_cons_of_mem first h)

/-- The line feed at the end of a piece is decoded by itself and trimmed. -/
theorem shownLine_newline (secrets : List String) (line : Bytes) :
    shownLine secrets (line ++ [0x0A]) = shownLine secrets line := by
  have hdecode : decodeFrom none (line ++ [0x0A]) = decodeFrom none line ++ ['\n'] :=
    decodeFrom_append_newline line []
  have htrim : trimEnd (decodeLossy (line ++ [0x0A])) = trimEnd (decodeLossy line) := by
    rw [trimEnd, trimEnd, decodeLossy, decodeLossy, String.toList_ofList, String.toList_ofList,
      hdecode, trimEndChars_append_blanks (by decide)]
  rw [shownLine, shownLine, htrim]

/-- Nothing shows an empty line. -/
theorem isBlankText_shownLine_nil (secrets : List String) :
    isBlankText (shownLine secrets []) = true := by
  rw [isBlankText, shownLine, toList_redactValues]
  have hnil : (trimEnd (decodeLossy [])).toList = [] := rfl
  rw [hnil, maskChars_nil]
  rfl

/-- What shows in a line of bytes has no line feed if the bytes have none. -/
theorem newline_notMem_shownLine {line : Bytes} (h : 0x0A ∉ line) :
    '\n' ∉ (shownLine secrets line).toList := by
  intro hmem
  rw [shownLine, toList_redactValues] at hmem
  rcases mem_maskChars hmem with htrimmed | hmask
  · rw [trimEnd, decodeLossy, String.toList_ofList, String.toList_ofList] at htrimmed
    obtain ⟨back, -, hback⟩ := exists_trimEndChars_append (decodeFrom none line)
    have hdecoded : '\n' ∈ decodeFrom none line := by
      rw [← hback]
      exact List.mem_append_left back htrimmed
    exact h (newline_mem_decodeFrom hdecoded)
  · exact absurd hmask (by decide)

theorem newline_notMem_of_mem_nonblankLines {stream : Bytes} {line : String}
    (h : line ∈ nonblankLines secrets stream) : '\n' ∉ line.toList := by
  obtain ⟨bytes, hbytes, rfl⟩ := List.mem_map.mp (List.mem_of_mem_filter h)
  exact newline_notMem_shownLine (notMem_of_mem_splitOn hbytes)

/-- The pieces show the lines between the line feeds; only an empty last line is in no piece. -/
theorem filter_splitOutput (secrets : List String) (stream : Bytes) :
    ∀ acc : Bytes, 0x0A ∉ acc →
      ((splitOutput acc stream).map (shownLine secrets)).filter (!isBlankText ·) =
        nonblankLines secrets (acc.reverse ++ stream) := by
  unfold nonblankLines
  induction stream with
  | nil =>
      intro acc hacc
      have hline : 0x0A ∉ acc.reverse := fun h => hacc (List.mem_reverse.mp h)
      rw [List.append_nil, List.splitOn_eq_singleton hline, splitOutput]
      by_cases hnil : acc = []
      · rw [hnil]
        simp [isBlankText_shownLine_nil]
      · rw [if_neg (by simpa using hnil)]
  | cons b rest ih =>
      intro acc hacc
      have hline : 0x0A ∉ acc.reverse := fun h => hacc (List.mem_reverse.mp h)
      rw [splitOutput]
      by_cases hb : b = 0x0A
      · have hrest := ih [] List.not_mem_nil
        rw [List.reverse_nil, List.nil_append] at hrest
        rw [if_pos hb, hb, List.splitOn_append_cons_self, List.splitOn_eq_singleton hline,
          List.reverse_cons, List.map_cons, shownLine_newline, List.map_append, List.map_singleton,
          List.filter_append, ← hrest, ← List.filter_append]
        rfl
      · have hacc' : 0x0A ∉ b :: acc :=
          List.not_mem_cons_of_ne_of_not_mem (Ne.symm hb) hacc
        rw [if_neg hb, ih (b :: acc) hacc', List.reverse_cons, List.append_assoc]
        rfl

/-- What is kept of a stream is the end of its lines. -/
theorem isEnd_outputTail (secrets : List String) (stream : Bytes) :
    IsEnd tailLines (outputTail secrets stream) (nonblankLines secrets stream) := by
  have hkept := OutputTail.isEnd_foldl_push ((splitOutput [] stream).map (shownLine secrets))
    OutputTail.isEnd_empty
  rw [List.foldl_map, List.nil_append, filter_splitOutput secrets stream [] List.not_mem_nil] at hkept
  exact hkept

theorem mem_nonblankLines_of_mem_outputTail {stream : Bytes} {line : String}
    (h : line ∈ outputTail secrets stream) : line ∈ nonblankLines secrets stream :=
  (isEnd_outputTail secrets stream).suffix.mem h

/-- Every line that is kept has been masked. -/
theorem exists_of_mem_outputTail {stream : Bytes} {line : String}
    (h : line ∈ outputTail secrets stream) : ∃ text, line = redactValues secrets text := by
  have hline := List.mem_of_mem_filter (mem_nonblankLines_of_mem_outputTail h)
  obtain ⟨bytes, -, rfl⟩ := List.mem_map.mp hline
  exact ⟨_, rfl⟩

end Lines

end CiPlan
