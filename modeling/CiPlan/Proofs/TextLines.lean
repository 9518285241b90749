import CiPlan.Proofs.Masking
import CiPlan.Text.Blank

/-!
# The lines of a text

`textLines` cuts a text at its line feeds, and everything about it follows from
`textLines_append_cons`, by induction on a text along its lines (`lines_induction`).

* `textLines_append_newline` — what comes after the end of a line is cut by itself.
* `AddsReturns.map_trimEndChars` — carriage returns before line feeds are blanks at the ends of their
  lines.
-/

namespace CiPlan.Text

/-! ## Cutting at line feeds -/

/-- The lines of a text, which its line feeds end; what is after the last one is a line unless it is
empty. -/
def textLines : List Char → List (List Char)
  | [] => []
  | c :: cs =>
    if c = '\n' then [] :: textLines cs
    else match textLines cs with
      | [] => [[c]]
      | line :: lines => (c :: line) :: lines

section Lines

variable {cs line : List Char}

theorem textLines_append_cons (h : '\n' ∉ line) (cs : List Char) :
    textLines (line ++ '\n' :: cs) = line :: textLines cs := by
  induction line with
  | nil => rfl
  | cons c line ih =>
      rw [List.mem_cons, not_or] at h
      rw [List.cons_append, textLines, if_neg (Ne.symm h.1), ih h.2]

theorem textLines_of_not_mem (h : '\n' ∉ line) (hne : line ≠ []) : textLines line = [line] := by
  induction line with
  | nil => exact absurd rfl hne
  | cons c line ih =>
      rw [List.mem_cons, not_or] at h
      rw [textLines, if_neg (Ne.symm h.1)]
      cases line with
      | nil => rfl
      | cons d line => rw [ih h.2 (List.cons_ne_nil d line)]

/-- Induction on a text by its lines. -/
theorem lines_induction {motive : List Char → Prop} (nil : motive [])
    (last : ∀ line, '\n' ∉ line → line ≠ [] → motive line)
    (more : ∀ line cs, '\n' ∉ line → motive cs → motive (line ++ '\n' :: cs)) (cs : List Char) :
    motive cs := by
  by_cases hmem : '\n' ∈ cs
  · -- What is after the first line feed is shorter, but need not be the tail of the text.
    obtain ⟨line, rest, hcs, hline⟩ := List.eq_append_cons_of_mem hmem
    have hshorter : rest.length < cs.length := by
      rw [hcs, List.length_append, List.length_cons]
      omega
    rw [hcs]
    exact more line rest hline (lines_induction nil last more rest)
  · by_cases hnil : cs = []
    · exact hnil ▸ nil
    · exact last cs hmem hnil
termination_by cs.length

theorem infix_of_mem_textLines (h : line ∈ textLines cs) : line <:+: cs := by
  induction cs using lines_induction with
  | nil => exact absurd h List.not_mem_nil
  | last first hfirst hne =>
      rw [textLines_of_not_mem hfirst hne, List.mem_singleton] at h
      exact h ▸ List.infix_rfl
  | more first cs hfirst ih =>
      rw [textLines_append_cons hfirst, List.mem_cons] at h
      rcases h with rfl | h
      · exact (List.prefix_append line _).isInfix
      · exact (ih h).trans ((List.suffix_cons '\n' cs).trans (List.suffix_append _ _)).isInfix

/-- The lines of two texts one after the other, the first of which ends its last line. -/
theorem textLines_append_newline (front back : List Char) :
    textLines (front ++ '\n' :: back) = textLines (front ++ ['\n']) ++ textLines back := by
  induction front using lines_induction with
  | nil => rfl
  | last line hline _ =>
      rw [textLines_append_cons hline, textLines_append_cons hline]
      rfl
  | more line cs hline ih =>
      rw [List.append_assoc, List.append_assoc, List.cons_append, List.cons_append,
        textLines_append_cons hline, textLines_append_cons hline, ih, List.cons_append]

/-- A line feed at the end of a text adds no line to a last line that has none. -/
theorem textLines_concat_newline (hne : cs ≠ []) (h : cs.getLast? ≠ some '\n') :
    textLines (cs ++ ['\n']) = textLines cs := by
  induction cs using lines_induction with
  | nil => exact absurd rfl hne
  | last line hline hnil =>
      rw [textLines_append_cons hline, textLines_of_not_mem hline hnil]
      rfl
  | more line cs hline ih =>
      by_cases hcs : cs = []
      · rw [hcs, List.getLast?_append] at h
        exact absurd rfl h
      · have hlast : cs.getLast? ≠ some '\n' := by
          rw [List.getLast?_append_of_ne_nil _ (List.cons_ne_nil _ _), List.getLast?_cons,
            List.getLast?_eq_some_getLast hcs] at h
          rw [List.getLast?_eq_some_getLast hcs]
          exact h
        rw [List.append_assoc, List.cons_append, textLines_append_cons hline,
          textLines_append_cons hline, ih hcs hlast]

end Lines

/-! ## Line ends -/

/-- The second text is the first with a carriage return put before some of its line feeds. -/
inductive AddsReturns : List Char → List Char → Prop where
  | nil : AddsReturns [] []
  | keep (c : Char) {cs ds : List Char} : AddsReturns cs ds → AddsReturns (c :: cs) (c :: ds)
  | newline {cs ds : List Char} : AddsReturns cs ds →
      AddsReturns ('\n' :: cs) ('\r' :: '\n' :: ds)

section LineEnds

variable {cs ds : List Char}

/-- Replacing the line feeds is one way to put in carriage returns: before each of them. -/
theorem addsReturns_replaceChars (cs : List Char) :
    AddsReturns cs (replaceChars ['\n'] ['\r', '\n'] cs) := by
  have hnewline : ['\n'] ≠ [] := List.cons_ne_nil _ _
  induction cs using replaceChars_induction hnewline with
  | nil =>
      rw [replaceChars]
      exact .nil
  | replace cs ih =>
      rw [replaceChars_append hnewline]
      exact .newline ih
  | keep c cs hc ih =>
      rw [replaceChars_cons hc]
      exact .keep c ih

/-- The end of a text is trimmed in the same way whatever is before it. -/
theorem trimEndChars_cons (c : Char) (cs : List Char) :
    trimEndChars (c :: trimEndChars cs) = trimEndChars (c :: cs) := by
  obtain ⟨back, hback, hcs⟩ := exists_trimEndChars_append cs
  calc trimEndChars (c :: trimEndChars cs)
      = trimEndChars (c :: trimEndChars cs ++ back) := (trimEndChars_append_blanks hback _).symm
    _ = trimEndChars (c :: cs) := by rw [List.cons_append, hcs]

/-- A character before two texts whose lines are alike. -/
theorem map_trimEndChars_textLines_cons (c : Char)
    (h : (textLines ds).map trimEndChars = (textLines cs).map trimEndChars) :
    (textLines (c :: ds)).map trimEndChars = (textLines (c :: cs)).map trimEndChars := by
  rw [textLines, textLines]
  by_cases hc : c = '\n'
  · rw [if_pos hc, if_pos hc, List.map_cons, List.map_cons, h]
  · rw [if_neg hc, if_neg hc]
    cases hcs : textLines cs with
    | nil =>
        rw [hcs, List.map_nil, List.map_eq_nil_iff] at h
        rw [h]
    | cons line lines =>
        rw [hcs, List.map_cons] at h
        obtain ⟨line', lines', hds, hline, hlines⟩ := List.map_eq_cons_iff.mp h
        rw [hds]
        show trimEndChars (c :: line') :: lines'.map trimEndChars =
          trimEndChars (c :: line) :: lines.map trimEndChars
        rw [← trimEndChars_cons c line', hline, trimEndChars_cons, hlines]

/-- A carriage return before a line feed is a blank at the end of its line. -/
theorem AddsReturns.map_trimEndChars (h : AddsReturns cs ds) :
    (textLines ds).map trimEndChars = (textLines cs).map trimEndChars := by
  induction h with
  | nil => rfl
  | keep c _ ih => exact map_trimEndChars_textLines_cons c ih
  | @newline cs ds _ ih =>
      show trimEndChars ['\r'] :: (textLines ds).map trimEndChars =
        trimEndChars [] :: (textLines cs).map trimEndChars
      rw [ih]
      rfl

end LineEnds

end CiPlan.Text
