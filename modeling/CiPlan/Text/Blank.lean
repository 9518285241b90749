/-!
# Blank characters

The characters with the Unicode property `White_Space`, and the trimming of a text by them.  Every
place that drops surrounding blanks, asks whether a name is blank, or separates words uses this one
class.

Main statements: `trim_idem`, a trimmed text has nothing left to trim, and `append_trim_append`, the
text is its trimmed part between two runs of blanks.
-/

namespace CiPlan.Text

/-- The members of `White_Space`: five control characters, the space, the next-line and no-break
spaces, and the spaces and separators beyond Latin-1. -/
def isBlank (c : Char) : Bool :=
  let n := c.toNat
  (0x09 ≤ n && n ≤ 0x0D) || n == 0x20 || n == 0x85 || n == 0xA0 || n == 0x1680 ||
    (0x2000 ≤ n && n ≤ 0x200A) || n == 0x2028 || n == 0x2029 || n == 0x202F || n == 0x205F ||
    n == 0x3000

/-- Drops the blanks at the front. -/
def trimStartChars (cs : List Char) : List Char :=
  cs.dropWhile isBlank

/-- Drops the blanks at the back. -/
def trimEndChars (cs : List Char) : List Char :=
  (cs.reverse.dropWhile isBlank).reverse

/-- Drops the blanks at both ends. -/
def trimChars (cs : List Char) : List Char :=
  trimEndChars (trimStartChars cs)

/-- `trimChars` on text. -/
def trim (s : String) : String :=
  String.ofList (trimChars s.toList)

/-- `trimEndChars` on text. -/
def trimEnd (s : String) : String :=
  String.ofList (trimEndChars s.toList)

/-- A text is blank when it has no character that is not. -/
def isBlankText (s : String) : Bool :=
  s.toList.all isBlank

section Laws

private theorem dropWhile_dropWhile (p : Char → Bool) (cs : List Char) :
    (cs.dropWhile p).dropWhile p = cs.dropWhile p := by
  induction cs with
  | nil => rfl
  | cons c cs ih =>
    by_cases h : p c
    · simp [h, ih]
    · simp [h]

/-- The back of a text is a run of blanks after its trimmed part. -/
theorem exists_trimEndChars_append (cs : List Char) :
    ∃ back : List Char, back.all isBlank = true ∧ trimEndChars cs ++ back = cs := by
  refine ⟨(cs.reverse.takeWhile isBlank).reverse, ?_, ?_⟩
  · simp
  · rw [trimEndChars, ← List.reverse_append, List.takeWhile_append_dropWhile, List.reverse_reverse]

/-- The front of a text is a run of blanks before its trimmed part. -/
theorem exists_append_trimStartChars (cs : List Char) :
    ∃ front : List Char, front.all isBlank = true ∧ front ++ trimStartChars cs = cs :=
  ⟨cs.takeWhile isBlank, List.all_takeWhile, List.takeWhile_append_dropWhile⟩

/-- A text is its trimmed part between two runs of blanks. -/
theorem append_trim_append (cs : List Char) :
    ∃ front back : List Char, front.all isBlank = true ∧ back.all isBlank = true ∧
      front ++ trimChars cs ++ back = cs := by
  obtain ⟨front, hf, hcs⟩ := exists_append_trimStartChars cs
  obtain ⟨back, hb, hmid⟩ := exists_trimEndChars_append (trimStartChars cs)
  refine ⟨front, back, hf, hb, ?_⟩
  rw [List.append_assoc, trimChars, hmid, hcs]

/-- Blanks at the front of a text are trimmed. -/
theorem trimChars_blanks_append {front : List Char} (hf : front.all isBlank = true)
    (cs : List Char) : trimChars (front ++ cs) = trimChars cs := by
  have hstart : trimStartChars (front ++ cs) = trimStartChars cs :=
    List.dropWhile_append_of_pos (List.all_eq_true.mp hf)
  rw [trimChars, hstart, trimChars]

/-- Blanks at the back of a text are trimmed. -/
theorem trimEndChars_append_blanks {back : List Char} (hb : back.all isBlank = true)
    (cs : List Char) : trimEndChars (cs ++ back) = trimEndChars cs := by
  rw [trimEndChars, List.reverse_append,
    List.dropWhile_append_of_pos fun c hc => List.all_eq_true.mp hb c (List.mem_reverse.mp hc),
    trimEndChars]

/-- Blanks at the back of a text are trimmed. -/
theorem trimChars_append_blanks {back : List Char} (hb : back.all isBlank = true)
    (cs : List Char) : trimChars (cs ++ back) = trimChars cs := by
  have hback : back.dropWhile isBlank = [] := by
    rw [← List.append_nil back, List.dropWhile_append_of_pos (List.all_eq_true.mp hb),
      List.dropWhile_nil]
  rw [trimChars, trimChars, trimStartChars, trimStartChars, List.dropWhile_append, hback]
  split
  · next hcs => rw [List.isEmpty_iff.mp hcs]
  · exact trimEndChars_append_blanks hb _

/-- What `trimEndChars` leaves ends in no blank. -/
theorem trimEndChars_trimEndChars (cs : List Char) :
    trimEndChars (trimEndChars cs) = trimEndChars cs := by
  simp [trimEndChars, dropWhile_dropWhile]

private theorem dropWhile_eq_self {p : Char → Bool} {cs : List Char}
    (h : ∀ c, cs.head? = some c → p c = false) : cs.dropWhile p = cs := by
  cases cs with
  | nil => rfl
  | cons c cs => simp [h c rfl]

private theorem head?_dropWhile {p : Char → Bool} {cs : List Char} {c : Char}
    (h : (cs.dropWhile p).head? = some c) : p c = false := by
  induction cs with
  | nil => simp at h
  | cons d cs ih =>
    by_cases hd : p d
    · exact ih (by simpa [List.dropWhile_cons, hd] using h)
    · have : d = c := by simpa [List.dropWhile_cons, hd] using h
      simpa [← this] using hd

private theorem trimStartChars_eq_self_of_append {cs : List Char} (back : List Char)
    (h : trimStartChars (cs ++ back) = cs ++ back) : trimStartChars cs = cs := by
  apply dropWhile_eq_self
  intro c hc
  cases cs with
  | nil => simp at hc
  | cons d cs =>
    have hd : d = c := by simpa using hc
    have hhead : (List.dropWhile isBlank ((d :: cs) ++ back)).head? = some c := by
      rw [show List.dropWhile isBlank ((d :: cs) ++ back) = (d :: cs) ++ back from h, hd]
      rfl
    exact head?_dropWhile hhead

/-- A trimmed text has nothing left to trim. -/
theorem trimChars_trimChars (cs : List Char) : trimChars (trimChars cs) = trimChars cs := by
  obtain ⟨back, _, hback⟩ := exists_trimEndChars_append (trimStartChars cs)
  have hstart : trimStartChars (trimChars cs) = trimChars cs := by
    apply trimStartChars_eq_self_of_append back
    rw [trimChars, hback, trimStartChars, trimStartChars, dropWhile_dropWhile]
  rw [show trimChars (trimChars cs) = trimEndChars (trimStartChars (trimChars cs)) from rfl, hstart]
  exact trimEndChars_trimEndChars _

/-- A trimmed text has nothing left to trim. -/
theorem trim_idem (s : String) : trim (trim s) = trim s := by
  simp [trim, trimChars_trimChars]

end Laws

end CiPlan.Text
