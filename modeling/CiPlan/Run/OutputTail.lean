import CiPlan.Leak.Redaction
import CiPlan.Text.Blank
import CiPlan.Text.Utf8

/-!
# The end of a stream

What a process writes is read in pieces, each of which goes up to a line feed.  A piece shows one
line, and of the lines that are not blank the last ones are kept: a new line comes after the others,
and the oldest makes room for it.

`OutputTail` says of itself that it holds no more lines than may be kept, and no blank one.
-/

namespace CiPlan

/-- How many lines of each stream a reason keeps. -/
def tailLines : Nat := 20

/-- The pieces in which a stream is read.  Each goes up to a line feed, which belongs to it; what is
after the last line feed is a piece unless it is empty.  `acc` holds the piece that is being read,
latest first. -/
def splitOutput (acc : Bytes) : Bytes → List Bytes
  | [] => if acc.isEmpty then [] else [acc.reverse]
  | b :: rest =>
    if b = 0x0A then (b :: acc).reverse :: splitOutput [] rest else splitOutput (b :: acc) rest

/-- The line that a piece shows: without blanks at its end, and with some secrets masked. -/
def shownLine (secrets : List String) (piece : Bytes) : String :=
  redactValues secrets (Text.trimEnd (Text.decodeLossy piece))

/-- The last lines of a stream that are not blank. -/
structure OutputTail where
  /-- Oldest first. -/
  lines : List String
  length_le : lines.length ≤ tailLines
  nonblank : ∀ line ∈ lines, Text.isBlankText line = false

namespace OutputTail

/-- No line yet. -/
def empty : OutputTail :=
  ⟨[], Nat.zero_le tailLines, List.forall_mem_nil _⟩

/-- The lines that stay when one more comes. -/
def stay (tail : OutputTail) : List String :=
  if tail.lines.length = tailLines then tail.lines.tail else tail.lines

theorem length_stay_lt (tail : OutputTail) : tail.stay.length < tailLines := by
  have hle := tail.length_le
  unfold stay
  split
  · have hpos : 0 < tailLines := Nat.zero_lt_succ 19
    rw [List.length_tail]
    omega
  · omega

theorem stay_suffix (tail : OutputTail) : tail.stay <:+ tail.lines := by
  unfold stay
  split
  · exact List.tail_suffix tail.lines
  · exact List.suffix_refl tail.lines

theorem length_le_push (tail : OutputTail) (line : String) :
    (tail.stay ++ [line]).length ≤ tailLines := by
  have hlt := tail.length_stay_lt
  rw [List.length_append, List.length_singleton]
  exact hlt

theorem nonblank_push (tail : OutputTail) {line : String} (h : Text.isBlankText line = false) :
    ∀ l ∈ tail.stay ++ [line], Text.isBlankText l = false := by
  intro l hl
  rcases List.mem_append.mp hl with hold | hnew
  · exact tail.nonblank l (tail.stay_suffix.mem hold)
  · rw [List.mem_singleton.mp hnew]
    exact h

/-- One line more.  A blank line is passed over. -/
def push (tail : OutputTail) (line : String) : OutputTail :=
  if h : Text.isBlankText line = false then
    ⟨tail.stay ++ [line], tail.length_le_push line, tail.nonblank_push h⟩
  else tail

/-- The end of a stream, with some secrets masked. -/
def ofStream (secrets : List String) (stream : Bytes) : OutputTail :=
  (splitOutput [] stream).foldl (fun tail piece => tail.push (shownLine secrets piece)) empty

/-- The lines as one text. -/
def joined (tail : OutputTail) : String :=
  "\n".intercalate tail.lines

/-- The ends of two streams as one text, the second on lines of its own. -/
def joinedWith (first second : OutputTail) : String :=
  let gap := if first.joined.isEmpty then "" else "\n"
  if second.joined.isEmpty then first.joined else first.joined ++ gap ++ second.joined

end OutputTail

end CiPlan
