import CiPlan.Proofs.Disclosure

/-!
# What the reason of a failed bucket consists of

The reason is put together of the ends of two streams, each of them the last lines of its stream
that are not blank; the status stands for them when there are none.  No line has a line feed, so
that the reason falls into just these lines again (`linesOf_failureReason`).  Each end has at most
twenty lines, which leaves forty.

Main result: `run_reason`.
-/

namespace CiPlan

open Text

/-- The lines of a text, which its line feeds divide. -/
def linesOf (text : String) : List String :=
  (text.toList.splitOn '\n').map String.ofList

/-- A reason is made of the ends of two streams, the second on lines of its own.  The status stands
for them when neither has a line. -/
structure IsReason (status : String) (out err : List String) (reason : String) : Prop where
  both : out ≠ [] → err ≠ [] →
    reason = "\n".intercalate out ++ "\n" ++ "\n".intercalate err
  onlyFirst : out ≠ [] → err = [] → reason = "\n".intercalate out
  onlySecond : out = [] → err ≠ [] → reason = "\n".intercalate err
  neither : out = [] → err = [] → reason = status

section Lines

variable {secrets : List String} {output : ProcessOutput}

/-- Lines without line feeds are found again in the text that is put together of them. -/
theorem linesOf_intercalate {lines : List String} (hne : lines ≠ [])
    (h : ∀ line ∈ lines, '\n' ∉ line.toList) : linesOf ("\n".intercalate lines) = lines := by
  have hchars : ∀ cs ∈ lines.map String.toList, '\n' ∉ cs := by
    intro cs hcs
    obtain ⟨line, hline, rfl⟩ := List.mem_map.mp hcs
    exact h line hline
  have hsplit := List.splitOn_intercalate '\n' hchars (mt List.map_eq_nil_iff.mp hne)
  rw [linesOf, String.toList_intercalate]
  show (List.splitOn '\n' (['\n'].intercalate (lines.map String.toList))).map String.ofList = lines
  rw [hsplit, List.map_map]
  exact (List.map_congr_left fun line _ => String.ofList_toList).trans (List.map_id lines)

/-! ### The status is on one line -/

theorem newline_notMem_append {s t : String} (hs : '\n' ∉ s.toList) (ht : '\n' ∉ t.toList) :
    '\n' ∉ (s ++ t).toList := by
  rw [String.toList_append, List.mem_append, not_or]
  exact ⟨hs, ht⟩

theorem newline_notMem_repr (n : Nat) : '\n' ∉ n.repr.toList := by
  intro h
  rw [Nat.toList_repr] at h
  have hdigit : '\n'.isDigit = true := Nat.isDigit_of_mem_toDigits (by omega) (by omega) h
  exact absurd hdigit (by decide)

theorem newline_notMem_toString (i : Int) : '\n' ∉ (toString i).toList := by
  rw [Int.toString_eq_repr, Int.repr_eq_if]
  split
  · exact newline_notMem_repr i.toNat
  · exact newline_notMem_append (by decide) (newline_notMem_repr (-i).toNat)

theorem newline_notMem_signalNote (signal : Nat) :
    '\n' ∉ (ExitStatus.signalNote signal).toList := by
  have hnames : ∀ name ∈ ExitStatus.signalNames, '\n' ∉ name.toList := by decide
  unfold ExitStatus.signalNote
  split
  · decide
  · split
    · next name hname =>
      have hname := hnames name (List.mem_of_getElem? hname)
      exact newline_notMem_append (newline_notMem_append (by decide) hname) (by decide)
    · decide

/-- A status is displayed on one line. -/
theorem linesOf_display (status : ExitStatus) : linesOf status.display = [status.display] := by
  have hline : '\n' ∉ status.display.toList := by
    cases status with
    | exited code => exact newline_notMem_append (by decide) (newline_notMem_toString code.toInt)
    | killed signal coreDumped =>
        have hcore : '\n' ∉ (if coreDumped then " (core dumped)" else "").toList := by
          cases coreDumped <;> decide
        exact newline_notMem_append
          (newline_notMem_append
            (newline_notMem_append (by decide) (newline_notMem_repr signal))
            (newline_notMem_signalNote signal))
          hcore
  rw [linesOf, List.splitOn_eq_singleton hline, List.map_singleton, String.ofList_toList]

/-! ### The lines of the reason -/

/-- The reason falls into the lines that it is put together of. -/
theorem linesOf_failureReason (h : output.lastLines secrets ≠ []) :
    linesOf (failureReason secrets output) = output.lastLines secrets := by
  rw [failureReason_eq, if_neg h]
  apply linesOf_intercalate h
  intro line hline
  rcases List.mem_append.mp hline with hout | herr
  · exact newline_notMem_of_mem_nonblankLines (mem_nonblankLines_of_mem_outputTail hout)
  · exact newline_notMem_of_mem_nonblankLines (mem_nonblankLines_of_mem_outputTail herr)

/-- Twenty lines of each stream make forty. -/
theorem length_linesOf_failureReason_le (secrets : List String) (output : ProcessOutput) :
    (linesOf (failureReason secrets output)).length ≤ 40 := by
  by_cases h : output.lastLines secrets = []
  · rw [failureReason_of_nil h, linesOf_display, List.length_singleton]
    omega
  · have hout := (OutputTail.ofStream secrets output.stdout).length_le
    have herr := (OutputTail.ofStream secrets output.stderr).length_le
    have htwenty : tailLines = 20 := rfl
    rw [linesOf_failureReason h, ProcessOutput.lastLines, List.length_append, outputTail, outputTail]
    omega

theorem isReason_failureReason (secrets : List String) (output : ProcessOutput) :
    IsReason output.status.display (outputTail secrets output.stdout)
      (outputTail secrets output.stderr) (failureReason secrets output) := by
  rw [failureReason_eq, ProcessOutput.lastLines]
  constructor
  · intro hout herr
    rw [if_neg (List.append_ne_nil_of_left_ne_nil hout _)]
    exact String.intercalate_append_of_ne_nil hout herr
  · intro hout herr
    rw [herr, List.append_nil, if_neg hout]
  · intro hout herr
    rw [hout, List.nil_append, if_neg herr]
  · intro hout herr
    rw [hout, herr, List.append_nil, if_pos rfl]

end Lines

/-! ## A failed bucket -/

namespace TestCommand

/-- A process that ends without success. -/
theorem run_of_unsuccessful {c : TestCommand} {launch : Launcher} {env : Environment}
    {planned : PlannedBucket} {level : TriggerLevel} {output : ProcessOutput}
    (hlaunch : launch c.program (c.argumentsFor planned.bucket level)
      (planned.profile.childEnvironment env) = .ok output)
    (hstatus : output.status.isSuccess = false) :
    (c.run launch env planned level).ending = .outcome (.failed output.status.code?
      (failureReason (planned.profile.secretValues env) output)) := by
  simp only [run, hlaunch, ProcessOutput.outcome, hstatus, Bool.false_eq_true, if_false]

/-- The reason that a failed bucket is reported with.  Of the lines of each stream that are not
blank, masked as they are, it has the last twenty, or all when there are fewer; these are the lines
of the reason, first those of the one stream and then those of the other.  When no stream has such a
line, the reason is the status. -/
theorem run_reason (c : TestCommand) (launch : Launcher) (env : Environment)
    (planned : PlannedBucket) (level : TriggerLevel) {output : ProcessOutput}
    (hlaunch : launch c.program (c.argumentsFor planned.bucket level)
      (planned.profile.childEnvironment env) = .ok output)
    (hstatus : output.status.isSuccess = false) :
    ∃ reason out err,
      (c.run launch env planned level).ending =
        .outcome (.failed output.status.code? reason) ∧
      IsEnd 20 out (nonblankLines (planned.profile.secretValues env) output.stdout) ∧
      IsEnd 20 err (nonblankLines (planned.profile.secretValues env) output.stderr) ∧
      IsReason output.status.display out err reason ∧
      (out ++ err ≠ [] → linesOf reason = out ++ err) ∧
      (linesOf reason).length ≤ 40 := by
  have hout := isEnd_outputTail (planned.profile.secretValues env) output.stdout
  have herr := isEnd_outputTail (planned.profile.secretValues env) output.stderr
  have hreason := isReason_failureReason (planned.profile.secretValues env) output
  have hlength := length_linesOf_failureReason_le (planned.profile.secretValues env) output
  exact ⟨_, _, _, run_of_unsuccessful hlaunch hstatus, hout, herr, hreason, linesOf_failureReason,
    hlength⟩

/-! ### A process with much to say -/

/-- The numbers that are counted up to 22, beginning at one of them. -/
def countedFrom (first : Nat) : List String :=
  ((List.range 23).drop first).map toString

/-- Twenty-two lines with a blank one among them, the last without a line feed, and a complaint on
two lines, of which one has a key and the other a byte that spells nothing. -/
def wordyFailure : ProcessOutput :=
  ⟨.exited 1, ("\n".intercalate (["1", "2", " \t", "3 \r"] ++ countedFrom 4)).toUTF8.data.toList,
    "bad key s3cr3t\r\n".toUTF8.data.toList ++ [0xFF, 0x0A], 0⟩

theorem run_reason_wordy :
    (TestCommand.run ⟨"pytest", ["-v"], "tests"⟩ (fun _ _ _ => .ok wordyFailure)
        (onlySet "SERVICE_KEY" "s3cr3t") keyedBucket .release).ending =
      .outcome (.failed (some 1)
        ("\n".intercalate (countedFrom 3) ++ "\n" ++ "bad key ***\n\uFFFD")) := by
  have hsecrets : keyedBucket.profile.secretValues (onlySet "SERVICE_KEY" "s3cr3t") = ["s3cr3t"] :=
    secretValues_keyedBucket (by decide)
  obtain ⟨reason, out, err, hrun, hout, herr, hreason, -, -⟩ :=
    run_reason ⟨"pytest", ["-v"], "tests"⟩ (fun _ _ _ => .ok wordyFailure)
      (onlySet "SERVICE_KEY" "s3cr3t") keyedBucket .release rfl rfl
  rw [hsecrets] at hout herr
  have hout' : out = countedFrom 3 := by
    rw [hout.eq_drop]
    decide +kernel
  have herr' : err = ["bad key ***", "\uFFFD"] := by
    rw [herr.eq_drop]
    decide +kernel
  rw [hrun, hreason.both (by rw [hout']; decide) (by rw [herr']; decide), hout', herr']
  rfl

end TestCommand

end CiPlan
