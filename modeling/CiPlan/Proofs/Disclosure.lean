import CiPlan.Matrix.Builtin
import CiPlan.Proofs.OutputTail

/-!
# What the reason of a failed bucket gives away

The reason of a failed bucket consists of the last lines of what its process wrote.  Secrets are
masked in each line before the lines are put together, so a secret can come back only where the
lines meet: its own first line ends one of them, its inner lines are lines that follow, and its last
line begins the next (`LiesAcross`).  A process that wrote nothing is reported by its status, in
which nothing is masked.

Main result: `run_discloses_iff`, which secrets a reason holds.
-/

namespace CiPlan

open Text

/-! ## Lines put together -/

/-- The characters of some lines, with line feeds between them. -/
def joinLines (lines : List (List Char)) : List Char :=
  ['\n'].intercalate lines

/-- A text lies across some lines when it runs from within one of them into a later one. -/
def LiesAcross (text : List Char) (lines : List (List Char)) : Prop :=
  ∃ first middle last head tail, first :: (middle ++ [last]) <:+: lines ∧
    head <:+ first ∧ tail <+: last ∧ text = joinLines (head :: (middle ++ [tail]))

section Join

variable {lines lines' : List (List Char)} {line needle : List Char}

@[simp]
theorem joinLines_singleton (line : List Char) : joinLines [line] = line :=
  List.intercalate_singleton

theorem joinLines_cons (line : List Char) (h : lines ≠ []) :
    joinLines (line :: lines) = line ++ '\n' :: joinLines lines := by
  obtain ⟨next, lines, rfl⟩ := List.exists_cons_of_ne_nil h
  rw [joinLines, List.intercalate_cons_cons, List.append_assoc]
  rfl

theorem joinLines_append (h : lines ≠ []) (h' : lines' ≠ []) :
    joinLines (lines ++ lines') = joinLines lines ++ '\n' :: joinLines lines' := by
  induction lines with
  | nil => exact absurd rfl h
  | cons line lines ih =>
      cases lines with
      | nil =>
          rw [joinLines_singleton]
          exact joinLines_cons line h'
      | cons next lines =>
          rw [List.cons_append, joinLines_cons line (by simp), ih (List.cons_ne_nil _ _),
            joinLines_cons line (List.cons_ne_nil _ _), List.append_assoc, List.cons_append]

/-- A text that lies across lines has a line feed. -/
theorem LiesAcross.newline_mem (h : LiesAcross needle lines) : '\n' ∈ needle := by
  obtain ⟨first, middle, last, head, tail, -, -, -, rfl⟩ := h
  rw [joinLines_cons head (by simp)]
  exact List.mem_append_right _ List.mem_cons_self

theorem LiesAcross.mono (h : LiesAcross needle lines) (hoccurs : lines <:+: lines') :
    LiesAcross needle lines' := by
  obtain ⟨first, middle, last, head, tail, hlines, hrest⟩ := h
  exact ⟨first, middle, last, head, tail, hlines.trans hoccurs, hrest⟩

/-- Lines that follow one another are put together in the same way within more lines. -/
theorem joinLines_isInfix (h : lines' ≠ []) (hoccurs : lines' <:+: lines) :
    joinLines lines' <:+: joinLines lines := by
  obtain ⟨front, back, rfl⟩ := hoccurs
  have hback : joinLines lines' <+: joinLines (lines' ++ back) := by
    by_cases hb : back = []
    · rw [hb, List.append_nil]
    · rw [joinLines_append h hb]
      exact List.prefix_append _ _
  rw [List.append_assoc]
  by_cases hf : front = []
  · rw [hf, List.nil_append]
    exact hback.isInfix
  · rw [joinLines_append hf (List.append_ne_nil_of_left_ne_nil h _)]
    exact hback.isInfix.trans ((List.suffix_cons _ _).trans (List.suffix_append _ _)).isInfix

theorem prefix_joinLines {middle : List (List Char)} {last tail : List Char} (h : tail <+: last) :
    joinLines (middle ++ [tail]) <+: joinLines (middle ++ [last]) := by
  by_cases hm : middle = []
  · rw [hm, List.nil_append, List.nil_append, joinLines_singleton, joinLines_singleton]
    exact h
  · rw [joinLines_append hm (List.cons_ne_nil _ _), joinLines_append hm (List.cons_ne_nil _ _),
      joinLines_singleton, joinLines_singleton]
    exact (List.prefix_append_right_inj _).mpr (List.cons_prefix_cons.mpr ⟨rfl, h⟩)

theorem LiesAcross.isInfix (h : LiesAcross needle lines) : needle <:+: joinLines lines := by
  obtain ⟨first, middle, last, head, tail, hlines, ⟨front, rfl⟩, htail, rfl⟩ := h
  -- In the lines that the text touches, only the back of the first and the front of the last matter.
  refine List.IsInfix.trans ?_ (joinLines_isInfix (List.cons_ne_nil _ _) hlines)
  have hlast : joinLines (head :: middle ++ [tail]) <+: joinLines (head :: middle ++ [last]) :=
    prefix_joinLines htail
  refine hlast.isInfix.trans ⟨front, [], ?_⟩
  rw [List.cons_append, joinLines_cons head (by simp), joinLines_cons (front ++ head) (by simp),
    List.append_nil, List.append_assoc]

/-- What begins a text put together of lines consists of whole lines and the front of the next. -/
theorem exists_of_prefix_joinLines (h : lines ≠ []) (hbegins : needle <+: joinLines lines) :
    ∃ middle last tail, middle ++ [last] <+: lines ∧ tail <+: last ∧
      needle = joinLines (middle ++ [tail]) := by
  induction lines generalizing needle with
  | nil => exact absurd rfl h
  | cons line lines ih =>
      by_cases hlines : lines = []
      · subst hlines
        rw [joinLines_singleton] at hbegins
        exact ⟨[], line, needle, List.prefix_refl _, hbegins, (joinLines_singleton needle).symm⟩
      · rw [joinLines_cons line hlines] at hbegins
        rcases prefix_append_cons_iff.mp hbegins with hline | ⟨t, ht, rfl⟩
        · exact ⟨[], line, needle, List.cons_prefix_cons.mpr ⟨rfl, List.nil_prefix⟩, hline,
            (joinLines_singleton needle).symm⟩
        · obtain ⟨middle, last, tail, hmiddle, htail, rfl⟩ := ih hlines ht
          exact ⟨line :: middle, last, tail, List.cons_prefix_cons.mpr ⟨rfl, hmiddle⟩, htail,
            (joinLines_cons line (by simp)).symm⟩

/-- What occurs in a text put together of lines occurs in one of them or lies across them. -/
theorem infix_joinLines_iff (h : lines ≠ []) :
    needle <:+: joinLines lines ↔ (∃ line ∈ lines, needle <:+: line) ∨ LiesAcross needle lines := by
  constructor
  · intro hoccurs
    induction lines with
    | nil => exact absurd rfl h
    | cons line lines ih =>
        by_cases hlines : lines = []
        · subst hlines
          rw [joinLines_singleton] at hoccurs
          exact .inl ⟨line, List.mem_cons_self, hoccurs⟩
        · rw [joinLines_cons line hlines, infix_append_cons_iff] at hoccurs
          rcases hoccurs with hline | hrest | ⟨head, t, hhead, ht, rfl⟩
          · exact .inl ⟨line, List.mem_cons_self, hline⟩
          · rcases ih hlines hrest with ⟨later, hlater, hneedle⟩ | hacross
            · exact .inl ⟨later, List.mem_cons_of_mem line hlater, hneedle⟩
            · exact .inr (hacross.mono (List.suffix_cons line lines).isInfix)
          · -- The text is around the end of this line, so it begins in this line.
            obtain ⟨middle, last, tail, hmiddle, htail, rfl⟩ := exists_of_prefix_joinLines hlines ht
            exact .inr ⟨line, middle, last, head, tail,
              (List.cons_prefix_cons.mpr ⟨rfl, hmiddle⟩).isInfix, hhead, htail,
              (joinLines_cons head (by simp)).symm⟩
  · rintro (⟨line, hline, hneedle⟩ | hacross)
    · obtain ⟨front, back, rfl⟩ := List.append_of_mem hline
      have hline : joinLines [line] <:+: joinLines (front ++ line :: back) :=
        joinLines_isInfix (List.cons_ne_nil line []) ⟨front, back, by simp⟩
      rw [joinLines_singleton] at hline
      exact hneedle.trans hline
    · exact hacross.isInfix

end Join

/-! ## The reason of a failure -/

/-- The last lines that a process wrote, to either stream, with some secrets masked. -/
def ProcessOutput.lastLines (secrets : List String) (output : ProcessOutput) : List String :=
  outputTail secrets output.stdout ++ outputTail secrets output.stderr

section Reason

variable {secret : String} {secrets : List String} {output : ProcessOutput}

/-- No line holds a secret. -/
theorem not_infix_of_mem_lastLines (hsecret : secret ∈ secrets) (hne : secret ≠ "")
    (hstar : '*' ∉ secret.toList) :
    ∀ line ∈ (output.lastLines secrets).map String.toList, ¬ secret.toList <:+: line := by
  intro line hline
  obtain ⟨text, htext, rfl⟩ := List.mem_map.mp hline
  have hmasked : ∃ raw, text = redactValues secrets raw := by
    rcases List.mem_append.mp htext with h | h
    · exact exists_of_mem_outputTail h
    · exact exists_of_mem_outputTail h
  obtain ⟨raw, rfl⟩ := hmasked
  rw [toList_redactValues]
  exact not_infix_maskChars hsecret hne hstar raw.toList

/-- The reason consists of the last lines, as long as there are any. -/
theorem failureReason_eq (secrets : List String) (output : ProcessOutput) :
    failureReason secrets output =
      if output.lastLines secrets = [] then output.status.display
      else "\n".intercalate (output.lastLines secrets) := by
  unfold failureReason
  by_cases hnil : output.lastLines secrets = []
  · rw [if_pos hnil]
    exact if_pos (String.isEmpty_iff.mpr (OutputTail.joinedWith_eq_empty_iff.mpr hnil))
  · rw [if_neg hnil]
    have hne := mt OutputTail.joinedWith_eq_empty_iff.mp hnil
    dsimp only
    rw [if_neg (mt String.isEmpty_iff.mp hne), OutputTail.joinedWith_eq]
    rfl

/-- A process that wrote nothing is reported by its status. -/
theorem failureReason_of_nil (h : output.lastLines secrets = []) :
    failureReason secrets output = output.status.display := by
  rw [failureReason_eq, if_pos h]

theorem toList_failureReason (h : output.lastLines secrets ≠ []) :
    (failureReason secrets output).toList =
      joinLines ((output.lastLines secrets).map String.toList) := by
  rw [failureReason_eq, if_neg h, String.toList_intercalate]
  rfl

/-- A secret is in the reason where it lies across the lines, and nowhere else. -/
theorem contains_failureReason_iff (hsecret : secret ∈ secrets) (hne : secret ≠ "")
    (hstar : '*' ∉ secret.toList) (hlines : output.lastLines secrets ≠ []) :
    contains (failureReason secrets output) secret = true ↔
      LiesAcross secret.toList ((output.lastLines secrets).map String.toList) := by
  have hchars : (output.lastLines secrets).map String.toList ≠ [] := by
    rw [Ne, List.map_eq_nil_iff]
    exact hlines
  rw [contains_iff, toList_failureReason hlines, infix_joinLines_iff hchars, or_iff_right]
  rintro ⟨line, hline, hoccurs⟩
  exact not_infix_of_mem_lastLines hsecret hne hstar line hline hoccurs

end Reason

/-! ## A failed bucket -/

namespace TestCommand

/-- A bucket fails when its process ends without success. -/
theorem run_failed {c : TestCommand} {launch : Launcher} {env : Environment}
    {planned : PlannedBucket} {level : TriggerLevel} {code : Option Int32} {reason : String}
    (h : (c.run launch env planned level).ending = .outcome (.failed code reason)) :
    ∃ output,
      launch c.program (c.argumentsFor planned.bucket level) (planned.profile.childEnvironment env) =
        .ok output ∧
      output.status.isSuccess = false ∧ code = output.status.code? ∧
      reason = failureReason (planned.profile.secretValues env) output := by
  unfold run at h
  simp only at h
  split at h
  · cases h
  · cases h
  · next output hlaunch =>
    refine ⟨output, hlaunch, ?_⟩
    unfold ProcessOutput.outcome at h
    split at h
    · cases h
    · next hstatus =>
      cases h
      exact ⟨Bool.eq_false_iff.mpr hstatus, rfl, rfl⟩

/-- Which secrets the reason of a failed bucket holds: those that lie across the masked lines, or are
part of how the status is displayed when there are no lines.  So a secret on one line stays hidden
whenever the process wrote anything. -/
theorem run_discloses_iff (c : TestCommand) (launch : Launcher) (env : Environment)
    (planned : PlannedBucket) (level : TriggerLevel) {code : Option Int32} {reason : String}
    (hfailed : (c.run launch env planned level).ending = .outcome (.failed code reason)) :
    ∃ output,
      launch c.program (c.argumentsFor planned.bucket level) (planned.profile.childEnvironment env) =
        .ok output ∧
      output.status.isSuccess = false ∧ code = output.status.code? ∧
      ∀ secret ∈ planned.profile.secretValues env, '*' ∉ secret.toList →
        let lines := output.lastLines (planned.profile.secretValues env)
        (contains reason secret = true ↔
          if lines = [] then contains output.status.display secret = true
          else LiesAcross secret.toList (lines.map String.toList)) ∧
        (lines ≠ [] → '\n' ∉ secret.toList → contains reason secret = false) := by
  obtain ⟨output, hlaunch, hstatus, hcode, rfl⟩ := run_failed hfailed
  refine ⟨output, hlaunch, hstatus, hcode, fun secret hsecret hstar => ?_⟩
  have hne := Profile.secret_ne_empty hsecret
  have hiff (hlines : output.lastLines (planned.profile.secretValues env) ≠ []) :=
    contains_failureReason_iff hsecret hne hstar hlines
  refine ⟨?_, fun hlines hnewline => ?_⟩
  · by_cases hlines : output.lastLines (planned.profile.secretValues env) = []
    · rw [if_pos hlines, failureReason_of_nil hlines]
    · rw [if_neg hlines]
      exact hiff hlines
  · refine Bool.eq_false_iff.mpr fun hcontains => ?_
    exact hnewline ((hiff hlines).mp hcontains).newline_mem

/-! ### A key that is handed on -/

/-- A profile whose processes are handed a key. -/
def keyedProfile : Profile :=
  { Profile.ofKind "keyed" .local with secretEnv := ["SERVICE_KEY"] }

def keyedBucket : PlannedBucket :=
  ⟨Matrix.releaseBucket "keyed-tests" Matrix.plainCluster none "keyed" 3600, keyedProfile, []⟩

theorem secretValues_keyedBucket {key : String} (h : minSecretLength ≤ key.utf8ByteSize) :
    keyedBucket.profile.secretValues (onlySet "SERVICE_KEY" key) = [key] :=
  Profile.secretValues_onlySet rfl rfl h

/-- A process that has failed after it wrote a text. -/
def failedAfter (text : String) : ProcessOutput :=
  ⟨.exited 1, text.toUTF8.data.toList, [], 0⟩

/-- What is reported when the tests of the bucket, run with the key, write a text and fail. -/
def keyedRun (key text : String) : TaskEnd :=
  (TestCommand.run ⟨"pytest", ["-v"], "tests"⟩ (fun _ _ _ => .ok (failedAfter text))
    (onlySet "SERVICE_KEY" key) keyedBucket .release).ending

theorem keyedRun_eq {key : String} (h : minSecretLength ≤ key.utf8ByteSize) (text : String) :
    keyedRun key text = .outcome (.failed (some 1) (failureReason [key] (failedAfter text))) := by
  show TaskEnd.outcome ((failedAfter text).outcome
    (keyedBucket.profile.secretValues (onlySet "SERVICE_KEY" key))) = _
  rw [secretValues_keyedBucket h]
  rfl

/-- A key on one line is hidden. -/
theorem run_discloses_iff_oneLine :
    keyedRun "s3cr3t" "bad key s3cr3t\n" = .outcome (.failed (some 1) "bad key ***") ∧
      contains "bad key ***" "s3cr3t" = false := by
  have hrun : keyedRun "s3cr3t" "bad key s3cr3t\n" = .outcome (.failed (some 1) "bad key ***") := by
    have hreason : failureReason ["s3cr3t"] (failedAfter "bad key s3cr3t\n") = "bad key ***" := by
      decide +kernel
    rw [keyedRun_eq (by decide), hreason]
  refine ⟨hrun, ?_⟩
  obtain ⟨output, hlaunch, -, -, hsecrets⟩ := run_discloses_iff _ _ _ _ _ hrun
  cases hlaunch
  rw [secretValues_keyedBucket (by decide)] at hsecrets
  exact (hsecrets "s3cr3t" (by simp) (by decide)).2 (by decide +kernel) (by decide)

/-- A key on two lines is found on neither of them, and is given away. -/
theorem run_discloses_twoLines :
    keyedRun "s3cr3t-1\ns3cr3t-2" "bad key s3cr3t-1\ns3cr3t-2\n" =
        .outcome (.failed (some 1) "bad key s3cr3t-1\ns3cr3t-2") ∧
      "s3cr3t-1\ns3cr3t-2" ∈
        keyedBucket.profile.secretValues (onlySet "SERVICE_KEY" "s3cr3t-1\ns3cr3t-2") ∧
      '*' ∉ "s3cr3t-1\ns3cr3t-2".toList ∧
      contains "bad key s3cr3t-1\ns3cr3t-2" "s3cr3t-1\ns3cr3t-2" = true := by
  have hreason : failureReason ["s3cr3t-1\ns3cr3t-2"]
      (failedAfter "bad key s3cr3t-1\ns3cr3t-2\n") = "bad key s3cr3t-1\ns3cr3t-2" := by
    decide +kernel
  refine ⟨?_, ?_, by decide, by decide +kernel⟩
  · rw [keyedRun_eq (by decide), hreason]
  · rw [secretValues_keyedBucket (by decide)]
    exact List.mem_singleton_self _

end TestCommand

end CiPlan
