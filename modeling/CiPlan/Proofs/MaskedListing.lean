import CiPlan.Leak.Query
import CiPlan.Proofs.ListingLines

/-!
# Leaks in a masked listing

A listing is read line by line after its secrets have been masked.  A listing without a secret is
read as it was written.  A secret that does not go beyond a line changes only the lines that it
occurs in, so that a leaked resource is found as long as its own line shows it under the masks
(`queryStatus_finds_iff`).  A line that does not, because a secret is part of the name or the state
of the resource, hides the leak.
-/

namespace CiPlan

namespace Text

/-! ## Masking and lines -/

/-- No secret that occurs in the text has a line feed, now or after other secrets are masked. -/
def IsLinewise (secrets : List String) (cs : List Char) : Prop :=
  ∀ secret ∈ secrets, '\n' ∈ secret.toList → '*' ∉ secret.toList ∧ ¬ secret.toList <:+: cs

section Masks

variable {secrets : List String} {cs old new : List Char}

/-- A replacement of what has no line feed, by what has none, is one in each line. -/
theorem textLines_replaceChars (hold : '\n' ∉ old) (hnew : '\n' ∉ new) (hne : new ≠ [])
    (cs : List Char) :
    textLines (replaceChars old new cs) = (textLines cs).map (replaceChars old new) := by
  have hkeeps {line : List Char} (hline : '\n' ∉ line) : '\n' ∉ replaceChars old new line :=
    fun h => (mem_replaceChars h).elim hline hnew
  induction cs using lines_induction with
  | nil =>
      rw [replaceChars]
      rfl
  | last line hline hnil =>
      rw [textLines_of_not_mem hline hnil,
        textLines_of_not_mem (hkeeps hline) (replaceChars_ne_nil hne hnil)]
      rfl
  | more line cs hline ih =>
      rw [replaceChars_append_cons hold, textLines_append_cons (hkeeps hline),
        textLines_append_cons hline, ih]
      rfl

/-- The lines of a masked text are the lines of the text, each masked by itself. -/
theorem textLines_maskChars (h : IsLinewise secrets cs) :
    textLines (maskChars secrets cs) = (textLines cs).map (maskChars secrets) := by
  induction secrets generalizing cs with
  | nil => exact (List.map_id _).symm
  | cons secret secrets ih =>
      have hone : textLines (replaceChars secret.toList Profile.mask.toList cs) =
          (textLines cs).map (replaceChars secret.toList Profile.mask.toList) := by
        by_cases hnewline : '\n' ∈ secret.toList
        · -- The secret occurs neither in the text nor in its lines.
          have hnot := (h secret List.mem_cons_self hnewline).2
          rw [replaceChars_eq_self hnot]
          have hsame : ∀ line ∈ textLines cs,
              replaceChars secret.toList Profile.mask.toList line = line := fun line hline =>
            replaceChars_eq_self fun hoccurs => hnot (hoccurs.trans (infix_of_mem_textLines hline))
          rw [List.map_congr_left hsame, List.map_id']
        · exact textLines_replaceChars hnewline (by decide) mask_ne_nil cs
      have hrest : IsLinewise secrets (replaceChars secret.toList Profile.mask.toList cs) := by
        intro later hlater hnewline
        obtain ⟨hstar, hnot⟩ := h later (List.mem_cons_of_mem _ hlater) hnewline
        refine ⟨hstar, fun hoccurs => hnot ?_⟩
        exact infix_of_infix_replaceChars mask_ne_nil (disjoint_mask hstar)
          (List.ne_nil_of_mem hnewline) hoccurs
      show textLines (maskChars secrets (replaceChars secret.toList Profile.mask.toList cs)) = _
      rw [ih hrest, hone, List.map_map]
      rfl

end Masks

end Text

open Text

namespace StatusParser

/-! ## Leaks that show -/

/-- The line shows a leaked resource. -/
def ShowsLeak (p : StatusParser) (line : List Char) : Prop :=
  ∃ r, p.resourceOf line = some r ∧ p.isLeaked r = true

theorem leaked_ne_nil_iff (p : StatusParser) (listing : String) :
    p.leaked listing ≠ [] ↔ ∃ line ∈ textLines listing.toList, p.ShowsLeak line := by
  rw [leaked, parse_eq]
  constructor
  · intro h
    obtain ⟨r, hr⟩ := List.exists_mem_of_ne_nil _ h
    obtain ⟨hparsed, hleaked⟩ := List.mem_filter.mp hr
    obtain ⟨line, hline, hread⟩ := List.mem_filterMap.mp hparsed
    exact ⟨line, hline, r, hread, hleaked⟩
  · rintro ⟨line, hline, r, hread, hleaked⟩
    have hparsed := List.mem_filterMap.mpr ⟨line, hline, hread⟩
    exact List.ne_nil_of_mem (List.mem_filter.mpr ⟨hparsed, hleaked⟩)

end StatusParser

/-! ## Asking for a listing -/

namespace Profile

/-- A status command that succeeds is answered with what it wrote, masked. -/
theorem queryStatus_answer {launch : Launcher} {env : Environment} {p : Profile} {program : String}
    {arguments : List String} {output : ProcessOutput}
    (hcommand : p.statusCommand = program :: arguments)
    (hlaunch : launch program arguments (p.childEnvironment env) = .ok output)
    (hstatus : output.status.isSuccess = true) :
    (p.queryStatus launch env).answer =
      .ok (redactValues (p.secretValues env) (decodeLossy output.stdout)) := by
  simp only [queryStatus, hcommand, hlaunch, hstatus, if_true]

/-- When a leak that a status command lists is found.  A leaked resource is found when a line of the
masked listing shows one.  As long as no secret goes beyond a line, these lines are those of the
listing, each masked by itself; so a leak is found if its line has no secret.  A listing without
secrets is read as it was written. -/
theorem queryStatus_finds_iff (parser : StatusParser) {launch : Launcher} {env : Environment}
    {p : Profile} {program : String} {arguments : List String} {output : ProcessOutput}
    (hcommand : p.statusCommand = program :: arguments)
    (hlaunch : launch program arguments (p.childEnvironment env) = .ok output)
    (hstatus : output.status.isSuccess = true) :
    ∃ listing, (p.queryStatus launch env).answer = .ok listing ∧
      let secrets := p.secretValues env
      let raw := decodeLossy output.stdout
      (parser.leaked listing ≠ [] ↔
        ∃ line ∈ textLines (maskChars secrets raw.toList), parser.ShowsLeak line) ∧
      (IsLinewise secrets raw.toList →
        (parser.leaked listing ≠ [] ↔
          ∃ line ∈ textLines raw.toList, parser.ShowsLeak (maskChars secrets line))) ∧
      (IsLinewise secrets raw.toList →
        (∃ line ∈ textLines raw.toList, parser.ShowsLeak line ∧
          ∀ secret ∈ secrets, ¬ secret.toList <:+: line) → parser.leaked listing ≠ []) ∧
      ((∀ secret ∈ secrets, contains raw secret = false) → listing = raw) := by
  refine ⟨_, queryStatus_answer hcommand hlaunch hstatus, ?_⟩
  have hlisting := toList_redactValues (p.secretValues env) (decodeLossy output.stdout)
  have hfinds := parser.leaked_ne_nil_iff
    (redactValues (p.secretValues env) (decodeLossy output.stdout))
  rw [hlisting] at hfinds
  have hlinewise (h : IsLinewise (p.secretValues env) (decodeLossy output.stdout).toList) :
      parser.leaked (redactValues (p.secretValues env) (decodeLossy output.stdout)) ≠ [] ↔
        ∃ line ∈ textLines (decodeLossy output.stdout).toList,
          parser.ShowsLeak (maskChars (p.secretValues env) line) := by
    rw [hfinds, textLines_maskChars h]
    simp only [List.mem_map, exists_exists_and_eq_and]
  refine ⟨hfinds, hlinewise, ?_, ?_⟩
  · rintro h ⟨line, hline, hleak, hfree⟩
    refine (hlinewise h).mpr ⟨line, hline, ?_⟩
    rw [maskChars_eq_self hfree]
    exact hleak
  · intro hfree
    rw [← String.toList_inj, hlisting]
    refine maskChars_eq_self fun secret hsecret hoccurs => ?_
    exact Bool.false_ne_true ((hfree secret hsecret).symm.trans (contains_iff.mpr hoccurs))

/-! ### A user name in a listing -/

/-- The settings under which only the resources of one user are read. -/
def botResources : LeakCheckConfig :=
  { LeakCheckConfig.default with
    statusLinePattern := "^(?P<name>\\S+) (?P<status>\\S+) ci-bot$" }

/-- A profile whose status command is handed the name of a user. -/
def userProfile : Profile :=
  { Profile.ofKind "aws" .aws with
    statusCommand := ["sky", "status"], secretEnv := ["DEN_TESTER_USERNAME"] }

/-- The environment in which only the name of the user is set. -/
def userOnly (user : String) : Environment :=
  onlySet "DEN_TESTER_USERNAME" user

theorem secretValues_userOnly {user : String} (h : minSecretLength ≤ user.utf8ByteSize) :
    userProfile.secretValues (userOnly user) = [user] :=
  Profile.secretValues_onlySet rfl rfl h

/-- A listing with a resource of that user, and one that belongs to somebody else. -/
def twoOwners : String := "notebook UP alice\nnightly-1 UP ci-bot\n"

/-- What the status command that writes the listing leaves. -/
def listed : ProcessOutput := ⟨.exited 0, twoOwners.toUTF8.data.toList, [], 0⟩

def listing : Launcher := fun _ _ _ => .ok listed

theorem launch_listing (user : String) :
    listing "sky" ["status"] (userProfile.childEnvironment (userOnly user)) = .ok listed :=
  rfl

theorem decodeLossy_listed : decodeLossy listed.stdout = twoOwners := by decide +kernel

/-- The resource is found although a name is masked in another line. -/
theorem queryStatus_finds_iff_otherUser :
    ∃ parser, StatusParser.ofConfig botResources = .ok parser ∧
      ∃ text, (userProfile.queryStatus listing (userOnly "alice")).answer = .ok text ∧
        parser.leaked text ≠ [] := by
  obtain ⟨parser, hparser, hshows⟩ := StatusParser.exists_of_any botResources
    (fun parser => (parser.resourceOf "nightly-1 UP ci-bot".toList).any parser.isLeaked)
    (by decide +kernel)
  have hleak : parser.ShowsLeak "nightly-1 UP ci-bot".toList := (Option.any_eq_true _ _).mp hshows
  obtain ⟨text, hanswer, -, -, hfinds, -⟩ :=
    queryStatus_finds_iff parser rfl (launch_listing "alice") rfl
  have hsecrets : userProfile.secretValues (userOnly "alice") = ["alice"] :=
    secretValues_userOnly (by decide)
  have hlinewise : IsLinewise ["alice"] twoOwners.toList := by
    intro secret hsecret hnewline
    rw [List.mem_singleton.mp hsecret] at hnewline
    exact absurd hnewline (by decide)
  have hline : "nightly-1 UP ci-bot".toList ∈ textLines twoOwners.toList := by decide
  have hfree : ∀ secret ∈ ["alice"], ¬ secret.toList <:+: "nightly-1 UP ci-bot".toList := by decide
  rw [hsecrets, decodeLossy_listed] at hfinds
  exact ⟨parser, hparser, text, hanswer, hfinds hlinewise ⟨_, hline, hleak, hfree⟩⟩

/-- The resource is not found when the name by which its line is known is masked. -/
theorem queryStatus_misses_ownUser :
    decodeLossy listed.stdout = twoOwners ∧
      (userProfile.queryStatus listing (userOnly "ci-bot")).answer =
        .ok "notebook UP alice\nnightly-1 UP ***\n" ∧
      ∃ parser, StatusParser.ofConfig botResources = .ok parser ∧
        parser.leaked twoOwners = [⟨"nightly-1", "UP"⟩] ∧
        parser.leaked "notebook UP alice\nnightly-1 UP ***\n" = [] := by
  have hsecrets : userProfile.secretValues (userOnly "ci-bot") = ["ci-bot"] :=
    secretValues_userOnly (by decide)
  have hmasked : redactValues ["ci-bot"] twoOwners = "notebook UP alice\nnightly-1 UP ***\n" := by
    decide +kernel
  refine ⟨decodeLossy_listed, ?_, ?_⟩
  · rw [queryStatus_answer rfl (launch_listing "ci-bot") rfl, hsecrets, decodeLossy_listed, hmasked]
  · obtain ⟨parser, hparser, hread⟩ := StatusParser.exists_of_any botResources
      (fun parser => parser.leaked twoOwners = [⟨"nightly-1", "UP"⟩] ∧
        parser.leaked "notebook UP alice\nnightly-1 UP ***\n" = []) (by decide +kernel)
    exact ⟨parser, hparser, of_decide_eq_true hread⟩

end Profile

end CiPlan
