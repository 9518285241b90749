import CiPlan.Cli.Page.Planning
import CiPlan.Proofs.Masking
import CiPlan.Proofs.Partition

/-!
# Shown plans and the secrets of profiles

A plan is made from the names of profiles, their kinds and their status commands.  What it holds of
the texts of their variables is handed on unread, so it makes no difference whether the secret ones
are masked before a plan is made or when it is shown: `Planner.plan_redacted`.  Two lists of profiles
that differ in secret texts only are the same list once these are masked (`redacted_eq_iff`), hence
they lead to the same shown plan.

Main result: `shownPlan_ignoresSecrets`.
-/

namespace CiPlan

namespace Profile

/-! ## Secret texts -/

/-- Some part of the name is one of the words for credentials, in any case of its ASCII letters. -/
def NamesCredential (name : String) : Prop :=
  ∃ word ∈ ["TOKEN", "SECRET", "PASSWORD", "KEY", "CREDENTIAL"], ∃ part,
    part <:+: name.toList ∧ part.map Text.upperAscii = word.toList

/-- The text of a variable is a secret: the profile lists its name, or the name looks like that of a
credential. -/
def IsSecret (p : Profile) (name : String) : Prop :=
  name ∈ p.secretEnv ∨ NamesCredential name

theorem looksSecret_iff (name : String) : looksSecret name = true ↔ NamesCredential name := by
  have hword : ∀ word : String,
      Text.occursIn word.toList (name.toList.map Text.upperAscii) = true ↔
        ∃ part, part <:+: name.toList ∧ part.map Text.upperAscii = word.toList := by
    intro word
    rw [Text.occursIn_iff]
    constructor
    · rintro ⟨front, back, h⟩
      obtain ⟨l, back', hl, hfront, -⟩ := List.map_eq_append_iff.mp h.symm
      obtain ⟨front', part, rfl, -, hpart⟩ := List.map_eq_append_iff.mp hfront
      exact ⟨part, ⟨front', back', hl.symm⟩, hpart⟩
    · rintro ⟨part, hpart, hupper⟩
      rw [← hupper]
      exact hpart.map Text.upperAscii
  simp only [looksSecret, List.any_eq_true, hword]
  rfl

theorem hides_iff (p : Profile) (name : String) : p.hides name = true ↔ p.IsSecret name := by
  rw [hides, Bool.or_eq_true, List.contains_iff_mem, looksSecret_iff]
  rfl

/-- Two profiles differ in secret texts only. -/
structure SameButSecrets (p q : Profile) : Prop where
  name : p.name = q.name
  target : p.target = q.target
  kind : p.kind = q.kind
  auth : p.auth = q.auth
  statusCommand : p.statusCommand = q.statusCommand
  secretEnv : p.secretEnv = q.secretEnv
  /-- They set the same variables, and those that are no secrets to the same texts. -/
  env : List.Forall₂ (fun e f => e.1 = f.1 ∧ (¬ p.IsSecret e.1 → e.2 = f.2))
    p.env.entries q.env.entries

/-- A variable with its text masked if it is a secret. -/
def maskEntry (p : Profile) (e : String × String) : String × String :=
  (e.1, if p.hides e.1 then mask else e.2)

theorem entries_redacted (p : Profile) : p.redacted.env.entries = p.env.entries.map p.maskEntry :=
  rfl

theorem maskEntry_eq_iff (p : Profile) (e f : String × String) :
    p.maskEntry e = p.maskEntry f ↔ e.1 = f.1 ∧ (¬ p.IsSecret e.1 → e.2 = f.2) := by
  rw [← hides_iff, maskEntry, maskEntry, Prod.mk.injEq]
  refine and_congr_right fun hname => ?_
  rw [← hname]
  by_cases h : p.hides e.1 = true <;> simp [h]

/-- Of two profiles with the same secrets the variables look alike when they differ in secret texts
only. -/
theorem env_redacted_eq_iff {p q : Profile} (h : p.secretEnv = q.secretEnv) :
    p.redacted.env = q.redacted.env ↔
      List.Forall₂ (fun e f => e.1 = f.1 ∧ (¬ p.IsSecret e.1 → e.2 = f.2))
        p.env.entries q.env.entries := by
  have hmask : q.maskEntry = p.maskEntry := by
    funext e
    rw [maskEntry, maskEntry, hides, hides, h]
  rw [redacted, redacted, Bindings.mapTexts, Bindings.mapTexts, Bindings.mk.injEq]
  show p.env.entries.map p.maskEntry = q.env.entries.map q.maskEntry ↔ _
  rw [hmask, ← List.forall₂_eq_eq_eq, List.forall₂_map_left_iff, List.forall₂_map_right_iff]
  simp only [maskEntry_eq_iff]

/-- Profiles that differ in secret texts only are the same for those who are shown them. -/
theorem redacted_eq_iff (p q : Profile) : p.redacted = q.redacted ↔ p.SameButSecrets q := by
  rw [redacted, redacted, Profile.mk.injEq]
  constructor
  · rintro ⟨hname, htarget, hkind, hauth, hcommand, hsecret, henv⟩
    exact ⟨hname, htarget, hkind, hauth, hcommand, hsecret, (env_redacted_eq_iff hsecret).mp henv⟩
  · intro h
    exact ⟨h.name, h.target, h.kind, h.auth, h.statusCommand, h.secretEnv,
      (env_redacted_eq_iff h.secretEnv).mpr h.env⟩

/-- The second profile shows the first: its secret texts are masked, and all else is as it was. -/
structure Shows (p shown : Profile) : Prop where
  same : p.SameButSecrets shown
  masked : ∀ e ∈ shown.env.entries, p.IsSecret e.1 → e.2 = "***"

theorem shows_redacted (p : Profile) : p.Shows p.redacted where
  same := (redacted_eq_iff p p.redacted).mp p.redacted_redacted.symm
  masked := by
    intro e he hsecret
    rw [entries_redacted] at he
    obtain ⟨e, -, rfl⟩ := List.mem_map.mp he
    exact if_pos ((p.hides_iff e.1).mpr hsecret)

end Profile

/-! ## Plans -/

/-- The second plan shows the first: the secret texts of its profiles are masked, in its buckets and
among the targets of the leak check, and all else is as it was. -/
structure Plan.Shows (plan shown : Plan) : Prop where
  trigger : shown.trigger = plan.trigger
  buckets : List.Forall₂ (fun b s => s.bucket = b.bucket ∧ s.tests = b.tests ∧
    b.profile.Shows s.profile) plan.buckets shown.buckets
  leakCheckTargets : List.Forall₂ Profile.Shows plan.leakCheckTargets shown.leakCheckTargets
  warnings : shown.warnings = plan.warnings

/-- A planned bucket with the secret texts of its profile masked. -/
def PlannedBucket.redacted (b : PlannedBucket) : PlannedBucket :=
  { b with profile := b.profile.redacted }

namespace Plan

theorem shows_redacted (plan : Plan) : plan.Shows plan.redacted where
  trigger := rfl
  buckets := List.forall₂_map_right_iff.mpr
    (List.forall₂_same.mpr fun b _ => ⟨rfl, rfl, b.profile.shows_redacted⟩)
  leakCheckTargets := List.forall₂_map_right_iff.mpr
    (List.forall₂_same.mpr fun p _ => p.shows_redacted)
  warnings := rfl

/-- Masking masks all that is to be masked. -/
theorem redacted_redacted (plan : Plan) : plan.redacted.redacted = plan.redacted := by
  have hbuckets : (plan.buckets.map PlannedBucket.redacted).map PlannedBucket.redacted =
      plan.buckets.map PlannedBucket.redacted := by
    rw [List.map_map]
    refine List.map_congr_left fun b _ => ?_
    show ({ b with profile := b.profile.redacted.redacted } : PlannedBucket) = _
    rw [Profile.redacted_redacted]
    rfl
  have htargets : (plan.leakCheckTargets.map Profile.redacted).map Profile.redacted =
      plan.leakCheckTargets.map Profile.redacted := by
    rw [List.map_map]
    exact List.map_congr_left fun p _ => p.redacted_redacted
  show Plan.mk plan.trigger ((plan.buckets.map PlannedBucket.redacted).map PlannedBucket.redacted)
      ((plan.leakCheckTargets.map Profile.redacted).map Profile.redacted) plan.warnings = _
  rw [hbuckets, htargets]
  rfl

/-- The page of a plan has nothing of it that is masked. -/
theorem ofPlan_redacted (plan : Plan) (withTests : Bool) :
    Cli.Page.ofPlan plan.redacted withTests = Cli.Page.ofPlan plan withTests := by
  have hbuckets : plan.redacted.buckets = plan.buckets.map PlannedBucket.redacted := rfl
  have htargets : plan.redacted.leakCheckTargets = plan.leakCheckTargets.map Profile.redacted := rfl
  have hlines : (plan.buckets.map PlannedBucket.redacted).flatMap (Cli.bucketLines withTests) =
      plan.buckets.flatMap (Cli.bucketLines withTests) := List.flatMap_map ..
  have hnames : (plan.leakCheckTargets.map Profile.redacted).map (·.name) =
      plan.leakCheckTargets.map (·.name) := List.map_map ..
  have hline : Cli.leakCheckLine plan.redacted = Cli.leakCheckLine plan := by
    rw [Cli.leakCheckLine, Cli.leakCheckLine, htargets, hnames, List.isEmpty_map]
    rfl
  have hsummaries : (plan.buckets.map PlannedBucket.redacted).map (Cli.bucketSummary withTests) =
      plan.buckets.map (Cli.bucketSummary withTests) := List.map_map ..
  rw [Cli.Page.ofPlan, Cli.Page.ofPlan, hbuckets, htargets, hlines, hnames, hline, hsummaries]
  rfl

end Plan

/-! ## Masking before and after planning -/

theorem find?_redacted (profiles : List Profile) (name : String) :
    Profile.find? (profiles.map Profile.redacted) name =
      (Profile.find? profiles name).map Profile.redacted := by
  rw [Profile.find?, Profile.find?, List.find?_map]
  rfl

theorem addTarget_redacted (targets : List Profile) (p : Profile) :
    Plan.addTarget (targets.map Profile.redacted) p.redacted =
      (Plan.addTarget targets p).map Profile.redacted := by
  have hknown : (targets.map Profile.redacted).any (·.name == p.redacted.name) =
      targets.any (·.name == p.name) := by
    rw [List.any_map]
    rfl
  rw [Plan.addTarget, Plan.addTarget, hknown]
  show (if p.isLeakCheckTarget && _ then _ else _) = _
  split
  · rw [List.map_append]
    rfl
  · rfl

theorem targetsOf_redacted (profiles : List Profile) :
    targetsOf (profiles.map Profile.redacted) = (targetsOf profiles).map Profile.redacted := by
  rw [targetsOf, targetsOf, List.foldl_map]
  show profiles.foldl (fun targets p => Plan.addTarget targets p.redacted)
    (List.map Profile.redacted []) = _
  exact List.foldl_hom (List.map Profile.redacted) addTarget_redacted

theorem Matrix.checkProfiles_redacted (matrix : Matrix) (profiles : List Profile) :
    matrix.checkProfiles (profiles.map Profile.redacted) = matrix.checkProfiles profiles := by
  have hknown : ∀ b : Bucket, (profiles.map Profile.redacted).any (·.name == b.profile) =
      profiles.any (·.name == b.profile) := by
    intro b
    rw [List.any_map]
    rfl
  simp only [checkProfiles, hknown]

namespace Planner

/-- The planner with the secret texts of its profiles masked. -/
def redacted (p : Planner) : Planner :=
  { p with
    profiles := p.profiles.map Profile.redacted
    checked := (p.matrix.checkProfiles_redacted p.profiles).trans p.checked }

theorem ofParts_redacted (taxonomy : List String) (matrix : Matrix) (corpus : Corpus)
    (profiles : List Profile) :
    ofParts taxonomy matrix corpus (profiles.map Profile.redacted) =
      redacted <$> ofParts taxonomy matrix corpus profiles := by
  have hcheck := matrix.checkProfiles_redacted profiles
  unfold ofParts
  split
  · next h =>
    split
    · rfl
    · next h' =>
      cases (hcheck.symm.trans h).symm.trans h'
  · next e h =>
    split
    · next h' =>
      cases (hcheck.symm.trans h).symm.trans h'
    · next h' =>
      cases (hcheck.symm.trans h).symm.trans h'
      rfl

theorem profileOf_redacted (p : Planner) (b : Bucket) :
    p.redacted.profileOf b = Profile.redacted <$> p.profileOf b := by
  have hfind := find?_redacted p.profiles b.profile
  unfold profileOf
  rw [show p.redacted.profiles = p.profiles.map Profile.redacted from rfl, hfind]
  cases Profile.find? p.profiles b.profile <;> rfl

/-- A bucket is planned with its profile and its selection. -/
def assign (p : Planner) (pair : Bucket × Selection) : Except PlannerError PlannedBucket :=
  (fun profile => ⟨pair.1, profile, pair.2.tests⟩) <$> p.profileOf pair.1

theorem assign_redacted (p : Planner) (pair : Bucket × Selection) :
    p.redacted.assign pair = PlannedBucket.redacted <$> p.assign pair := by
  rw [assign, assign, profileOf_redacted]
  cases p.profileOf pair.1 <;> rfl

/-- The plan of some planned buckets. -/
def planOf (trigger : TriggerEvent) (warnings : List LintWarning) (buckets : List PlannedBucket) :
    Plan :=
  ⟨trigger, buckets, targetsOf (buckets.map (·.profile)), warnings⟩

theorem planOf_redacted (trigger : TriggerEvent) (warnings : List LintWarning)
    (buckets : List PlannedBucket) :
    planOf trigger warnings (buckets.map PlannedBucket.redacted) =
      (planOf trigger warnings buckets).redacted := by
  have hprofiles : (buckets.map PlannedBucket.redacted).map (·.profile) =
      (buckets.map (·.profile)).map Profile.redacted := by
    rw [List.map_map, List.map_map]
    rfl
  rw [planOf, hprofiles, targetsOf_redacted]
  rfl

theorem plan_eq (p : Planner) (trigger : TriggerEvent) :
    p.plan trigger =
      let report := p.verify (Gate.ofTrigger trigger).level
      report.ensureClean >>= fun _ => planOf trigger report.warnings <$>
        ((p.matrix.active (Gate.ofTrigger trigger).level).zip report.selections).mapM p.assign := by
  have hassign : (fun pair : Bucket × Selection => p.profileOf pair.1 >>= fun profile =>
      pure (⟨pair.1, profile, pair.2.tests⟩ : PlannedBucket)) = p.assign := by
    funext pair
    rw [assign]
    cases p.profileOf pair.1 <;> rfl
  have hplan : ∀ (report : PartitionReport) (buckets : Except PlannerError (List PlannedBucket)),
      (buckets >>= fun buckets => pure {
        trigger, buckets
        leakCheckTargets := buckets.foldl (fun targets b => Plan.addTarget targets b.profile) []
        warnings := report.warnings }) = planOf trigger report.warnings <$> buckets := by
    intro report buckets
    cases buckets with
    | error e => rfl
    | ok buckets =>
        show Except.ok _ = Except.ok _
        rw [planOf, targetsOf, List.foldl_map]
  dsimp only
  rw [← hassign, ← hplan]
  rfl

/-- It makes no difference whether secrets are masked before a plan is made or in the plan. -/
theorem plan_redacted (p : Planner) (trigger : TriggerEvent) :
    p.redacted.plan trigger = Plan.redacted <$> p.plan trigger := by
  have hassign : p.redacted.assign = fun pair => PlannedBucket.redacted <$> p.assign pair :=
    funext p.assign_redacted
  have hplan : ∀ (warnings : List LintWarning)
      (buckets : Except PlannerError (List PlannedBucket)),
      planOf trigger warnings <$> List.map PlannedBucket.redacted <$> buckets =
        Plan.redacted <$> planOf trigger warnings <$> buckets := by
    intro warnings buckets
    cases buckets with
    | error e => rfl
    | ok buckets => exact congrArg Except.ok (planOf_redacted trigger warnings buckets)
  rw [plan_eq, plan_eq, hassign]
  dsimp only
  rw [mapM_map, hplan]
  show (p.verify _).ensureClean >>= _ = _
  cases (p.verify (Gate.ofTrigger trigger).level).ensureClean <;> rfl

end Planner

/-- What is shown of a plan does not depend on secrets.  From profiles that differ in secret texts
only, planners are made or refused alike and plans are made or refused alike, with the same error;
the plans show the same, also on their pages.  A plan that is shown has all of the plan but the
secret texts of its profiles, and nothing is left in it to be masked. -/
theorem shownPlan_ignoresSecrets {ps qs : List Profile}
    (h : List.Forall₂ Profile.SameButSecrets ps qs) (taxonomy : List String) (matrix : Matrix)
    (corpus : Corpus) (trigger : TriggerEvent) :
    Alike (fun a b => Alike (fun x y => x.redacted = y.redacted ∧
          ∀ withTests, Cli.Page.ofPlan x withTests = Cli.Page.ofPlan y withTests)
        (a.plan trigger) (b.plan trigger))
      (Planner.ofParts taxonomy matrix corpus ps) (Planner.ofParts taxonomy matrix corpus qs) ∧
    ∀ plan : Plan, plan.Shows plan.redacted ∧ plan.redacted.redacted = plan.redacted := by
  have hsame : ps.map Profile.redacted = qs.map Profile.redacted := by
    rw [← List.forall₂_eq_eq_eq, List.forall₂_map_left_iff, List.forall₂_map_right_iff]
    exact h.imp fun p q hpq => (p.redacted_eq_iff q).mpr hpq
  refine ⟨?_, fun plan => ⟨plan.shows_redacted, plan.redacted_redacted⟩⟩
  have hplanners : Planner.redacted <$> Planner.ofParts taxonomy matrix corpus ps =
      Planner.redacted <$> Planner.ofParts taxonomy matrix corpus qs := by
    rw [← Planner.ofParts_redacted, ← Planner.ofParts_redacted, hsame]
  apply (alike_of_map_eq hplanners).imp
  intro a b hab
  have hplans : Plan.redacted <$> a.plan trigger = Plan.redacted <$> b.plan trigger := by
    rw [← Planner.plan_redacted, ← Planner.plan_redacted, hab]
  apply (alike_of_map_eq hplans).imp
  intro x y hxy
  refine ⟨hxy, fun withTests => ?_⟩
  rw [← x.ofPlan_redacted, hxy, y.ofPlan_redacted]

/-- A profile that can be left running, with a password among its variables. -/
def keyedAws (password : String) : Profile :=
  { awsProfile with env := .ofList [("Db_Password", password), ("REGION", "eu-west-1")] }

/-- The planner of two buckets under that profile. -/
def keyedPlanner (password : String) : Planner :=
  ⟨defaultTaxonomy, twoBuckets, ⟨twoTests⟩, [keyedAws password], rfl⟩

/-- The plan of the two buckets under that profile. -/
def keyedPlan (password : String) : Plan where
  trigger := .schedule
  buckets := twoBucketPlan.buckets.map fun b => { b with profile := keyedAws password }
  leakCheckTargets := [keyedAws password]
  warnings := []

/-- Two plans that differ in a password show the same, which is not the password. -/
theorem shownPlan_ignoresSecrets_password :
    List.Forall₂ Profile.SameButSecrets [keyedAws "hunter2"] [keyedAws "correct horse"] ∧
      (keyedPlanner "hunter2").plan .schedule = .ok (keyedPlan "hunter2") ∧
      (keyedPlanner "correct horse").plan .schedule = .ok (keyedPlan "correct horse") ∧
      (keyedPlan "hunter2").redacted = (keyedPlan "correct horse").redacted ∧
      (keyedPlan "hunter2").redacted.leakCheckTargets = [keyedAws "***"] := by
  have hsame : List.Forall₂ Profile.SameButSecrets [keyedAws "hunter2"]
      [keyedAws "correct horse"] :=
    .cons ((Profile.redacted_eq_iff _ _).mp (by decide +kernel)) .nil
  have hplanners : Alike _ (.ok (keyedPlanner "hunter2")) (.ok (keyedPlanner "correct horse")) :=
    (shownPlan_ignoresSecrets hsame defaultTaxonomy twoBuckets ⟨twoTests⟩ .schedule).1
  cases hplanners with
  | ok hplans =>
      have hplans' : Alike _ (.ok (keyedPlan "hunter2")) (.ok (keyedPlan "correct horse")) := hplans
      cases hplans' with
      | ok hshown => exact ⟨hsame, rfl, rfl, hshown.1, by decide +kernel⟩

end CiPlan
