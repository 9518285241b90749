import CiPlan.Proofs.Poll
import Mathlib.Data.Finset.Card

/-!
# The verdict on all targets

The verdict of a leak check sums up those on its targets.  A resource that several targets see is
listed once, where it is seen first: `mem_firstOfName_iff` says which resources `firstOfName` keeps,
whatever was seen before.  That no target is lost in the sum rests on the checks never reporting a
leak of nothing (`check_ne_leaked_nil`), which holds of every check, whatever its times are.

* `check_sumsUp` — the verdict of a check in terms of those on its targets, in any order;
* `isClean_check_iff` — what a clean verdict means for the queries of a check: each target has had a
  listing that shows nothing leaked.
-/

namespace CiPlan

/-- The resources that a verdict reports as leaked. -/
def LeakVerdict.resources : LeakVerdict → List Resource
  | leaked resources => resources
  | _ => []

namespace LeakReport

/-! ## The first resource of each name -/

section FirstOfName

variable {seen : List String} {resources : List Resource}

/-- What is kept is the first resource of a name that was not seen before. -/
theorem mem_firstOfName_iff {r : Resource} :
    r ∈ firstOfName seen resources ↔
      r.name ∉ seen ∧ resources.find? (fun s => s.name == r.name) = some r := by
  induction resources generalizing seen with
  | nil => simp [firstOfName]
  | cons first resources ih =>
      rw [firstOfName]
      by_cases hseen : first.name ∈ seen
      · rw [if_pos (by simpa using hseen), ih]
        by_cases hname : first.name = r.name
        · simp [← hname, hseen]
        · rw [List.find?_cons_of_neg (by simpa using hname)]
      · rw [if_neg (by simpa using hseen), List.mem_cons, ih, List.mem_cons, not_or]
        by_cases hname : first.name = r.name
        · rw [List.find?_cons_of_pos (by simpa using hname)]
          simp [← hname, hseen, eq_comm]
        · have hne : r ≠ first := fun h => hname (congrArg Resource.name h.symm)
          rw [List.find?_cons_of_neg (by simpa using hname)]
          simp [hne, Ne.symm hname]

/-- The names that are kept are all that were not seen before. -/
theorem mem_names_firstOfName_iff {name : String} :
    name ∈ (firstOfName seen resources).map (·.name) ↔
      name ∉ seen ∧ name ∈ resources.map (·.name) := by
  rw [List.mem_map]
  constructor
  · rintro ⟨r, hr, rfl⟩
    obtain ⟨hseen, hfirst⟩ := mem_firstOfName_iff.mp hr
    exact ⟨hseen, List.mem_map_of_mem (List.mem_of_find?_eq_some hfirst)⟩
  · rintro ⟨hseen, hname⟩
    obtain ⟨s, hs, hsname⟩ := List.mem_map.mp hname
    have hsome : (resources.find? fun s => s.name == name).isSome = true :=
      List.find?_isSome.mpr ⟨s, hs, by simpa using hsname⟩
    obtain ⟨r, hfirst⟩ := Option.isSome_iff_exists.mp hsome
    have hrname : r.name = name := by simpa using List.find?_some hfirst
    exact ⟨r, mem_firstOfName_iff.mpr ⟨hrname ▸ hseen, hrname ▸ hfirst⟩, hrname⟩

theorem nodup_names_firstOfName : ((firstOfName seen resources).map (·.name)).Nodup := by
  induction resources generalizing seen with
  | nil => exact List.nodup_nil
  | cons first resources ih =>
      rw [firstOfName]
      split
      · exact ih
      · rw [List.map_cons, List.nodup_cons]
        refine ⟨fun hmem => ?_, ih⟩
        exact (mem_names_firstOfName_iff.mp hmem).1 List.mem_cons_self

theorem firstOfName_sublist (seen : List String) (resources : List Resource) :
    (firstOfName seen resources).Sublist resources := by
  induction resources generalizing seen with
  | nil => exact List.Sublist.refl []
  | cons first resources ih =>
      rw [firstOfName]
      split
      · exact (ih seen).cons first
      · exact (ih (first.name :: seen)).cons_cons first

theorem firstOfName_nil_eq_nil_iff : firstOfName [] resources = [] ↔ resources = [] := by
  cases resources <;> simp [firstOfName]

end FirstOfName

/-! ## Sums -/

/-- Every leaked resource as often as it is reported, in the order of the targets. -/
def sightings (report : LeakReport) : List Resource :=
  report.targets.flatMap fun t => t.verdict.resources

theorem leakedResources_eq (report : LeakReport) :
    report.leakedResources = firstOfName [] report.sightings :=
  rfl

/-- Some target is leaked. -/
def HasLeak (report : LeakReport) : Prop :=
  ∃ t ∈ report.targets, ∃ resources, t.verdict = .leaked resources

/-- Some target could not be decided. -/
def HasDoubt (report : LeakReport) : Prop :=
  ∃ t ∈ report.targets, ∃ reason, t.verdict = .inconclusive reason

section Sum

variable {report other : LeakReport}

theorem forall_clean_iff :
    (∀ t ∈ report.targets, t.verdict = .clean) ↔ ¬ report.HasLeak ∧ ¬ report.HasDoubt := by
  constructor
  · intro h
    constructor
    · rintro ⟨t, ht, resources, hverdict⟩
      rw [h t ht] at hverdict
      cases hverdict
    · rintro ⟨t, ht, reason, hverdict⟩
      rw [h t ht] at hverdict
      cases hverdict
  · rintro ⟨hleak, hdoubt⟩ t ht
    cases hverdict : t.verdict with
    | clean => rfl
    | leaked resources => exact absurd ⟨t, ht, resources, hverdict⟩ hleak
    | inconclusive reason => exact absurd ⟨t, ht, reason, hverdict⟩ hdoubt

/-- A resource is reported by the targets that are leaked, as long as a leak shows something. -/
theorem leakedResources_eq_nil_iff (h : ∀ t ∈ report.targets, t.verdict ≠ .leaked []) :
    report.leakedResources = [] ↔ ¬ report.HasLeak := by
  rw [leakedResources_eq, firstOfName_nil_eq_nil_iff, sightings, List.flatMap_eq_nil_iff]
  constructor
  · rintro hnone ⟨t, ht, resources, hverdict⟩
    have hnil : t.verdict.resources = [] := hnone t ht
    rw [hverdict] at hnil
    exact h t ht (hverdict.trans (congrArg LeakVerdict.leaked hnil))
  · intro hleak t ht
    cases hverdict : t.verdict with
    | leaked resources => exact absurd ⟨t, ht, resources, hverdict⟩ hleak
    | clean => rfl
    | inconclusive reason => rfl

theorem doubts_eq_nil_iff : report.doubts = [] ↔ ¬ report.HasDoubt := by
  rw [doubts, List.filterMap_eq_nil_iff]
  constructor
  · rintro h ⟨t, ht, reason, hverdict⟩
    have hnone := h t ht
    rw [hverdict] at hnone
    cases hnone
  · intro hdoubt t ht
    cases hverdict : t.verdict with
    | inconclusive reason => exact absurd ⟨t, ht, reason, hverdict⟩ hdoubt
    | clean => rfl
    | leaked resources => rfl

/-- A leak anywhere wins, then a doubt anywhere. -/
theorem verdict_cases (h : ∀ t ∈ report.targets, t.verdict ≠ .leaked []) :
    (report.HasLeak ∧ report.verdict = .leaked report.leakedResources) ∨
    (¬ report.HasLeak ∧ report.HasDoubt ∧ ∃ reason, report.verdict = .inconclusive reason) ∨
    (¬ report.HasLeak ∧ ¬ report.HasDoubt ∧ report.verdict = .clean) := by
  by_cases hleaked : report.leakedResources = []
  · have hleak : ¬ report.HasLeak := (leakedResources_eq_nil_iff h).mp hleaked
    by_cases hdoubts : report.doubts = []
    · exact .inr (.inr ⟨hleak, doubts_eq_nil_iff.mp hdoubts, by simp [verdict, hleaked, hdoubts]⟩)
    · have hdoubt : report.HasDoubt := Classical.not_not.mp (mt doubts_eq_nil_iff.mpr hdoubts)
      exact .inr (.inl ⟨hleak, hdoubt, _, by simp [verdict, hleaked, hdoubts]; rfl⟩)
  · have hleak : report.HasLeak :=
      Classical.not_not.mp (mt (leakedResources_eq_nil_iff h).mpr hleaked)
    exact .inl ⟨hleak, by simp [verdict, hleaked]⟩

theorem exists_leaked_iff (h : ∀ t ∈ report.targets, t.verdict ≠ .leaked []) :
    (∃ resources, report.verdict = .leaked resources) ↔ report.HasLeak := by
  rcases verdict_cases h with ⟨hleak, heq⟩ | ⟨hleak, -, _, heq⟩ | ⟨hleak, -, heq⟩ <;>
    simp [hleak, heq]

theorem exists_inconclusive_iff (h : ∀ t ∈ report.targets, t.verdict ≠ .leaked []) :
    (∃ reason, report.verdict = .inconclusive reason) ↔ ¬ report.HasLeak ∧ report.HasDoubt := by
  rcases verdict_cases h with ⟨hleak, heq⟩ | ⟨hleak, hdoubt, _, heq⟩ | ⟨hleak, hdoubt, heq⟩
  · simp [hleak, heq]
  · simp [hleak, hdoubt, heq]
  · simp [hdoubt, heq]

theorem verdict_eq_clean_iff (h : ∀ t ∈ report.targets, t.verdict ≠ .leaked []) :
    report.verdict = .clean ↔ ¬ report.HasLeak ∧ ¬ report.HasDoubt := by
  rcases verdict_cases h with ⟨hleak, heq⟩ | ⟨hleak, hdoubt, _, heq⟩ | ⟨hleak, hdoubt, heq⟩
  · simp [hleak, heq]
  · simp [hdoubt, heq]
  · simp [hleak, hdoubt, heq]

/-- The verdict is clean when every target is, as long as a leak shows something. -/
theorem isClean_iff (h : ∀ t ∈ report.targets, t.verdict ≠ .leaked []) :
    report.isClean = true ↔ ∀ t ∈ report.targets, t.verdict = .clean := by
  rw [forall_clean_iff, ← verdict_eq_clean_iff h, isClean]
  cases report.verdict <;> simp [LeakVerdict.isClean]

theorem eq_leakedResources {resources : List Resource}
    (h : ∀ t ∈ report.targets, t.verdict ≠ .leaked [])
    (hverdict : report.verdict = .leaked resources) : resources = report.leakedResources := by
  rcases verdict_cases h with ⟨-, heq⟩ | ⟨-, -, _, heq⟩ | ⟨-, -, heq⟩
  · rw [heq] at hverdict
    exact (LeakVerdict.leaked.inj hverdict).symm
  · rw [heq] at hverdict
    cases hverdict
  · rw [heq] at hverdict
    cases hverdict

theorem leakedCount_eq_length (h : ∀ t ∈ report.targets, t.verdict ≠ .leaked []) :
    report.leakedCount = report.leakedResources.length := by
  rw [leakedCount]
  rcases verdict_cases h with ⟨-, heq⟩ | ⟨hleak, -, _, heq⟩ | ⟨hleak, -, heq⟩
  · rw [heq]
  · rw [heq, (leakedResources_eq_nil_iff h).mpr hleak]
    rfl
  · rw [heq, (leakedResources_eq_nil_iff h).mpr hleak]
    rfl

theorem mem_names_sightings_iff {name : String} :
    name ∈ report.sightings.map (·.name) ↔
      ∃ t ∈ report.targets, ∃ leaked, t.verdict = .leaked leaked ∧ name ∈ leaked.map (·.name) := by
  rw [sightings, List.map_flatMap, List.mem_flatMap]
  refine exists_congr fun t => and_congr_right fun _ => ?_
  cases t.verdict <;> simp [LeakVerdict.resources]

/-- There are as many leaked resources as names in the sightings. -/
theorem length_leakedResources (report : LeakReport) :
    report.leakedResources.length = (report.sightings.map (·.name)).toFinset.card := by
  have hnames : (report.leakedResources.map (·.name)).toFinset =
      (report.sightings.map (·.name)).toFinset := by
    ext name
    rw [List.mem_toFinset, List.mem_toFinset, leakedResources_eq, mem_names_firstOfName_iff]
    simp
  have hnodup : (report.leakedResources.map (·.name)).Nodup := nodup_names_firstOfName
  rw [← hnames, List.toFinset_card_of_nodup hnodup, List.length_map]

/-- The verdict on all targets sums up the verdicts on each of them. -/
structure SumsUp (report : LeakReport) : Prop where
  leaked_iff : (∃ resources, report.verdict = .leaked resources) ↔ report.HasLeak
  inconclusive_iff : (∃ reason, report.verdict = .inconclusive reason) ↔
    ¬ report.HasLeak ∧ report.HasDoubt
  clean_iff : report.verdict = .clean ↔ ¬ report.HasLeak ∧ ¬ report.HasDoubt
  isClean_iff : report.isClean = true ↔ ∀ t ∈ report.targets, t.verdict = .clean
  /-- The leaked resources have all names that are leaked at some target, each name once. -/
  nodup_names : ∀ resources, report.verdict = .leaked resources → (resources.map (·.name)).Nodup
  mem_names_iff : ∀ resources, report.verdict = .leaked resources → ∀ name,
    name ∈ resources.map (·.name) ↔
      ∃ t ∈ report.targets, ∃ leaked, t.verdict = .leaked leaked ∧ name ∈ leaked.map (·.name)
  /-- They stand in the order of the targets, each as the first target that sees it reports it. -/
  sublist : ∀ resources, report.verdict = .leaked resources → resources.Sublist report.sightings
  first : ∀ resources, report.verdict = .leaked resources → ∀ r ∈ resources,
    report.sightings.find? (fun s => s.name == r.name) = some r
  leakedCount_eq : report.leakedCount = (report.sightings.map (·.name)).toFinset.card

theorem sumsUp_of_ne_leaked_nil (h : ∀ t ∈ report.targets, t.verdict ≠ .leaked []) :
    report.SumsUp := by
  refine ⟨exists_leaked_iff h, exists_inconclusive_iff h, verdict_eq_clean_iff h, isClean_iff h,
    ?nodup, ?names, ?sublist, ?first, ?count⟩
  case nodup =>
    intro resources hverdict
    rw [eq_leakedResources h hverdict]
    exact nodup_names_firstOfName
  case names =>
    intro resources hverdict name
    rw [eq_leakedResources h hverdict, leakedResources_eq, mem_names_firstOfName_iff,
      mem_names_sightings_iff]
    simp
  case sublist =>
    intro resources hverdict
    rw [eq_leakedResources h hverdict]
    exact firstOfName_sublist [] report.sightings
  case first =>
    intro resources hverdict r hr
    rw [eq_leakedResources h hverdict] at hr
    exact (mem_firstOfName_iff.mp hr).2
  case count => rw [leakedCount_eq_length h, length_leakedResources]

/-- A resource that two targets see is listed as the first of them shows it. -/
example : LeakReport.verdict ⟨[⟨"aws", "ci", .inconclusive "timed out", 3⟩,
      ⟨"gcp", "ci", .leaked [⟨"head", "UP"⟩, ⟨"worker", "UP"⟩], 4⟩,
      ⟨"gke", "ci", .leaked [⟨"worker", "INIT"⟩], 4⟩]⟩ =
    .leaked [⟨"head", "UP"⟩, ⟨"worker", "UP"⟩] := by
  decide

/-! ## The order of the targets -/

theorem hasLeak_congr (h : other.targets.Perm report.targets) : other.HasLeak ↔ report.HasLeak :=
  exists_congr fun _ => and_congr_left fun _ => h.mem_iff

theorem hasDoubt_congr (h : other.targets.Perm report.targets) :
    other.HasDoubt ↔ report.HasDoubt :=
  exists_congr fun _ => and_congr_left fun _ => h.mem_iff

theorem SumsUp.label_eq_of_perm (h : report.SumsUp) (h' : other.SumsUp)
    (hperm : other.targets.Perm report.targets) : other.verdict.label = report.verdict.label := by
  cases hverdict : report.verdict with
  | leaked resources =>
      have hleak : report.HasLeak := h.leaked_iff.mp ⟨resources, hverdict⟩
      obtain ⟨_, hother⟩ := h'.leaked_iff.mpr ((hasLeak_congr hperm).mpr hleak)
      rw [hother]
      rfl
  | inconclusive reason =>
      have hdoubt := h.inconclusive_iff.mp ⟨reason, hverdict⟩
      rw [← hasLeak_congr hperm, ← hasDoubt_congr hperm] at hdoubt
      obtain ⟨_, hother⟩ := h'.inconclusive_iff.mpr hdoubt
      rw [hother]
      rfl
  | clean =>
      have hclean := h.clean_iff.mp hverdict
      rw [← hasLeak_congr hperm, ← hasDoubt_congr hperm] at hclean
      rw [h'.clean_iff.mpr hclean]

theorem SumsUp.leakedCount_eq_of_perm (h : report.SumsUp) (h' : other.SumsUp)
    (hperm : other.targets.Perm report.targets) : other.leakedCount = report.leakedCount := by
  have hsightings : other.sightings.Perm report.sightings := hperm.flatMap_right _
  rw [h'.leakedCount_eq, h.leakedCount_eq, List.toFinset_eq_of_perm _ _ (hsightings.map _)]

end Sum

end LeakReport

/-! ## Checks report no leak of nothing -/

/-- What a target has kept can be reported: a leak shows something, and nothing but that the target
is clean is known for good. -/
structure Pending.IsSound (p : Pending) : Prop where
  verdict : p.verdict = none ∨ p.verdict = some .clean
  lastLeaked : p.lastLeaked ≠ some []

namespace Pending

theorem isSound_start (p : Profile) : (start p).IsSound :=
  ⟨.inl rfl, by simp [start]⟩

theorem IsSound.hear {p : Pending} (h : p.IsSound) (a : Finding) : (p.hear a).IsSound := by
  refine ⟨?_, ?_⟩
  · rw [verdict_hear]
    split
    · exact .inr rfl
    · exact h.verdict
  · rw [lastLeaked_hear]
    cases hleaks : a.leaks? with
    | none => exact h.lastLeaked
    | some resources =>
        have hne : resources ≠ [] := (Finding.eq_of_leaks? hleaks).2
        simpa using hne

theorem IsSound.conclusion_ne {p : Pending} (h : p.IsSound) : p.conclusion ≠ .leaked [] := by
  rw [conclusion]
  rcases h.verdict with hverdict | hverdict
  · rw [hverdict]
    cases hleaked : p.lastLeaked with
    | some resources =>
        have hne : resources ≠ [] := fun hnil => h.lastLeaked (hnil ▸ hleaked)
        simpa using hne
    | none => cases p.lastError <;> simp
  · simp [hverdict]

end Pending

namespace LeakChecker

variable {c : LeakChecker}

theorem isSound_askAll (pending : List Pending) : ∀ r : Round, (∀ p ∈ pending, p.IsSound) →
    ∀ p ∈ (c.askAll r pending).2, p.IsSound := by
  induction pending with
  | nil =>
      intro r h
      exact h
  | cons p pending ih =>
      intro r h
      have hp := h p List.mem_cons_self
      have hrest := fun r => ih r fun u hu => h u (List.mem_cons_of_mem p hu)
      rw [askAll]
      split
      · exact List.forall_mem_cons.mpr ⟨hp, hrest r⟩
      · exact List.forall_mem_cons.mpr ⟨hp.hear _, hrest _⟩

theorem isSound_rounds (fuel : Nat) : ∀ number now interval queries pending,
    (∀ p ∈ pending, p.IsSound) →
      ∀ p ∈ (c.rounds fuel number now interval queries pending).2, p.IsSound := by
  induction fuel with
  | zero =>
      intro number now interval queries pending h
      have hask := isSound_askAll (c := c) pending ⟨number, now, queries, [], false⟩ h
      rw [rounds]
      simp only [ite_self]
      exact hask
  | succ fuel ih =>
      intro number now interval queries pending h
      have hask := isSound_askAll (c := c) pending ⟨number, now, queries, [], false⟩ h
      rw [rounds]
      simp only
      split
      · exact hask
      · exact ih _ _ _ _ _ hask

/-- No check reports a leak that shows nothing, whatever its times are. -/
theorem check_ne_leaked_nil (c : LeakChecker) (targets : List Profile) :
    ∀ t ∈ (c.check targets).report.targets, t.verdict ≠ .leaked [] := by
  have hstart : ∀ p ∈ targets.map Pending.start, p.IsSound := by
    simp only [List.forall_mem_map]
    exact fun p _ => Pending.isSound_start p
  have hend := isSound_rounds (c := c) (c.policy.maxWait + 1) 1
    (if targets.isEmpty then 0 else min c.policy.initialDelay c.policy.maxWait)
    c.policy.pollInterval [] _ hstart
  rw [check]
  intro t ht
  obtain ⟨p, hp, rfl⟩ := List.mem_map.mp ht
  exact (hend p hp).conclusion_ne

/-- The verdict of a leak check loses no target: it is leaked when some target is, undecided when none
is leaked and some target is undecided, and clean otherwise.  The leaked resources are those of all
targets, each name once, as the first target shows it.  The order of the targets matters to neither
the kind of the verdict nor the number of resources. -/
theorem check_sumsUp (c : LeakChecker) (targets : List Profile) :
    (c.check targets).report.SumsUp ∧
      ∀ other : LeakReport, other.targets.Perm (c.check targets).report.targets →
        other.verdict.label = (c.check targets).report.verdict.label ∧
          other.leakedCount = (c.check targets).report.leakedCount := by
  have hleaks := c.check_ne_leaked_nil targets
  have hsum := LeakReport.sumsUp_of_ne_leaked_nil hleaks
  refine ⟨hsum, fun other hperm => ?_⟩
  have hother : other.SumsUp :=
    LeakReport.sumsUp_of_ne_leaked_nil fun t ht => hleaks t (hperm.mem_iff.mp ht)
  exact ⟨hsum.label_eq_of_perm hother hperm, hsum.leakedCount_eq_of_perm hother hperm⟩

/-! ## Clean checks -/

/-- An answer that shows nothing leaked is a listing without leaked resources. -/
theorem finding_eq_ok_nil_iff {q : Query} :
    c.finding q = .ok [] ↔ ∃ listing, q.answer = .ok listing ∧ c.parser.leaked listing = [] := by
  rw [finding]
  cases q.answer with
  | ok listing => simp [Except.map, Except.mapError]
  | error e => simp [Except.map, Except.mapError]

/-- A check is clean when each target has had a listing without leaked resources. -/
theorem isClean_check_iff (hvalid : c.policy.IsValid) (targets : List Profile) :
    (c.check targets).report.isClean = true ↔
      ∀ p ∈ targets, ∃ q ∈ (c.check targets).queries, q.key = .of p ∧
        ∃ listing, q.answer = .ok listing ∧ c.parser.leaked listing = [] := by
  obtain ⟨last, queries, -, -, -, hqueries, htargets, -⟩ := check_spec hvalid targets
  have hmem : ∀ p : Profile, .ok [] ∈ c.answersTo (.of p) queries ↔
      ∃ q ∈ queries, q.key = .of p ∧
        ∃ listing, q.answer = .ok listing ∧ c.parser.leaked listing = [] := by
    intro p
    simp only [answersTo, queriesFor, List.mem_map, List.mem_filter, decide_eq_true_eq,
      finding_eq_ok_nil_iff, and_assoc]
  rw [LeakReport.isClean_iff (c.check_ne_leaked_nil targets), htargets, hqueries]
  simp only [List.forall_mem_map, List.mem_reverse, ← hmem]
  refine forall₂_congr fun p _ => ?_
  exact Pending.conclusion_start_hearAll_eq_clean_iff p _

end LeakChecker

end CiPlan
