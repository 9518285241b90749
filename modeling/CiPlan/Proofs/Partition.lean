import CiPlan.Matrix.Builtin
import CiPlan.Plan
import CiPlan.Proofs.Except
import CiPlan.Proofs.Survey
import Mathlib.Algebra.Ring.Nat
import Mathlib.Data.List.Nodup

/-!
# An accepted plan divides up the tests

A planner accepts a trigger only when the report of the partition has no defect.  This module says
what that means for the plan that comes out:

* `plan_cases` — a plan pairs each active bucket with its own profile and its own selection;
* `exists_selects`, `length_inGroup_le_one`, `selection_ne_nil` — what the absence of orphans, of
  duplicates and of empty buckets says about the buckets;
* `mem_targetsOf_iff`, `nodup_targetsOf`, `pairwise_idxOf_targetsOf` — the targets of the leak check
  are the profiles that can leak, each once and in the order of first use;
* `disjoint_of_sublist`, `sum_length_tests` — buckets of one group share no test, and when one bucket
  selects each test the buckets have as many as there are;
* `plan_isPartition` — all of it together.

The planner of two buckets at the end is one to which the statements about accepted plans apply.
-/

namespace CiPlan

/-! ## Corpora -/

private theorem nodup_of_faultFrom? (tests : List TestCase) :
    ∀ seen : Std.HashSet String, Corpus.faultFrom? seen tests = none →
      (∀ t ∈ tests, t.name ∉ seen) ∧ (tests.map (·.name)).Nodup := by
  induction tests with
  | nil => simp
  | cons t tests ih =>
      intro seen h
      rw [Corpus.faultFrom?] at h
      split at h
      · cases h
      · split at h
        · cases h
        · next hseen =>
          obtain ⟨hrest, hnodup⟩ := ih _ h
          simp only [Std.HashSet.mem_insert, beq_iff_eq, not_or] at hrest
          refine ⟨?_, ?_⟩
          · intro u hu
            rcases List.mem_cons.mp hu with rfl | hu
            · exact hseen
            · exact (hrest u hu).2
          · rw [List.map_cons, List.nodup_cons]
            refine ⟨fun hmem => ?_, hnodup⟩
            obtain ⟨u, hu, heq⟩ := List.mem_map.mp hmem
            exact (hrest u hu).1 heq.symm

/-- The tests of a checked corpus have names of their own. -/
theorem Corpus.nodup_of_ofTests {source : String} {tests : List TestCase} {corpus : Corpus}
    (h : Corpus.ofTests source tests = .ok corpus) : (corpus.tests.map (·.name)).Nodup := by
  rw [Corpus.ofTests, Corpus.fault?] at h
  split at h
  · cases h
  · next hfault =>
    split at hfault
    · cases hfault
    · cases h
      exact (nodup_of_faultFrom? tests ∅ hfault).2

/-- In a checked corpus a name stands for one test. -/
theorem Corpus.eq_of_name_eq {corpus : Corpus} (hnodup : (corpus.tests.map (·.name)).Nodup)
    {level : TriggerLevel} {t u : TestCase} (ht : t ∈ corpus.applicable level)
    (hu : u ∈ corpus.applicable level) (h : t.name = u.name) : t = u :=
  List.inj_on_of_nodup_map hnodup (List.mem_of_mem_filter ht) (List.mem_of_mem_filter hu) h

/-! ## What a plan is made of -/

/-- A planned bucket is the work of an active bucket: it has the bucket's profile and selection. -/
structure Planner.Plans (p : Planner) (tests : List TestCase) (b : Bucket)
    (planned : PlannedBucket) : Prop where
  bucket : planned.bucket = b
  profile : Profile.find? p.profiles b.profile = some planned.profile
  tests : planned.tests = (tests.filter b.selects).map (·.name)

/-- A planner has the parts that it was made of. -/
theorem Planner.parts_of_ofParts {taxonomy : List String} {matrix : Matrix} {corpus : Corpus}
    {profiles : List Profile} {p : Planner}
    (h : Planner.ofParts taxonomy matrix corpus profiles = .ok p) :
    p.taxonomy = taxonomy ∧ p.matrix = matrix ∧ p.corpus = corpus ∧ p.profiles = profiles := by
  unfold Planner.ofParts at h
  split at h
  · cases h
    exact ⟨rfl, rfl, rfl, rfl⟩
  · cases h

/-- The profile of a bucket is the first of its name. -/
theorem Planner.profileOf_eq_ok {p : Planner} {b : Bucket} {profile : Profile}
    (h : p.profileOf b = .ok profile) : Profile.find? p.profiles b.profile = some profile := by
  unfold Planner.profileOf at h
  split at h
  · next hfind => cases h; exact hfind
  · cases h

theorem PartitionReport.isClean_of_ensureClean {r : PartitionReport} {u : Unit}
    (h : r.ensureClean = .ok u) : r.isClean = true := by
  unfold ensureClean at h
  split at h
  · assumption
  · cases h

/-- The parts of an accepted plan. -/
theorem Planner.plan_cases {p : Planner} {trigger : TriggerEvent} {plan : Plan}
    (h : p.plan trigger = .ok plan) :
    plan.trigger = trigger ∧ (p.verify plan.level).isClean = true ∧
      List.Forall₂ (p.Plans (p.corpus.applicable plan.level)) (p.matrix.active plan.level)
        plan.buckets ∧
      plan.leakCheckTargets = (plan.buckets.map (·.profile)).foldl Plan.addTarget [] := by
  obtain ⟨_, hclean, h⟩ := bind_eq_ok.mp h
  obtain ⟨buckets, hbuckets, heq⟩ := bind_eq_ok.mp h
  cases heq
  have hzip : (p.matrix.active (Gate.ofTrigger trigger).level).zip
      (p.verify (Gate.ofTrigger trigger).level).selections =
      (p.matrix.active (Gate.ofTrigger trigger).level).map fun b =>
        (b, b.selection (p.corpus.applicable (Gate.ofTrigger trigger).level)) := by
    rw [Planner.verify, verifyPartition_eq]
    exact List.map_prod_left_eq_zip.symm
  rw [hzip] at hbuckets
  refine ⟨rfl, PartitionReport.isClean_of_ensureClean hclean, ?_, by rw [List.foldl_map]⟩
  refine List.Forall₂.imp ?_ (List.forall₂_map_left_iff.mp (forall₂_of_mapM hbuckets))
  intro b planned hplanned
  obtain ⟨profile, hprofile, hparts⟩ := bind_eq_ok.mp hplanned
  cases hparts
  exact ⟨rfl, profileOf_eq_ok hprofile, rfl⟩

/-! ## What a report without defects says -/

section Clean

variable {taxonomy : List String} {matrix : Matrix} {corpus : Corpus} {level : TriggerLevel}

/-- Without orphans every test is selected. -/
theorem exists_selects (h : (verifyPartition taxonomy matrix corpus level).isClean = true)
    {t : TestCase} (ht : t ∈ corpus.applicable level) :
    ∃ b ∈ matrix.active level, b.selects t = true := by
  simp only [PartitionReport.isClean, verifyPartition_eq, Bool.and_eq_true, List.isEmpty_iff,
    orphansOf, List.map_eq_nil_iff, List.filter_eq_nil_iff] at h
  simpa using h.1.1 t ht

/-- The active buckets of a group that select a test. -/
def inGroup (buckets : List Bucket) (t : TestCase) (group : String) : List Bucket :=
  (buckets.filter (·.selects t)).filter (·.exclusiveGroup == some group)

/-- Without duplicates no two buckets of a group select a test. -/
theorem length_inGroup_le_one
    (h : (verifyPartition taxonomy matrix corpus level).isClean = true)
    {t : TestCase} (ht : t ∈ corpus.applicable level) (group : String) :
    (inGroup (matrix.active level) t group).length ≤ 1 := by
  simp only [PartitionReport.isClean, verifyPartition_eq, Bool.and_eq_true, List.isEmpty_iff,
    List.flatMap_eq_nil_iff] at h
  have hnone := List.filterMap_eq_nil_iff.mp (h.1.2 t ht) group
  by_cases hgroup : group ∈ (groupsOf ((matrix.active level).filter (·.selects t))).names
  · have hnot := hnone hgroup
    simp only [ite_eq_right_iff, reduceCtorEq, imp_false, Nat.not_lt] at hnot
    simpa [namesInGroup, inGroup] using hnot
  · have hnil := namesInGroup_eq_nil hgroup
    rw [namesInGroup, List.map_eq_nil_iff] at hnil
    simp [inGroup, hnil]

/-- Without empty buckets every bucket selects something. -/
theorem selection_ne_nil (h : (verifyPartition taxonomy matrix corpus level).isClean = true)
    {b : Bucket} (hb : b ∈ matrix.active level) :
    ((corpus.applicable level).filter b.selects).map (·.name) ≠ [] := by
  simp only [PartitionReport.isClean, verifyPartition_eq, Bool.and_eq_true, List.isEmpty_iff,
    List.map_eq_nil_iff, List.filter_eq_nil_iff] at h
  have hne := h.2 (b.selection (corpus.applicable level)) (List.mem_map_of_mem hb)
  simpa [Bucket.selection] using hne

end Clean

/-! ## Orders of first use -/

section FirstUse

variable {α : Type} [BEq α] [LawfulBEq α] {uses xs : List α}
  (h : xs.Pairwise fun a b => uses.idxOf a < uses.idxOf b) (hsub : xs ⊆ uses)

include h hsub

/-- Further uses do not change the order of what was used. -/
theorem pairwise_idxOf_append (more : List α) :
    xs.Pairwise fun a b => (uses ++ more).idxOf a < (uses ++ more).idxOf b := by
  apply h.imp_of_mem
  intro a b ha hb hlt
  rw [List.idxOf_append_of_mem (hsub ha), List.idxOf_append_of_mem (hsub hb)]
  exact hlt

/-- What is used for the first time comes last. -/
theorem pairwise_idxOf_concat {x : α} (hfresh : x ∉ uses) :
    (xs ++ [x]).Pairwise fun a b => (uses ++ [x]).idxOf a < (uses ++ [x]).idxOf b := by
  rw [List.pairwise_append]
  refine ⟨pairwise_idxOf_append h hsub [x], List.pairwise_singleton _ x, ?_⟩
  intro a ha b hb
  rw [List.mem_singleton.mp hb, List.idxOf_append_of_mem (hsub ha),
    List.idxOf_append_of_notMem hfresh]
  exact Nat.lt_add_right _ (List.idxOf_lt_length_of_mem (hsub ha))

end FirstUse

/-! ## The targets of the leak check -/

/-- The targets that some profiles make. -/
def targetsOf (profiles : List Profile) : List Profile := profiles.foldl Plan.addTarget []

/-- Among some profiles a name stands for one of them. -/
def NamesDecide (profiles : List Profile) : Prop :=
  ∀ p ∈ profiles, ∀ q ∈ profiles, p.name = q.name → p = q

section Targets

variable {profiles : List Profile} {x : Profile}

theorem targetsOf_concat (profiles : List Profile) (x : Profile) :
    targetsOf (profiles ++ [x]) = Plan.addTarget (targetsOf profiles) x := by
  simp [targetsOf]

private theorem NamesDecide.of_concat (h : NamesDecide (profiles ++ [x])) : NamesDecide profiles :=
  fun p hp q hq => h p (by simp [hp]) q (by simp [hq])

/-- A profile is a target when it can leak. -/
theorem mem_targetsOf_iff (h : NamesDecide profiles) (p : Profile) :
    p ∈ targetsOf profiles ↔ p ∈ profiles ∧ p.isLeakCheckTarget = true := by
  induction profiles using List.reverseRecOn generalizing p with
  | nil => simp [targetsOf]
  | append_singleton profiles x ih =>
      have hold := ih h.of_concat p
      rw [targetsOf_concat, Plan.addTarget]
      split
      · next hnew =>
        simp only [Bool.and_eq_true] at hnew
        rw [List.mem_append, List.mem_append, hold, List.mem_singleton]
        constructor
        · rintro (⟨hp, ht⟩ | rfl)
          · exact ⟨.inl hp, ht⟩
          · exact ⟨.inr rfl, hnew.1⟩
        · rintro ⟨hp | rfl, ht⟩
          · exact .inl ⟨hp, ht⟩
          · exact .inr rfl
      · next hnew =>
        rw [List.mem_append, hold, List.mem_singleton]
        constructor
        · rintro ⟨hp, ht⟩
          exact ⟨.inl hp, ht⟩
        · rintro ⟨hp | rfl, ht⟩
          · exact ⟨hp, ht⟩
          -- The profile is not new, so the one of its name that is there is the profile itself.
          · simp only [ht, Bool.true_and, Bool.not_eq_true', Bool.not_eq_false,
              List.any_eq_true, beq_iff_eq] at hnew
            obtain ⟨q, hq, hname⟩ := hnew
            have hmem : q ∈ profiles := ((ih h.of_concat q).mp hq).1
            have hqp : q = p := h q (by simp [hmem]) p (by simp) hname
            exact ⟨hqp ▸ hmem, ht⟩

/-- The targets have names of their own. -/
theorem nodup_targetsOf (profiles : List Profile) :
    ((targetsOf profiles).map (·.name)).Nodup := by
  induction profiles using List.reverseRecOn with
  | nil => simp [targetsOf]
  | append_singleton profiles x ih =>
      rw [targetsOf_concat, Plan.addTarget]
      split
      · next hnew =>
        simp only [Bool.and_eq_true, Bool.not_eq_true', List.any_eq_false, beq_iff_eq] at hnew
        rw [List.map_append, List.nodup_append]
        refine ⟨ih, by simp, ?_⟩
        intro name hname other hother
        obtain ⟨q, hq, rfl⟩ := List.mem_map.mp hname
        simp only [List.map_cons, List.map_nil, List.mem_singleton] at hother
        exact fun heq => hnew.2 q hq (heq.trans hother)
      · exact ih

/-- The targets stand in the order in which the profiles are first used. -/
theorem pairwise_idxOf_targetsOf (h : NamesDecide profiles) :
    (targetsOf profiles).Pairwise fun p q => profiles.idxOf p < profiles.idxOf q := by
  induction profiles using List.reverseRecOn with
  | nil => simp [targetsOf]
  | append_singleton profiles x ih =>
      have hsub : targetsOf profiles ⊆ profiles :=
        fun p hp => ((mem_targetsOf_iff h.of_concat p).mp hp).1
      rw [targetsOf_concat, Plan.addTarget]
      split
      · next hnew =>
        simp only [Bool.and_eq_true, Bool.not_eq_true', List.any_eq_false, beq_iff_eq] at hnew
        have hfresh : x ∉ profiles := by
          intro hx
          exact hnew.2 x ((mem_targetsOf_iff h.of_concat x).mpr ⟨hx, hnew.1⟩) rfl
        exact pairwise_idxOf_concat (ih h.of_concat) hsub hfresh
      · exact pairwise_idxOf_append (ih h.of_concat) hsub [x]

end Targets

/-! ## Counting tests -/

/-- Counting pairs by their first part and by their second part gives the same. -/
theorem sum_countP_comm {α β : Type} (related : α → β → Bool) (xs : List α) (ys : List β) :
    (xs.map fun x => ys.countP (related x)).sum =
      (ys.map fun y => xs.countP (related · y)).sum := by
  induction xs with
  | nil => simp
  | cons x xs ih =>
      have hx : ∀ zs : List β, (zs.map fun y => xs.countP (related · y) +
          if related x y then 1 else 0).sum =
            (zs.map fun y => xs.countP (related · y)).sum + zs.countP (related x) := by
        intro zs
        induction zs with
        | nil => rfl
        | cons z zs ihz =>
            simp only [List.map_cons, List.sum_cons, List.countP_cons, ihz]
            omega
      simp only [List.map_cons, List.sum_cons, List.countP_cons, ih, hx]
      omega

/-! ## The plan -/

/-- The buckets of a plan divide up the tests of a corpus, and its other parts follow from them. -/
structure Plan.IsPartition (plan : Plan) (matrix : Matrix) (corpus : Corpus)
    (profiles : List Profile) : Prop where
  /-- The buckets are those of the level, in the order of the matrix. -/
  buckets : plan.buckets.map (·.bucket) = matrix.active plan.level
  /-- A bucket has the tests for the level that it selects, in the order of the corpus. -/
  tests : ∀ b ∈ plan.buckets,
    b.tests = ((corpus.applicable plan.level).filter b.bucket.selects).map (·.name)
  nodup : ∀ b ∈ plan.buckets, b.tests.Nodup
  nonempty : ∀ b ∈ plan.buckets, b.tests ≠ []
  /-- Every test for the level is in a bucket. -/
  covered : ∀ t ∈ corpus.applicable plan.level, ∃ b ∈ plan.buckets, t.name ∈ b.tests
  /-- No test is in two buckets of a group. -/
  exclusive : plan.buckets.Pairwise fun a b => ∀ group,
    a.bucket.exclusiveGroup = some group → b.bucket.exclusiveGroup = some group →
      a.tests.Disjoint b.tests
  /-- When all buckets are of one group, every test is in one bucket, and the buckets have as many
  tests as there are. -/
  exact : ∀ group, (∀ b ∈ plan.buckets, b.bucket.exclusiveGroup = some group) →
    (∀ t ∈ corpus.applicable plan.level,
      plan.buckets.countP (fun b => b.tests.contains t.name) = 1) ∧
    (plan.buckets.map (·.tests.length)).sum = (corpus.applicable plan.level).length
  /-- The profile of a bucket is the first with the name that the bucket gives. -/
  profile : ∀ b ∈ plan.buckets,
    profiles.find? (fun p => p.name == b.bucket.profile) = some b.profile
  /-- The targets are the profiles of the buckets that can leak. -/
  mem_targets : ∀ p, p ∈ plan.leakCheckTargets ↔
    p.isLeakCheckTarget = true ∧ ∃ b ∈ plan.buckets, b.profile = p
  nodup_targets : (plan.leakCheckTargets.map (·.name)).Nodup
  /-- The targets are in the order of first use. -/
  order_targets : plan.leakCheckTargets.Pairwise fun p q =>
    (plan.buckets.map (·.profile)).idxOf p < (plan.buckets.map (·.profile)).idxOf q

section Partition

variable {p : Planner} {trigger : TriggerEvent} {plan : Plan}

private theorem map_bucket_of_forall₂ {tests : List TestCase} {active : List Bucket}
    {planned : List PlannedBucket} (h : List.Forall₂ (p.Plans tests) active planned) :
    planned.map (·.bucket) = active ∧ ∀ b ∈ planned, p.Plans tests b.bucket b := by
  induction h with
  | nil => simp
  | cons hb _ ih =>
      obtain ⟨rfl, hprofile, htests⟩ := hb
      refine ⟨by simp [ih.1], ?_⟩
      intro b hmem
      rcases List.mem_cons.mp hmem with rfl | hmem
      · exact ⟨rfl, hprofile, htests⟩
      · exact ih.2 b hmem

/-- The planned buckets are the active ones, each with its own profile and selection. -/
theorem Planner.plans_of_plan (h : p.plan trigger = .ok plan) :
    plan.buckets.map (·.bucket) = p.matrix.active plan.level ∧
      ∀ b ∈ plan.buckets, p.Plans (p.corpus.applicable plan.level) b.bucket b :=
  map_bucket_of_forall₂ (Planner.plan_cases h).2.2.1

/-- Among the profiles of a plan a name stands for one profile, the first of its name. -/
theorem Planner.namesDecide_of_plan (h : p.plan trigger = .ok plan) :
    NamesDecide (plan.buckets.map (·.profile)) := by
  have hfind : ∀ q ∈ plan.buckets.map (·.profile), Profile.find? p.profiles q.name = some q := by
    intro q hq
    obtain ⟨b, hb, rfl⟩ := List.mem_map.mp hq
    have hprofile := ((Planner.plans_of_plan h).2 b hb).profile
    have hname : b.profile.name = b.bucket.profile := by
      simpa using List.find?_some hprofile
    rw [hname]
    exact hprofile
  intro q hq r hr hname
  exact Option.some.inj ((hfind q hq).symm.trans (hname ▸ hfind r hr))

/-- The targets of the leak check are made from the profiles of the buckets. -/
theorem Planner.leakCheckTargets_of_plan (h : p.plan trigger = .ok plan) :
    plan.leakCheckTargets = targetsOf (plan.buckets.map (·.profile)) :=
  (Planner.plan_cases h).2.2.2

/-- In a checked corpus a test is in a bucket exactly when the bucket selects it. -/
theorem Planner.mem_tests_iff (hnodup : (p.corpus.tests.map (·.name)).Nodup)
    (h : p.plan trigger = .ok plan) {b : PlannedBucket} (hb : b ∈ plan.buckets) {t : TestCase}
    (ht : t ∈ p.corpus.applicable plan.level) :
    t.name ∈ b.tests ↔ b.bucket.selects t = true := by
  rw [((Planner.plans_of_plan h).2 b hb).tests, List.mem_map]
  constructor
  · rintro ⟨u, hu, hname⟩
    obtain ⟨humem, husel⟩ := List.mem_filter.mp hu
    rw [← Corpus.eq_of_name_eq hnodup humem ht hname]
    exact husel
  · intro hsel
    exact ⟨t, List.mem_filter.mpr ⟨ht, hsel⟩, rfl⟩

/-- Two places in the plan whose buckets are of one group and select one test are two places in the
list that `length_inGroup_le_one` bounds. -/
private theorem not_selects_of_sublist {a b : PlannedBucket} {buckets : List PlannedBucket}
    {t : TestCase} {group : String} (h : [a, b].Sublist buckets)
    (hlen : (inGroup (buckets.map (·.bucket)) t group).length ≤ 1)
    (ha : a.bucket.exclusiveGroup = some group) (hb : b.bucket.exclusiveGroup = some group)
    (hsel : a.bucket.selects t = true) : b.bucket.selects t = false := by
  by_contra hbsel
  rw [Bool.not_eq_false] at hbsel
  have hsub := ((h.map (·.bucket)).filter (·.selects t)).filter (·.exclusiveGroup == some group)
  have hpair : inGroup ([a, b].map (·.bucket)) t group = [a.bucket, b.bucket] := by
    simp [inGroup, ha, hb, hsel, hbsel]
  have hle : (inGroup ([a, b].map (·.bucket)) t group).length ≤
      (inGroup (buckets.map (·.bucket)) t group).length := hsub.length_le
  rw [hpair] at hle
  simp only [List.length_cons, List.length_nil] at hle
  omega

/-- When all buckets are of one group, one of them selects a test. -/
private theorem countP_selects_eq_one {buckets : List Bucket} {t : TestCase} {group : String}
    (hgroup : ∀ b ∈ buckets, b.exclusiveGroup = some group)
    (hlen : (inGroup buckets t group).length ≤ 1) (hsome : ∃ b ∈ buckets, b.selects t = true) :
    buckets.countP (·.selects t) = 1 := by
  have hall : inGroup buckets t group = buckets.filter (·.selects t) := by
    refine List.filter_eq_self.mpr ?_
    intro b hb
    simp [hgroup b (List.mem_of_mem_filter hb)]
  have hpos : 0 < buckets.countP (·.selects t) := List.countP_pos_iff.mpr hsome
  rw [hall, ← List.countP_eq_length_filter] at hlen
  omega

/-- Two buckets of a group at two places of a plan have no test in common. -/
theorem Planner.disjoint_of_sublist (hnodup : (p.corpus.tests.map (·.name)).Nodup)
    (h : p.plan trigger = .ok plan) {a b : PlannedBucket} (hsub : [a, b].Sublist plan.buckets)
    {group : String} (ha : a.bucket.exclusiveGroup = some group)
    (hb : b.bucket.exclusiveGroup = some group) : a.tests.Disjoint b.tests := by
  obtain ⟨hbuckets, hplans⟩ := Planner.plans_of_plan h
  have hina : a ∈ plan.buckets := hsub.subset (by simp)
  have hinb : b ∈ plan.buckets := hsub.subset (by simp)
  intro name hnamea hnameb
  have htest : ∃ t ∈ p.corpus.applicable plan.level, t.name = name := by
    rw [(hplans a hina).tests] at hnamea
    obtain ⟨t, ht, hname⟩ := List.mem_map.mp hnamea
    exact ⟨t, List.mem_of_mem_filter ht, hname⟩
  obtain ⟨t, ht, rfl⟩ := htest
  have hlen := length_inGroup_le_one (Planner.plan_cases h).2.1 ht group
  rw [← hbuckets] at hlen
  have hsel := (Planner.mem_tests_iff hnodup h hina ht).mp hnamea
  have hnot := not_selects_of_sublist hsub hlen ha hb hsel
  rw [(Planner.mem_tests_iff hnodup h hinb ht).mp hnameb] at hnot
  cases hnot

/-- When one bucket selects each test, the buckets have as many tests as there are. -/
theorem Planner.sum_length_tests (h : p.plan trigger = .ok plan)
    (hone : ∀ t ∈ p.corpus.applicable plan.level,
      (p.matrix.active plan.level).countP (·.selects t) = 1) :
    (plan.buckets.map (·.tests.length)).sum = (p.corpus.applicable plan.level).length := by
  obtain ⟨hbuckets, hplans⟩ := Planner.plans_of_plan h
  calc (plan.buckets.map (·.tests.length)).sum
      = (plan.buckets.map fun b =>
          (p.corpus.applicable plan.level).countP b.bucket.selects).sum := by
        refine congrArg List.sum (List.map_congr_left fun b hb => ?_)
        rw [(hplans b hb).tests, List.length_map, List.countP_eq_length_filter]
    _ = ((p.matrix.active plan.level).map fun b =>
          (p.corpus.applicable plan.level).countP b.selects).sum := by
        rw [← hbuckets, List.map_map]
        rfl
    _ = ((p.corpus.applicable plan.level).map fun t =>
          (p.matrix.active plan.level).countP (·.selects t)).sum :=
        sum_countP_comm Bucket.selects _ _
    _ = ((p.corpus.applicable plan.level).map fun _ => 1).sum :=
        congrArg List.sum (List.map_congr_left hone)
    _ = (p.corpus.applicable plan.level).length := by simp

/-- The buckets of an accepted plan divide up the tests of the corpus.  The corpus is a checked one,
so a test is known by its name; taxonomy, matrix and profiles are any. -/
theorem plan_isPartition {source : String} {tests : List TestCase} {corpus : Corpus}
    {taxonomy : List String} {matrix : Matrix} {profiles : List Profile} {planner : Planner}
    {trigger : TriggerEvent} {plan : Plan} (hcorpus : Corpus.ofTests source tests = .ok corpus)
    (hplanner : Planner.ofParts taxonomy matrix corpus profiles = .ok planner)
    (h : planner.plan trigger = .ok plan) :
    plan.trigger = trigger ∧ plan.IsPartition matrix corpus profiles := by
  obtain ⟨rfl, rfl, rfl, rfl⟩ := Planner.parts_of_ofParts hplanner
  have hnodup := Corpus.nodup_of_ofTests hcorpus
  obtain ⟨htrigger, hclean, -, -⟩ := Planner.plan_cases h
  obtain ⟨hbuckets, hplans⟩ := Planner.plans_of_plan h
  have hmem : ∀ b ∈ plan.buckets, ∀ t ∈ planner.corpus.applicable plan.level,
      (t.name ∈ b.tests ↔ b.bucket.selects t = true) := by
    intro b hb t ht
    exact Planner.mem_tests_iff hnodup h hb ht
  have hactive : ∀ b ∈ plan.buckets, b.bucket ∈ planner.matrix.active plan.level := by
    intro b hb
    rw [← hbuckets]
    exact List.mem_map_of_mem hb
  have hnames : ((planner.corpus.applicable plan.level).map (·.name)).Nodup :=
    hnodup.sublist (List.filter_sublist.map _)
  refine ⟨htrigger, hbuckets, fun b hb => (hplans b hb).tests, ?nodup, ?nonempty, ?covered,
    ?exclusive, ?exact, fun b hb => (hplans b hb).profile, ?mem_targets, ?nodup_targets,
    ?order_targets⟩
  case nodup =>
    intro b hb
    rw [(hplans b hb).tests]
    exact hnames.sublist (List.filter_sublist.map _)
  case nonempty =>
    intro b hb
    rw [(hplans b hb).tests]
    exact selection_ne_nil hclean (hactive b hb)
  case covered =>
    intro t ht
    obtain ⟨b, hb, hsel⟩ := exists_selects hclean ht
    rw [← hbuckets] at hb
    obtain ⟨planned, hplanned, rfl⟩ := List.mem_map.mp hb
    exact ⟨planned, hplanned, (hmem planned hplanned t ht).mpr hsel⟩
  case exclusive =>
    rw [List.pairwise_iff_forall_sublist]
    intro a b hsub group ha hb
    exact Planner.disjoint_of_sublist hnodup h hsub ha hb
  case exact =>
    intro group hgroup
    have hactivegroup : ∀ b ∈ planner.matrix.active plan.level, b.exclusiveGroup = some group := by
      intro b hb
      rw [← hbuckets] at hb
      obtain ⟨planned, hplanned, rfl⟩ := List.mem_map.mp hb
      exact hgroup planned hplanned
    have hone : ∀ t ∈ planner.corpus.applicable plan.level,
        (planner.matrix.active plan.level).countP (·.selects t) = 1 := by
      intro t ht
      exact countP_selects_eq_one hactivegroup (length_inGroup_le_one hclean ht group)
        (exists_selects hclean ht)
    constructor
    · intro t ht
      rw [← hone t ht, ← hbuckets, List.countP_map]
      refine List.countP_congr fun b hb => ?_
      rw [List.contains_iff_mem]
      exact hmem b hb t ht
    · exact Planner.sum_length_tests h hone
  case mem_targets =>
    intro p
    rw [Planner.leakCheckTargets_of_plan h, mem_targetsOf_iff (Planner.namesDecide_of_plan h),
      List.mem_map]
    exact and_comm
  case nodup_targets =>
    rw [Planner.leakCheckTargets_of_plan h]
    exact nodup_targetsOf _
  case order_targets =>
    rw [Planner.leakCheckTargets_of_plan h]
    exact pairwise_idxOf_targetsOf (Planner.namesDecide_of_plan h)

end Partition

/-! ## A plan of two buckets -/

/-- Two release buckets of one group, which divide the tests up by a tag. -/
def twoBuckets : Matrix where
  buckets := [Matrix.releaseBucket "plain-tests" Matrix.notCluster none "aws" 3600,
    Matrix.releaseBucket "cluster-tests" Matrix.plainCluster none "aws" 3600]
  checked := Matrix.check_eq_ok_iff.2 (by decide +kernel)

/-- A test for each of the two buckets. -/
def twoTests : List TestCase :=
  [⟨"test_config", .empty, []⟩, ⟨"test_cluster", .ofList ["clustertest"], []⟩]

theorem ofTests_twoTests : Corpus.ofTests "corpus.yaml" twoTests = .ok ⟨twoTests⟩ := by
  have hconfig : Text.isBlankText "test_config" = false := by decide
  have hcluster : Text.isBlankText "test_cluster" = false := by decide
  have hfew : ¬ maxTests < twoTests.length := by decide
  rw [Corpus.ofTests, Corpus.fault?, if_neg hfew]
  simp [Corpus.faultFrom?, twoTests, hconfig, hcluster]

/-- A profile that can be left running. -/
def awsProfile : Profile :=
  { Profile.ofKind "aws" .aws with statusCommand := ["sky", "status"] }

/-- The planner of the two buckets. -/
def twoBucketPlanner : Planner :=
  ⟨defaultTaxonomy, twoBuckets, ⟨twoTests⟩, [awsProfile], rfl⟩

/-- The plan of the two buckets. -/
def twoBucketPlan : Plan where
  trigger := .schedule
  buckets :=
    [⟨Matrix.releaseBucket "plain-tests" Matrix.notCluster none "aws" 3600, awsProfile,
        ["test_config"]⟩,
      ⟨Matrix.releaseBucket "cluster-tests" Matrix.plainCluster none "aws" 3600, awsProfile,
        ["test_cluster"]⟩]
  leakCheckTargets := [awsProfile]
  warnings := []

theorem plan_twoBucketPlanner : twoBucketPlanner.plan .schedule = .ok twoBucketPlan := by rfl

theorem plan_isPartition_twoBuckets :
    Corpus.ofTests "corpus.yaml" twoTests = .ok ⟨twoTests⟩ ∧
      Planner.ofParts defaultTaxonomy twoBuckets ⟨twoTests⟩ [awsProfile] = .ok twoBucketPlanner ∧
      twoBucketPlanner.plan .schedule = .ok twoBucketPlan ∧
      twoBucketPlan.trigger = .schedule ∧
      twoBucketPlan.IsPartition twoBuckets ⟨twoTests⟩ [awsProfile] :=
  ⟨ofTests_twoTests, rfl, plan_twoBucketPlanner,
    plan_isPartition ofTests_twoTests rfl plan_twoBucketPlanner⟩

end CiPlan
