import CiPlan.Proofs.Defects
import CiPlan.Proofs.Masking
import Mathlib.Data.Finset.Card

/-!
# Routes of tests through the built-in matrix

The route of a test is the list of the active buckets that select it.  A report follows from the routes
of its tests (`routes_verifyPartition`): a test without a route is an orphan, and where all buckets are
of one group a test whose route has two buckets is a duplicate.

In the built-in matrix the route of a test follows from three of its tags, and for tests that are on
demand from the providers that its name fits.  A name never fits both kinds of AWS clusters, because
the word for one kind has a part that names for the other must not have (`Provider.not_fits_awsLocal`).

Main result: `builtin_routes`.
-/

namespace CiPlan

/-! ## Reports and routes -/

/-- The active buckets that select a test, by name. -/
def Matrix.route (m : Matrix) (level : TriggerLevel) (t : TestCase) : List String :=
  ((m.active level).filter (·.selects t)).map (·.name)

/-- A report puts the tests where their routes lead and finds the given duplicates among them. -/
structure PartitionReport.Routes (r : PartitionReport) (matrix : Matrix) (level : TriggerLevel)
    (tests : List TestCase) (repeats : TestCase → List Duplicate) : Prop where
  /-- Each bucket has the tests whose routes lead to it. -/
  selections : r.selections = (matrix.active level).map fun b =>
    ⟨b.name, (tests.filter (b.name ∈ matrix.route level ·)).map (·.name)⟩
  orphans : r.orphans = (tests.filter (matrix.route level · = [])).map (·.name)
  duplicates : r.duplicates = tests.flatMap repeats
  /-- What is found about a test by its name, if it does not share it with another test. -/
  named : ∀ t ∈ tests, (∀ u ∈ tests, u.name = t.name → u = t) →
    r.bucketsFor t.name = matrix.route level t ∧
      (t.name ∈ r.orphans ↔ matrix.route level t = []) ∧
      ((∃ d ∈ r.duplicates, d.test = t.name) ↔ repeats t ≠ [])

section Routes

variable {matrix : Matrix} {level : TriggerLevel}

theorem name_mem_route_iff {b : Bucket} (hb : b ∈ matrix.active level) (t : TestCase) :
    b.name ∈ matrix.route level t ↔ b.selects t = true := by
  rw [Matrix.route, List.mem_map]
  constructor
  · intro h
    obtain ⟨other, hother, hname⟩ := h
    obtain ⟨hactive, hselects⟩ := List.mem_filter.mp hother
    rwa [← matrix.eq_of_name_eq hactive hb hname]
  · intro h
    exact ⟨b, List.mem_filter.mpr ⟨hb, h⟩, rfl⟩

theorem route_eq_nil_iff (t : TestCase) :
    matrix.route level t = [] ↔ (matrix.active level).any (·.selects t) = false := by
  rw [Matrix.route, List.map_eq_nil_iff, List.filter_eq_nil_iff, List.any_eq_false]

theorem orphansOf_eq (tests : List TestCase) : orphansOf (matrix.active level) tests =
    (tests.filter (matrix.route level · = [])).map (·.name) := by
  rw [orphansOf]
  apply congrArg (List.map TestCase.name)
  apply List.filter_congr
  intro t _
  rw [Bool.eq_iff_iff, Bool.not_eq_true', decide_eq_true_eq, route_eq_nil_iff]

/-- The duplicates of a test bear its name. -/
theorem test_of_mem_duplicatesOf {active : List Bucket} {t : TestCase} {d : Duplicate}
    (h : d ∈ duplicatesOf active t) : d.test = t.name := by
  rw [duplicatesOf_eq] at h
  obtain ⟨g, _, rfl⟩ := List.mem_map.mp h
  rfl

section OneGroup

variable {group : String} (hgroup : ∀ b ∈ matrix.active level, b.exclusiveGroup = some group)
  (t : TestCase)

include hgroup

theorem map_name_inGroup :
    (inGroup (matrix.active level) t group).map (·.name) = matrix.route level t := by
  apply congrArg (List.map Bucket.name)
  apply List.filter_eq_self.mpr
  intro b hb
  exact beq_iff_eq.mpr (hgroup b (List.mem_of_mem_filter hb))

theorem length_inGroup_of_ne {g : String} (hg : g ≠ group) :
    (inGroup (matrix.active level) t g).length = 0 := by
  rw [List.length_eq_zero_iff, inGroup, List.filter_eq_nil_iff]
  intro b hb
  rw [hgroup b (List.mem_of_mem_filter hb), beq_iff_eq, Option.some.injEq]
  exact hg.symm

theorem mem_crowdedGroups_iff_of_group (g : String) : g ∈ crowdedGroups (matrix.active level) t ↔
    g = group ∧ 2 ≤ (matrix.route level t).length := by
  rw [mem_crowdedGroups_iff]
  by_cases hg : g = group
  · rw [hg, ← map_name_inGroup hgroup, List.length_map, eq_self, true_and]
  · rw [length_inGroup_of_ne hgroup t hg]
    simp [hg]

/-- Where all buckets are of one group, a test is a duplicate if its route has two of them. -/
theorem duplicatesOf_of_group : duplicatesOf (matrix.active level) t =
    if 2 ≤ (matrix.route level t).length then [⟨t.name, group, matrix.route level t⟩] else [] := by
  have hnodup : (crowdedGroups (matrix.active level) t).Nodup :=
    ((NameSet.sorted _).filter _).imp fun h => String.ne_of_lt h
  have hcrowded : crowdedGroups (matrix.active level) t =
      if 2 ≤ (matrix.route level t).length then [group] else [] := by
    by_cases h : 2 ≤ (matrix.route level t).length
    · rw [if_pos h]
      apply List.perm_singleton.mp
      rw [List.perm_ext_iff_of_nodup hnodup (List.nodup_singleton group)]
      intro g
      rw [mem_crowdedGroups_iff_of_group hgroup, List.mem_singleton, and_iff_left h]
    · rw [if_neg h, List.eq_nil_iff_forall_not_mem]
      intro g hg
      exact h ((mem_crowdedGroups_iff_of_group hgroup t g).mp hg).2
  rw [duplicatesOf_eq, hcrowded]
  split
  · rw [List.map_singleton, map_name_inGroup hgroup]
  · rfl

end OneGroup

section Report

variable (taxonomy : List String) (corpus : Corpus)

/-- The buckets of a test that shares its name with no other test are those of its route. -/
theorem bucketsFor_eq_route {t : TestCase} (ht : t ∈ corpus.applicable level)
    (hown : ∀ u ∈ corpus.applicable level, u.name = t.name → u = t) :
    (verifyPartition taxonomy matrix corpus level).bucketsFor t.name = matrix.route level t := by
  have hselects : ∀ b : Bucket,
      (b.selection (corpus.applicable level)).tests.contains t.name = b.selects t := by
    intro b
    rw [Bool.eq_iff_iff, List.contains_iff_mem, mem_selection_iff]
    constructor
    · intro h
      obtain ⟨u, hu, hname, hselects⟩ := h
      rwa [← hown u hu hname]
    · intro h
      exact ⟨t, ht, rfl, h⟩
  rw [verifyPartition_eq, PartitionReport.bucketsFor, List.filter_map, List.map_map, Matrix.route]
  apply congrArg (List.map Bucket.name)
  exact List.filter_congr fun b _ => hselects b

/-- A report follows from the routes of the tests. -/
theorem routes_verifyPartition :
    (verifyPartition taxonomy matrix corpus level).Routes matrix level (corpus.applicable level)
      (duplicatesOf (matrix.active level)) where
  selections := by
    rw [verifyPartition_eq]
    apply List.map_congr_left
    intro b hb
    rw [Bucket.selection]
    apply congrArg (fun tests : List TestCase => (⟨b.name, tests.map (·.name)⟩ : Selection))
    apply List.filter_congr
    intro t _
    rw [Bool.eq_iff_iff, decide_eq_true_eq, name_mem_route_iff hb]
  orphans := by
    rw [verifyPartition_eq]
    exact orphansOf_eq _
  duplicates := by rw [verifyPartition_eq]
  named := by
    intro t ht hown
    refine ⟨bucketsFor_eq_route taxonomy corpus ht hown, ?orphan, ?duplicate⟩
    case orphan =>
      rw [verifyPartition_eq]
      show t.name ∈ orphansOf _ _ ↔ _
      rw [orphansOf_eq, List.mem_map]
      constructor
      · intro h
        obtain ⟨u, hu, hname⟩ := h
        obtain ⟨hu, hroute⟩ := List.mem_filter.mp hu
        rw [← hown u hu hname]
        exact of_decide_eq_true hroute
      · intro h
        exact ⟨t, List.mem_filter.mpr ⟨ht, decide_eq_true h⟩, rfl⟩
    case duplicate =>
      rw [verifyPartition_eq]
      dsimp only
      constructor
      · intro h
        obtain ⟨d, hd, hname⟩ := h
        obtain ⟨u, hu, hd⟩ := List.mem_flatMap.mp hd
        have hsame : u = t := hown u hu ((test_of_mem_duplicatesOf hd).symm.trans hname)
        rw [← hsame]
        exact List.ne_nil_of_mem hd
      · intro h
        obtain ⟨d, hd⟩ := List.exists_mem_of_ne_nil _ h
        exact ⟨d, List.mem_flatMap.mpr ⟨t, ht, hd⟩, test_of_mem_duplicatesOf hd⟩

end Report

end Routes

/-! ## Tags and providers -/

/-- The test carries the tag. -/
def TestCase.IsTagged (t : TestCase) (tag : String) : Prop :=
  t.tags.contains tag = true

instance (t : TestCase) (tag : String) : Decidable (t.IsTagged tag) :=
  inferInstanceAs (Decidable (t.tags.contains tag = true))

/-- Who provides the clusters of tests that are on demand. -/
inductive Provider where
  | awsLocal | awsDen | gcp | kubernetes
  deriving DecidableEq

namespace Provider

def every : List Provider := [awsLocal, awsDen, gcp, kubernetes]

theorem mem_every (p : Provider) : p ∈ every := by
  cases p <;> decide

theorem nodup_every : every.Nodup := by decide

/-- The bucket with the tests of a provider. -/
def bucket : Provider → String
  | awsLocal => "ondemand-aws-local-tests"
  | awsDen => "ondemand-aws-den-tests"
  | gcp => "ondemand-gcp-tests"
  | kubernetes => "kubernetes-tests"

/-- The word is in the lower-cased name. -/
def Mentions (name word : String) : Prop :=
  word.toList <:+: Text.lowerText name

/-- The name is one for tests of the provider. -/
def Fits (name : String) : Provider → Prop
  | awsLocal => Mentions name "ondemand_aws_cluster" ∧ ¬ Mentions name "den_launched"
  | awsDen => Mentions name "den_launched_ondemand_aws_cluster"
  | gcp => Mentions name "ondemand_gcp_cluster"
  | kubernetes => Mentions name "ondemand_k8s_cluster"

/-- The keyword of a provider's bucket. -/
def keyword : Provider → Selector
  | awsLocal => Matrix.awsLocalKeyword
  | awsDen => Matrix.awsDenKeyword
  | gcp => Matrix.gcpKeyword
  | kubernetes => Matrix.kubernetesKeyword

/-- A lower-case term holds of the names that mention it. -/
theorem matchesName_term_iff {word : String} (h : Text.lowerText word = word.toList)
    (name : String) : (Expr.term word).matchesName name = true ↔ Mentions name word := by
  show Text.occursIn (Text.lowerText word) (Text.lowerText name) = true ↔ _
  rw [h, Text.occursIn_iff]
  rfl

theorem matchesName_keyword_iff (p : Provider) (name : String) :
    p.keyword.matchesName name = true ↔ p.Fits name := by
  cases p with
  | awsLocal =>
      show ((Expr.term "ondemand_aws_cluster").matchesName name &&
        !(Expr.term "den_launched").matchesName name) = true ↔ _
      rw [Bool.and_eq_true, Bool.not_eq_true', ← Bool.not_eq_true,
        matchesName_term_iff (by decide +kernel), matchesName_term_iff (by decide +kernel)]
      rfl
  | awsDen => exact matchesName_term_iff (by decide +kernel) name
  | gcp => exact matchesName_term_iff (by decide +kernel) name
  | kubernetes => exact matchesName_term_iff (by decide +kernel) name

instance (p : Provider) (name : String) : Decidable (p.Fits name) :=
  decidable_of_iff _ (p.matchesName_keyword_iff name)

/-- A name is not for both kinds of AWS clusters: the longer word has `den_launched` in it. -/
theorem not_fits_awsLocal {name : String} (h : awsDen.Fits name) : ¬ awsLocal.Fits name := by
  intro hlocal
  have hword : "den_launched".toList <:+: "den_launched_ondemand_aws_cluster".toList := by
    decide +kernel
  exact hlocal.2 (hword.trans h)

/-- The providers that a name is for. -/
def of (name : String) : List Provider :=
  every.filter (·.Fits name)

theorem mem_of_iff (p : Provider) (name : String) : p ∈ of name ↔ p.Fits name := by
  rw [of, List.mem_filter, decide_eq_true_eq, and_iff_right p.mem_every]

theorem of_eq_nil_iff (name : String) : of name = [] ↔ ∀ p : Provider, ¬ p.Fits name := by
  rw [List.eq_nil_iff_forall_not_mem]
  simp only [mem_of_iff]

theorem length_of_pos_iff (name : String) :
    0 < (of name).length ↔ ∃ p : Provider, p.Fits name := by
  rw [List.length_pos_iff_exists_mem]
  simp only [mem_of_iff]

theorem two_le_length_of_iff (name : String) :
    2 ≤ (of name).length ↔ ∃ p q : Provider, p ≠ q ∧ p.Fits name ∧ q.Fits name := by
  have hnodup : (of name).Nodup := nodup_every.filter _
  rw [← List.toFinset_card_of_nodup hnodup]
  show 1 < _ ↔ _
  rw [Finset.one_lt_card_iff]
  simp only [List.mem_toFinset, mem_of_iff]
  constructor
  · intro h
    obtain ⟨p, q, hp, hq, hne⟩ := h
    exact ⟨p, q, hne, hp, hq⟩
  · intro h
    obtain ⟨p, q, hne, hp, hq⟩ := h
    exact ⟨p, q, hp, hq, hne⟩

end Provider

/-! ## The release level -/

section Release

open CiPlan.Matrix

/-- The profile that the tests of a provider run under. -/
def Provider.profile : Provider → String
  | awsLocal => "aws"
  | awsDen => "aws-den"
  | gcp => "gcp"
  | kubernetes => "kubernetes"

/-- The bucket of a provider. -/
def Provider.releaseBucket (p : Provider) : Bucket :=
  Matrix.releaseBucket p.bucket onDemand (some p.keyword) p.profile 7200

theorem active_release : builtin.active .release =
    [releaseBucket "not-cluster-tests" notCluster none "local-logged-in" 3600,
        releaseBucket "cluster-tests" plainCluster none "local-logged-in" 3600] ++
      ([.awsLocal, .awsDen].map Provider.releaseBucket ++
        releaseBucket "multinode-tests" multinode none "aws" 7200 ::
          [.gcp, .kubernetes].map Provider.releaseBucket) :=
  rfl

variable (t : TestCase)

@[simp]
theorem matchesTags_notCluster_iff :
    notCluster.matchesTags t.tags = true ↔ ¬ t.IsTagged "clustertest" := by
  show (!t.tags.contains "clustertest") = true ↔ _
  simp [TestCase.IsTagged]

@[simp]
theorem matchesTags_plainCluster_iff : plainCluster.matchesTags t.tags = true ↔
    t.IsTagged "clustertest" ∧ ¬ t.IsTagged "ondemand" ∧ ¬ t.IsTagged "multinode" := by
  show ((t.tags.contains "clustertest" && !t.tags.contains "ondemand") &&
    !t.tags.contains "multinode") = true ↔ _
  simp [TestCase.IsTagged, and_assoc]

@[simp]
theorem matchesTags_onDemand_iff : onDemand.matchesTags t.tags = true ↔
    t.IsTagged "ondemand" ∧ ¬ t.IsTagged "multinode" := by
  show (t.tags.contains "ondemand" && !t.tags.contains "multinode") = true ↔ _
  simp [TestCase.IsTagged]

@[simp]
theorem matchesTags_multinode_iff :
    multinode.matchesTags t.tags = true ↔ t.IsTagged "multinode" :=
  Iff.rfl

@[simp]
theorem selects_releaseBucket (name : String) (marker : Selector) (profile : String)
    (secs : UInt64) :
    (releaseBucket name marker none profile secs).selects t = marker.matchesTags t.tags :=
  Bool.and_true _

@[simp]
theorem name_releaseBucket (name : String) (marker : Selector) (keyword : Option Selector)
    (profile : String) (secs : UInt64) :
    (releaseBucket name marker keyword profile secs).name = name :=
  rfl

@[simp]
theorem selects_provider_iff (p : Provider) : p.releaseBucket.selects t = true ↔
    (t.IsTagged "ondemand" ∧ ¬ t.IsTagged "multinode") ∧ p.Fits t.name := by
  rw [← p.matchesName_keyword_iff, ← matchesTags_onDemand_iff, ← Bool.and_eq_true]
  rfl

/-- The first bucket of the route of a test that is no test of clusters. -/
def notClusterRoute : List String :=
  if t.IsTagged "clustertest" then [] else ["not-cluster-tests"]

theorem route_of_multinode (hm : t.IsTagged "multinode") :
    builtin.route .release t = notClusterRoute t ++ ["multinode-tests"] := by
  rw [route, active_release, notClusterRoute]
  by_cases hc : t.IsTagged "clustertest"
  · simp [hm, hc]
  · simp [hm, hc]

theorem route_of_onDemand (ho : t.IsTagged "ondemand") (hm : ¬ t.IsTagged "multinode") :
    builtin.route .release t = notClusterRoute t ++ (Provider.of t.name).map Provider.bucket := by
  have hselects : (·.selects t) ∘ Provider.releaseBucket = fun p => decide (p.Fits t.name) := by
    funext p
    rw [Bool.eq_iff_iff, decide_eq_true_eq, Function.comp_apply, selects_provider_iff,
      and_iff_right ⟨ho, hm⟩]
  have hproviders : (Provider.every.map Provider.releaseBucket).filter (·.selects t) =
      (Provider.of t.name).map Provider.releaseBucket := by
    rw [List.filter_map, hselects, Provider.of]
  have hfront : ([releaseBucket "not-cluster-tests" notCluster none "local-logged-in" 3600,
      releaseBucket "cluster-tests" plainCluster none "local-logged-in" 3600].filter
        (·.selects t)).map (·.name) = notClusterRoute t := by
    rw [notClusterRoute]
    by_cases hc : t.IsTagged "clustertest"
    · simp [hc, ho]
    · simp [hc]
  have hmultinode : ∀ rest : List Bucket,
      (releaseBucket "multinode-tests" multinode none "aws" 7200 :: rest).filter (·.selects t) =
        rest.filter (·.selects t) := by
    intro rest
    exact List.filter_cons_of_neg (by simpa using hm)
  have hevery : [.awsLocal, .awsDen].map Provider.releaseBucket ++
      [.gcp, .kubernetes].map Provider.releaseBucket = Provider.every.map Provider.releaseBucket :=
    rfl
  rw [route, active_release, List.filter_append, List.filter_append,
    hmultinode, ← List.filter_append, hevery, hproviders, List.map_append,
    hfront, List.map_map]
  rfl

theorem route_of_plain (ho : ¬ t.IsTagged "ondemand") (hm : ¬ t.IsTagged "multinode") :
    builtin.route .release t =
      if t.IsTagged "clustertest" then ["cluster-tests"] else ["not-cluster-tests"] := by
  rw [route, active_release]
  by_cases hc : t.IsTagged "clustertest"
  · simp [hm, hc, ho]
  · simp [hm, hc, ho]

/-- All release buckets are of one group. -/
theorem group_of_mem_active_release :
    ∀ b ∈ builtin.active .release, b.exclusiveGroup = some "release" := by
  decide +kernel

/-- Where the release level takes a test. -/
structure IsReleaseRoute (t : TestCase) (route : List String) : Prop where
  multinode : t.IsTagged "clustertest" → t.IsTagged "multinode" → route = ["multinode-tests"]
  plain : t.IsTagged "clustertest" → ¬ t.IsTagged "ondemand" → ¬ t.IsTagged "multinode" →
    route = ["cluster-tests"]
  /-- Only the buckets of providers are left, those whose keyword the name fits. -/
  onDemand : t.IsTagged "clustertest" → t.IsTagged "ondemand" → ¬ t.IsTagged "multinode" →
    (∀ name, name ∈ route ↔ ∃ p : Provider, p.Fits t.name ∧ p.bucket = name) ∧
      (route = [] ↔ ∀ p : Provider, ¬ p.Fits t.name) ∧
      (2 ≤ route.length ↔ ∃ p q : Provider, p ≠ q ∧ p.Fits t.name ∧ q.Fits t.name)
  oneAws : ¬ ("ondemand-aws-local-tests" ∈ route ∧ "ondemand-aws-den-tests" ∈ route)
  notCluster : ¬ t.IsTagged "clustertest" → "not-cluster-tests" ∈ route ∧
    (2 ≤ route.length ↔ t.IsTagged "multinode" ∨
      t.IsTagged "ondemand" ∧ ∃ p : Provider, p.Fits t.name)

theorem bucket_mem_route_iff (p : Provider) : p.bucket ∈ builtin.route .release t ↔
    (t.IsTagged "ondemand" ∧ ¬ t.IsTagged "multinode") ∧ p.Fits t.name := by
  have hactive : p.releaseBucket ∈ builtin.active .release := by
    rw [active_release]
    cases p <;> simp
  rw [← selects_provider_iff]
  exact name_mem_route_iff hactive t

theorem isReleaseRoute_route : IsReleaseRoute t (builtin.route .release t) where
  multinode := by
    intro hc hm
    rw [route_of_multinode t hm, notClusterRoute, if_pos hc, List.nil_append]
  plain := by
    intro hc ho hm
    rw [route_of_plain t ho hm, if_pos hc]
  onDemand := by
    intro hc ho hm
    rw [route_of_onDemand t ho hm, notClusterRoute, if_pos hc, List.nil_append]
    refine ⟨?names, ?none, ?several⟩
    case names =>
      intro name
      simp only [List.mem_map, Provider.mem_of_iff]
    case none =>
      rw [List.map_eq_nil_iff, Provider.of_eq_nil_iff]
    case several =>
      rw [List.length_map, Provider.two_le_length_of_iff]
  oneAws := by
    intro h
    have hlocal := ((bucket_mem_route_iff t .awsLocal).mp h.1).2
    have hden := ((bucket_mem_route_iff t .awsDen).mp h.2).2
    exact Provider.not_fits_awsLocal hden hlocal
  notCluster := by
    intro hc
    have hfirst : notClusterRoute t = ["not-cluster-tests"] := if_neg hc
    by_cases hm : t.IsTagged "multinode"
    · rw [route_of_multinode t hm, hfirst]
      simp [hm]
    · by_cases ho : t.IsTagged "ondemand"
      · rw [route_of_onDemand t ho hm, hfirst, ← Provider.length_of_pos_iff]
        refine ⟨List.mem_append_left _ (List.mem_singleton_self _), ?_⟩
        rw [or_iff_right hm, and_iff_right ho, List.length_append, List.length_map]
        show 2 ≤ 1 + (Provider.of t.name).length ↔ _
        omega
      · rw [route_of_plain t ho hm, if_neg hc]
        simp [hm, ho]

end Release

/-! ## The local level -/

section Local

open CiPlan.Matrix

variable (t : TestCase)

theorem active_local : builtin.active .local =
    [localBucket "not-cluster-tests-logged-out" notCluster "local-logged-out" (some "local"),
      localBucket "cluster-tests-local" plainCluster "local-logged-out" (some "local"),
      localBucket "not-cluster-tests-logged-in" notCluster "local-logged-in" none,
      localBucket "server-tests-logged-in" serverTest "local-logged-in" none,
      localBucket "secret-tests-logged-in" secretTest "local-logged-in" none] :=
  rfl

@[simp]
theorem selects_localBucket (name : String) (marker : Selector) (profile : String)
    (group : Option String) :
    (localBucket name marker profile group).selects t = marker.matchesTags t.tags :=
  Bool.and_true _

@[simp]
theorem matchesTags_serverTest_iff :
    serverTest.matchesTags t.tags = true ↔ t.IsTagged "servertest" :=
  Iff.rfl

@[simp]
theorem matchesTags_secretTest_iff :
    secretTest.matchesTags t.tags = true ↔ t.IsTagged "secrettest" :=
  Iff.rfl

theorem route_local_eq_nil_iff : builtin.route .local t = [] ↔
    t.IsTagged "clustertest" ∧ (t.IsTagged "ondemand" ∨ t.IsTagged "multinode") ∧
      ¬ t.IsTagged "servertest" ∧ ¬ t.IsTagged "secrettest" := by
  rw [route_eq_nil_iff, active_local, List.any_eq_false]
  simp only [List.forall_mem_cons, selects_localBucket, matchesTags_notCluster_iff,
    matchesTags_plainCluster_iff, matchesTags_serverTest_iff, matchesTags_secretTest_iff]
  by_cases hc : t.IsTagged "clustertest"
  · simp [hc, or_iff_not_imp_left]
  · simp [hc]

/-- The two buckets of the group differ in a tag, so no test is in both. -/
theorem length_inGroup_local (g : String) :
    (inGroup (builtin.active .local) t g).length ≤ 1 := by
  let grouped : List Bucket :=
    [localBucket "not-cluster-tests-logged-out" notCluster "local-logged-out" (some "local"),
      localBucket "cluster-tests-local" plainCluster "local-logged-out" (some "local")]
  have hgroup : (builtin.active .local).filter (·.exclusiveGroup == some g) =
      grouped.filter (·.exclusiveGroup == some g) := by
    rw [active_local]
    simp only [grouped, List.filter_cons]
    rfl
  have hselects : (grouped.filter (·.selects t)).length ≤ 1 := by
    by_cases hc : t.IsTagged "clustertest"
    · rw [List.filter_cons_of_neg (by simpa using hc)]
      exact List.length_filter_le _ _
    · have hplain : ¬ plainCluster.matchesTags t.tags = true := by simp [hc]
      simp [grouped, hc, hplain]
  have hsublist : (inGroup (builtin.active .local) t g).Sublist (grouped.filter (·.selects t)) := by
    rw [inGroup, List.filter_comm, hgroup]
    exact List.filter_sublist.filter _
  exact Nat.le_trans hsublist.length_le hselects

theorem duplicatesOf_local : duplicatesOf (builtin.active .local) t = [] := by
  rw [duplicatesOf_eq, List.map_eq_nil_iff, List.eq_nil_iff_forall_not_mem]
  intro g hg
  have htwo := (mem_crowdedGroups_iff _ t g).mp hg
  have hone := length_inGroup_local t g
  omega

end Local

/-- The built-in matrix routes every test of every corpus.

At the local level no test is a duplicate, and a test is an orphan if it is a test of clusters on demand
or of several nodes and no test of the logged-in session.  At the release level a route has the buckets
that `IsReleaseRoute` says; a test is an orphan if it has none and a duplicate if it has two. -/
theorem builtin_routes (taxonomy : List String) (corpus : Corpus) :
    ((verifyPartition taxonomy .builtin corpus .local).Routes .builtin .local
        (corpus.applicable .local) (fun _ => []) ∧
      (verifyPartition taxonomy .builtin corpus .local).duplicates = [] ∧
      ∀ t, Matrix.builtin.route .local t = [] ↔
        t.IsTagged "clustertest" ∧ (t.IsTagged "ondemand" ∨ t.IsTagged "multinode") ∧
          ¬ t.IsTagged "servertest" ∧ ¬ t.IsTagged "secrettest") ∧
    (verifyPartition taxonomy .builtin corpus .release).Routes .builtin .release
        (corpus.applicable .release) (fun t =>
          if 2 ≤ (Matrix.builtin.route .release t).length then
            [⟨t.name, "release", Matrix.builtin.route .release t⟩]
          else []) ∧
      ∀ t, IsReleaseRoute t (Matrix.builtin.route .release t) := by
  have hlocal : duplicatesOf (Matrix.builtin.active .local) = fun _ => [] :=
    funext duplicatesOf_local
  have hrelease : duplicatesOf (Matrix.builtin.active .release) = fun t =>
      if 2 ≤ (Matrix.builtin.route .release t).length then
        [⟨t.name, "release", Matrix.builtin.route .release t⟩]
      else [] :=
    funext (duplicatesOf_of_group group_of_mem_active_release)
  have hroutesLocal : (verifyPartition taxonomy .builtin corpus .local).Routes .builtin .local
      (corpus.applicable .local) (duplicatesOf (Matrix.builtin.active .local)) :=
    routes_verifyPartition taxonomy corpus
  have hroutesRelease : (verifyPartition taxonomy .builtin corpus .release).Routes .builtin .release
      (corpus.applicable .release) (duplicatesOf (Matrix.builtin.active .release)) :=
    routes_verifyPartition taxonomy corpus
  rw [hlocal] at hroutesLocal
  rw [hrelease] at hroutesRelease
  have hnone : (verifyPartition taxonomy .builtin corpus .local).duplicates = [] := by
    rw [hroutesLocal.duplicates, List.flatMap_eq_nil_iff]
    exact fun _ _ => rfl
  exact ⟨⟨hroutesLocal, hnone, route_local_eq_nil_iff⟩, hroutesRelease, isReleaseRoute_route⟩

/-- A test whose name is one for two providers. -/
def twoProviderTest : TestCase :=
  ⟨"test_sync[ondemand_aws_cluster-ondemand_gcp_cluster]",
    .ofList ["clustertest", "ondemand"], []⟩

/-- Both providers take the test, so it is a duplicate. -/
theorem builtin_routes_twoProviders :
    Provider.awsLocal.Fits twoProviderTest.name ∧ Provider.gcp.Fits twoProviderTest.name ∧
      ∃ d ∈ (verifyPartition defaultTaxonomy .builtin ⟨[twoProviderTest]⟩ .release).duplicates,
        d.test = twoProviderTest.name := by
  have haws : Provider.awsLocal.Fits twoProviderTest.name := by decide +kernel
  have hgcp : Provider.gcp.Fits twoProviderTest.name := by decide +kernel
  obtain ⟨-, hroutes, hroute⟩ := builtin_routes defaultTaxonomy ⟨[twoProviderTest]⟩
  have htwo : 2 ≤ (Matrix.builtin.route .release twoProviderTest).length := by
    rw [((hroute twoProviderTest).onDemand (by decide +kernel) (by decide +kernel)
      (by decide +kernel)).2.2]
    exact ⟨.awsLocal, .gcp, nofun, haws, hgcp⟩
  have honly : Corpus.applicable ⟨[twoProviderTest]⟩ .release = [twoProviderTest] := rfl
  rw [honly] at hroutes
  have hnamed := hroutes.named twoProviderTest (List.mem_singleton_self _)
    fun u hu _ => List.mem_singleton.mp hu
  refine ⟨haws, hgcp, hnamed.2.2.mpr ?_⟩
  rw [if_pos htwo]
  exact List.cons_ne_nil _ _

end CiPlan
