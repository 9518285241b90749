import CiPlan.Plan.Partition
import Mathlib.Data.List.Induction

/-!
# What a survey of the tests adds up to

`verifyPartition` walks over the tests and offers each of them to the active buckets, which keep
running lists.  This module says what has accumulated in the end, list by list, without the walk:

* `offer_map` — one test, offered to all buckets;
* `foldl_visit` — all tests, one after the other;
* `verifyPartition_eq` — the report, with each of its lists as a filter of the tests or the buckets.

The table of groups is the one part that is not a filter: it is kept in order of the groups while the
buckets come in the order of the matrix.  `groups_foldl_add` turns it into a list over the set of the
groups.
-/

namespace CiPlan

/-! ## What the lists are in the end -/

/-- What a bucket selects of some tests. -/
def Bucket.selection (b : Bucket) (tests : List TestCase) : Selection :=
  ⟨b.name, (tests.filter b.selects).map (·.name)⟩

/-- The buckets that belong to a group, by name. -/
def namesInGroup (buckets : List Bucket) (group : String) : List String :=
  (buckets.filter (·.exclusiveGroup == some group)).map (·.name)

/-- The groups of some buckets. -/
def groupsOf (buckets : List Bucket) : NameSet :=
  .ofList (buckets.filterMap (·.exclusiveGroup))

/-- The groups in which two or more buckets select a test, in code point order. -/
def duplicatesOf (buckets : List Bucket) (test : TestCase) : List Duplicate :=
  let selecting := buckets.filter (·.selects test)
  (groupsOf selecting).names.filterMap fun group =>
    if 1 < (namesInGroup selecting group).length then
      some ⟨test.name, group, namesInGroup selecting group⟩
    else none

/-- The tests that no bucket selects. -/
def orphansOf (buckets : List Bucket) (tests : List TestCase) : List String :=
  (tests.filter fun t => !buckets.any (·.selects t)).map (·.name)

/-- The survey after some tests, list by list. -/
def Survey.of (taxonomy : List String) (active : List Bucket) (tests : List TestCase) : Survey where
  applicable := tests.length
  intakes := active.map fun b => ⟨b.name, ((b.selection tests).tests).toArray⟩
  orphans := (orphansOf active tests).toArray
  duplicates := (tests.flatMap (duplicatesOf active)).toArray
  warnings := (tests.flatMap (testWarnings taxonomy)).toArray

/-! ## The table of groups -/

/-- Adding to a table is adding to the set of its groups, and to the list of one of them.  A group
that the table does not have counts as one without buckets. -/
theorem add_map (group bucket : String) (f : String → List String) :
    ∀ names : List String, names.Pairwise (· < ·) → (group ∉ names → f group = []) →
      GroupTable.add group bucket (names.map fun n => (n, f n)) =
        (NameSet.insertInto group names).map fun n =>
          (n, if n = group then f n ++ [bucket] else f n) := by
  intro names
  induction names with
  | nil =>
      intro _ habsent
      simp [GroupTable.add, NameSet.insertInto, habsent]
  | cons y ys ih =>
      intro hsorted habsent
      obtain ⟨hy, hys⟩ := List.pairwise_cons.mp hsorted
      -- The names after the place of `group` keep their lists.
      have hkeep : ∀ zs : List String, (∀ z ∈ zs, z ≠ group) →
          zs.map (fun n => (n, if n = group then f n ++ [bucket] else f n)) =
            zs.map fun n => (n, f n) := by
        intro zs hzs
        refine List.map_congr_left fun z hz => ?_
        rw [if_neg (hzs z hz)]
      simp only [List.map_cons, GroupTable.add, NameSet.insertInto]
      by_cases hlt : group < y
      · have hnot : ∀ z ∈ y :: ys, z ≠ group := by
          intro z hz heq
          subst heq
          rcases List.mem_cons.mp hz with rfl | hz
          · exact String.lt_irrefl _ hlt
          · exact String.lt_irrefl _ (String.lt_trans hlt (hy _ hz))
        have hf : f group = [] := habsent fun hmem => hnot group hmem rfl
        rw [if_pos hlt, if_pos hlt, List.map_cons, hkeep _ hnot]
        simp [hf]
      · rw [if_neg hlt, if_neg hlt]
        by_cases heq : group = y
        · subst heq
          have hnot : ∀ z ∈ ys, z ≠ group := fun z hz hzg =>
            String.lt_irrefl _ (hzg ▸ hy z hz)
          rw [if_pos rfl, if_pos rfl, List.map_cons, hkeep _ hnot, if_pos rfl]
        · rw [if_neg heq, if_neg heq, List.map_cons, if_neg (Ne.symm heq)]
          rw [ih hys fun hmem => habsent (by simp [heq, hmem])]

/-- A group that no bucket belongs to has no buckets. -/
theorem namesInGroup_eq_nil {buckets : List Bucket} {group : String}
    (h : group ∉ (groupsOf buckets).names) : namesInGroup buckets group = [] := by
  have hnone : ∀ b ∈ buckets, b.exclusiveGroup ≠ some group := by
    intro b hb heq
    have hmem : (groupsOf buckets).contains group = true := by
      rw [groupsOf, NameSet.contains_ofList, List.contains_iff_mem]
      exact List.mem_filterMap.mpr ⟨b, hb, heq⟩
    exact h (by simpa [NameSet.contains] using hmem)
  simp only [namesInGroup, List.map_eq_nil_iff, List.filter_eq_nil_iff]
  intro b hb
  simpa using hnone b hb

/-- The table after some buckets lists, group by group, the buckets that belong to it. -/
theorem groups_foldl_add (buckets : List Bucket) :
    (buckets.foldl Match.add ⟨false, []⟩).groups =
      (groupsOf buckets).names.map fun g => (g, namesInGroup buckets g) := by
  induction buckets using List.reverseRecOn with
  | nil => rfl
  | append_singleton buckets b ih =>
      rw [List.foldl_append, List.foldl_cons, List.foldl_nil, Match.add, ih]
      cases hg : b.exclusiveGroup with
      | none =>
          have hgroups : groupsOf (buckets ++ [b]) = groupsOf buckets := by
            simp [groupsOf, hg]
          simp [hgroups, namesInGroup, hg]
      | some group =>
          have hgroups : groupsOf (buckets ++ [b]) = (groupsOf buckets).insert group := by
            simp [groupsOf, hg, NameSet.ofList_concat]
          show GroupTable.add group b.name _ = _
          rw [add_map group b.name (namesInGroup buckets) _ (groupsOf buckets).sorted
            namesInGroup_eq_nil, hgroups]
          refine List.map_congr_left fun n _ => ?_
          by_cases hn : n = group
          · simp [namesInGroup, hg, hn]
          · simp [namesInGroup, hg, hn, Ne.symm hn]

theorem found_foldl_add (buckets : List Bucket) :
    (buckets.foldl Match.add ⟨false, []⟩).found = !buckets.isEmpty := by
  induction buckets using List.reverseRecOn with
  | nil => rfl
  | append_singleton buckets b ih => simp [Match.add]

/-- What is found out about a test: the duplicates are those of its groups. -/
theorem duplicates_groups (active : List Bucket) (test : TestCase) :
    GroupTable.duplicates test.name
        (((active.filter (·.selects test)).foldl Match.add ⟨false, []⟩).groups) =
      duplicatesOf active test := by
  rw [groups_foldl_add, GroupTable.duplicates, List.filterMap_map, duplicatesOf]
  rfl

/-! ## One test -/

/-- Offering a test to buckets adds it to the intakes of those that select it. -/
theorem offer_map (test : TestCase) (f : Bucket → Intake) (buckets : List Bucket) (m : Match) :
    offer test m buckets (buckets.map f) =
      (buckets.map fun b =>
        if b.selects test then ⟨(f b).bucket, (f b).tests.push test.name⟩ else f b,
       (buckets.filter (·.selects test)).foldl Match.add m) := by
  induction buckets generalizing m with
  | nil => rfl
  | cons b buckets ih =>
      simp only [List.map_cons, offer]
      by_cases hb : b.selects test
      · simp [hb, ih]
      · simp [hb, ih]

/-- A survey that adds up to its tests does so after one more. -/
theorem Survey.visit_of (taxonomy : List String) (active : List Bucket) (tests : List TestCase)
    (test : TestCase) :
    (Survey.of taxonomy active tests).visit taxonomy active test =
      Survey.of taxonomy active (tests ++ [test]) := by
  have hintakes : (active.map fun b =>
      if b.selects test then
        (⟨b.name, ((b.selection tests).tests.toArray).push test.name⟩ : Intake)
      else ⟨b.name, (b.selection tests).tests.toArray⟩) =
      active.map fun b => ⟨b.name, (b.selection (tests ++ [test])).tests.toArray⟩ := by
    refine List.map_congr_left fun b _ => ?_
    by_cases hb : b.selects test <;> simp [Bucket.selection, hb]
  have horphans : (if (!(active.filter (·.selects test)).isEmpty) = true then
        (orphansOf active tests).toArray
      else (orphansOf active tests).toArray.push test.name) =
      (orphansOf active (tests ++ [test])).toArray := by
    by_cases hany : active.any (·.selects test)
    · have hne : (active.filter (·.selects test)).isEmpty = false := by
        simpa [List.isEmpty_eq_false_iff, List.filter_eq_nil_iff] using hany
      simp [orphansOf, hany, hne]
    · have hnil : (active.filter (·.selects test)).isEmpty = true := by
        simpa [List.isEmpty_iff, List.filter_eq_nil_iff] using hany
      simp [orphansOf, hany, hnil]
  rw [Survey.visit, Survey.of]
  dsimp only
  rw [offer_map, found_foldl_add, duplicates_groups]
  simp only [Survey.of, hintakes, horphans]
  simp

/-! ## All tests -/

/-- What a survey adds up to. -/
theorem foldl_visit (taxonomy : List String) (active : List Bucket) (tests : List TestCase) :
    tests.foldl (Survey.visit taxonomy active) (.start active) =
      Survey.of taxonomy active tests := by
  induction tests using List.reverseRecOn with
  | nil => simp [Survey.start, Survey.of, Bucket.selection, orphansOf]
  | append_singleton tests test ih =>
      rw [List.foldl_append, List.foldl_cons, List.foldl_nil, ih, Survey.visit_of]

/-- The report of a partition, list by list. -/
theorem verifyPartition_eq (taxonomy : List String) (matrix : Matrix) (corpus : Corpus)
    (level : TriggerLevel) :
    verifyPartition taxonomy matrix corpus level =
      { level
        applicable := (corpus.applicable level).length
        selections := (matrix.active level).map (·.selection (corpus.applicable level))
        orphans := orphansOf (matrix.active level) (corpus.applicable level)
        duplicates := (corpus.applicable level).flatMap (duplicatesOf (matrix.active level))
        emptyBuckets := (((matrix.active level).map
          (·.selection (corpus.applicable level))).filter (·.tests.isEmpty)).map (·.bucket)
        warnings := (corpus.applicable level).flatMap (testWarnings taxonomy) ++
          (matrix.active level).flatMap (selectorWarnings taxonomy) } := by
  have hselections : ((Survey.of taxonomy (matrix.active level)
      (corpus.applicable level)).intakes.map fun i => (⟨i.bucket, i.tests.toList⟩ : Selection)) =
      (matrix.active level).map (·.selection (corpus.applicable level)) := by
    simp [Survey.of, Bucket.selection]
  rw [verifyPartition, foldl_visit, hselections]
  simp [Survey.of]

end CiPlan
