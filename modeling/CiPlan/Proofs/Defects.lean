import CiPlan.Proofs.Partition
import CiPlan.Text.Order

/-!
# The defects of a partition

A report lists every defect of a partition and nothing else.  `PartitionReport.Lists` says what each of
its lists has: the tests of each bucket, the tests without a bucket, the tests that several buckets of a
group share, the buckets without a test, and the tags that nobody knows, each in its order.

Buckets and tests are looked up by name in a report.  The names of buckets are distinct, since a matrix
is checked, so a lookup finds what was meant (`mem_bucketsFor_iff`).  A report depends on the active
buckets and the applicable tests only; `DiffersIn` is the relation between lists in which other elements
were added and removed.

Main result: `verifyPartition_isExact`.
-/

namespace CiPlan

/-! ## Names of buckets -/

/-- Among elements with keys of their own a key finds the element that has it. -/
theorem find?_key_eq_some_iff {α κ : Type} [BEq κ] [LawfulBEq κ] {key : α → κ} {xs : List α}
    (hnodup : (xs.map key).Nodup) (k : κ) (x : α) :
    xs.find? (key · == k) = some x ↔ x ∈ xs ∧ key x = k := by
  constructor
  · intro h
    exact ⟨List.mem_of_find?_eq_some h, by simpa using List.find?_some h⟩
  · rintro ⟨hx, hkey⟩
    cases hfind : xs.find? (key · == k) with
    | none =>
        rw [List.find?_eq_none] at hfind
        exact absurd (beq_iff_eq.mpr hkey) (hfind x hx)
    | some found =>
        have hfound : found ∈ xs := List.mem_of_find?_eq_some hfind
        have hfoundKey : key found = k := by simpa using List.find?_some hfind
        rw [List.inj_on_of_nodup_map hnodup hfound hx (hfoundKey.trans hkey.symm)]

namespace Matrix

theorem nodup_of_checkFrom (buckets : List Bucket) :
    ∀ seen, checkFrom seen buckets = .ok () →
      (∀ b ∈ buckets, b.name ∉ seen) ∧ (buckets.map (·.name)).Nodup := by
  induction buckets with
  | nil => simp
  | cons b buckets ih =>
      intro seen h
      unfold checkFrom at h
      split at h
      · cases h
      · split at h
        · cases h
        · next hseen =>
          obtain ⟨hrest, hnodup⟩ := ih _ h
          have hb : b.name ∉ seen := by simpa using hseen
          refine ⟨?_, ?_⟩
          · intro u hu
            rcases List.mem_cons.mp hu with rfl | hu
            · exact hb
            · exact fun hmem => hrest u hu (List.mem_cons_of_mem _ hmem)
          · rw [List.map_cons, List.nodup_cons]
            refine ⟨fun hmem => ?_, hnodup⟩
            obtain ⟨u, hu, heq⟩ := List.mem_map.mp hmem
            exact hrest u hu (heq ▸ List.mem_cons_self)

/-- The buckets of a matrix have names of their own. -/
theorem nodup_names (m : Matrix) : (m.buckets.map (·.name)).Nodup := by
  have hchecked := m.checked
  rw [check] at hchecked
  split at hchecked
  · cases hchecked
  · exact (nodup_of_checkFrom m.buckets [] hchecked).2

/-- A name finds the bucket that has it. -/
theorem get?_eq_some_iff (m : Matrix) (name : String) (b : Bucket) :
    m.get? name = some b ↔ b ∈ m.buckets ∧ b.name = name :=
  find?_key_eq_some_iff m.nodup_names name b

/-- At a level a name stands for one bucket. -/
theorem eq_of_name_eq (m : Matrix) {level : TriggerLevel} {a b : Bucket} (ha : a ∈ m.active level)
    (hb : b ∈ m.active level) (h : a.name = b.name) : a = b :=
  List.inj_on_of_nodup_map m.nodup_names (List.mem_of_mem_filter ha) (List.mem_of_mem_filter hb) h

end Matrix

/-! ## Lists with other elements -/

/-- One list is the other, except that elements of some kind were added and removed. -/
inductive DiffersIn {α : Type} (kind : α → Prop) : List α → List α → Prop
  | nil : DiffersIn kind [] []
  | keep {xs ys} (x : α) (h : DiffersIn kind xs ys) : DiffersIn kind (x :: xs) (x :: ys)
  | add {xs ys} (x : α) (hx : kind x) (h : DiffersIn kind xs ys) : DiffersIn kind xs (x :: ys)
  | remove {xs ys} (x : α) (hx : kind x) (h : DiffersIn kind xs ys) : DiffersIn kind (x :: xs) ys

/-- What does not let the kind through does not see the difference. -/
theorem DiffersIn.filter_eq {α : Type} {kind : α → Prop} {keeps : α → Bool}
    (hkind : ∀ x, kind x → keeps x = false) {xs ys : List α} (h : DiffersIn kind xs ys) :
    ys.filter keeps = xs.filter keeps := by
  induction h with
  | nil => rfl
  | keep x _ ih => rw [List.filter_cons, List.filter_cons, ih]
  | add x hx _ ih => rw [List.filter_cons_of_neg (by simp [hkind x hx]), ih]
  | remove x hx _ ih => rw [List.filter_cons_of_neg (by simp [hkind x hx]), ih]

/-! ## The lists of a report -/

/-- The groups in which two or more buckets select a test. -/
def crowdedGroups (active : List Bucket) (t : TestCase) : List String :=
  (groupsOf (active.filter (·.selects t))).names.filter fun g => 2 ≤ (inGroup active t g).length

section Groups

variable (active : List Bucket) (t : TestCase)

theorem mem_crowdedGroups_iff (g : String) :
    g ∈ crowdedGroups active t ↔ 2 ≤ (inGroup active t g).length := by
  rw [crowdedGroups, List.mem_filter, decide_eq_true_eq]
  refine and_iff_right_of_imp fun hcrowd => ?_
  by_contra hgroup
  have hnil := namesInGroup_eq_nil hgroup
  rw [namesInGroup, List.map_eq_nil_iff] at hnil
  rw [inGroup, hnil] at hcrowd
  cases hcrowd

theorem sorted_crowdedGroups :
    (crowdedGroups active t).Pairwise fun g h => Text.bytes g < Text.bytes h := by
  refine List.Pairwise.imp (fun h => (Text.lt_iff_bytes_lt _ _).mp h) ?_
  exact (NameSet.sorted _).filter _

theorem duplicatesOf_eq : duplicatesOf active t =
    (crowdedGroups active t).map fun g => ⟨t.name, g, (inGroup active t g).map (·.name)⟩ := by
  have hnames : ∀ g, namesInGroup (active.filter (·.selects t)) g =
      (inGroup active t g).map (·.name) := fun g => rfl
  rw [duplicatesOf, crowdedGroups, ← List.filterMap_eq_map, List.filterMap_filter]
  refine List.filterMap_congr fun g _ => ?_
  rw [hnames, List.length_map]
  by_cases h : 2 ≤ (inGroup active t g).length
  · simp [h, Nat.lt_of_succ_le h]
  · simp [h, show ¬ 1 < (inGroup active t g).length from h]

end Groups

theorem isEmpty_selection (b : Bucket) (tests : List TestCase) :
    (b.selection tests).tests.isEmpty = tests.all fun t => !b.selects t := by
  rw [Bool.eq_iff_iff, List.isEmpty_iff, Bucket.selection, List.map_eq_nil_iff,
    List.filter_eq_nil_iff, List.all_eq_true]
  simp

/-- The lists of a report, for the active buckets and the applicable tests. -/
structure PartitionReport.Lists (r : PartitionReport) (taxonomy : List String) (active : List Bucket)
    (tests : List TestCase) : Prop where
  applicable : r.applicable = tests.length
  /-- Each bucket has the tests that it selects. -/
  selections : r.selections = active.map fun b => ⟨b.name, (tests.filter b.selects).map (·.name)⟩
  orphans : r.orphans =
    (tests.filter fun t => active.all fun b => !b.selects t).map (·.name)
  /-- The tests come in their order, and the groups of a test in the order of their bytes. -/
  duplicates : ∃ crowded : TestCase → List String,
    (∀ t, (crowded t).Pairwise fun g h => Text.bytes g < Text.bytes h) ∧
      (∀ t g, g ∈ crowded t ↔ 2 ≤ (inGroup active t g).length) ∧
        r.duplicates = tests.flatMap fun t =>
          (crowded t).map fun g => ⟨t.name, g, (inGroup active t g).map (·.name)⟩
  emptyBuckets : r.emptyBuckets =
    (active.filter fun b => tests.all fun t => !b.selects t).map (·.name)
  warnings : r.warnings =
    (tests.flatMap fun t =>
      (t.tags.names.filter (!taxonomy.contains ·)).map (.unknownTestTag t.name)) ++
    active.flatMap fun b =>
      (b.marker.terms.names.filter (!taxonomy.contains ·)).map (.unknownSelectorTag b.name)

section Report

variable (taxonomy : List String) (matrix : Matrix) (corpus : Corpus) (level : TriggerLevel)

theorem lists_verifyPartition : (verifyPartition taxonomy matrix corpus level).Lists taxonomy
    (matrix.active level) (corpus.applicable level) := by
  rw [verifyPartition_eq]
  refine ⟨rfl, rfl, ?orphans, ?duplicates, ?emptyBuckets, rfl⟩
  case orphans =>
    show orphansOf _ _ = _
    simp only [orphansOf, List.not_any_eq_all_not]
  case duplicates =>
    refine ⟨crowdedGroups (matrix.active level), sorted_crowdedGroups _, mem_crowdedGroups_iff _, ?_⟩
    exact List.flatMap_congr fun t _ => duplicatesOf_eq _ t
  case emptyBuckets =>
    show ((List.map _ _).filter _).map _ = _
    rw [List.filter_map, List.map_map]
    exact congrArg (List.map Bucket.name) (List.filter_congr fun b _ => isEmpty_selection b _)

/-! ## Lookups by name -/

/-- A bucket with one of these names selects a test with the other. -/
def SelectsByName (b t : String) : Prop :=
  ∃ bucket, matrix.get? b = some bucket ∧ bucket.level = level ∧
    ∃ test ∈ corpus.applicable level, test.name = t ∧ bucket.selects test = true

variable {matrix corpus level}

theorem mem_active_iff (b : Bucket) : b ∈ matrix.active level ↔
    matrix.get? b.name = some b ∧ b.level = level := by
  rw [Matrix.active, List.mem_filter, decide_eq_true_eq, Matrix.get?_eq_some_iff]
  simp

theorem mem_selection_iff (b : Bucket) (tests : List TestCase) (t : String) :
    t ∈ (b.selection tests).tests ↔ ∃ test ∈ tests, test.name = t ∧ b.selects test = true := by
  simp only [Bucket.selection, List.mem_map, List.mem_filter]
  constructor
  · rintro ⟨test, ⟨htest, hselects⟩, hname⟩
    exact ⟨test, htest, hname, hselects⟩
  · rintro ⟨test, htest, hname, hselects⟩
    exact ⟨test, ⟨htest, hselects⟩, hname⟩

/-- The buckets of a test are those that select it. -/
theorem mem_bucketsFor_iff (b t : String) :
    b ∈ (verifyPartition taxonomy matrix corpus level).bucketsFor t ↔
      SelectsByName matrix corpus level b t := by
  rw [verifyPartition_eq, PartitionReport.bucketsFor]
  simp only [List.mem_map, List.mem_filter, List.contains_iff_mem]
  constructor
  · rintro ⟨_, ⟨⟨bucket, hbucket, rfl⟩, ht⟩, rfl⟩
    obtain ⟨hget, hlevel⟩ := (mem_active_iff bucket).mp hbucket
    exact ⟨bucket, hget, hlevel, (mem_selection_iff bucket _ t).mp ht⟩
  · rintro ⟨bucket, hget, hlevel, htest⟩
    have hname := ((matrix.get?_eq_some_iff b bucket).mp hget).2
    have hactive := (mem_active_iff bucket).mpr ⟨hname ▸ hget, hlevel⟩
    exact ⟨bucket.selection _, ⟨⟨bucket, hactive, rfl⟩, (mem_selection_iff bucket _ t).mpr htest⟩,
      hname⟩

/-- The selection of an active bucket is found by its name. -/
theorem selection?_eq_some_iff (name : String) (s : Selection) :
    (verifyPartition taxonomy matrix corpus level).selection? name = some s ↔
      ∃ b, matrix.get? name = some b ∧ b.level = level ∧
        s = b.selection (corpus.applicable level) := by
  have hnodup : (((matrix.active level).map (·.selection (corpus.applicable level))).map
      (·.bucket)).Nodup := by
    rw [List.map_map]
    exact matrix.nodup_names.sublist (List.filter_sublist.map _)
  rw [verifyPartition_eq, PartitionReport.selection?, find?_key_eq_some_iff hnodup, List.mem_map]
  constructor
  · rintro ⟨⟨b, hb, rfl⟩, rfl⟩
    obtain ⟨hget, hlevel⟩ := (mem_active_iff b).mp hb
    exact ⟨b, hget, hlevel, rfl⟩
  · rintro ⟨b, hget, hlevel, rfl⟩
    have hname := ((matrix.get?_eq_some_iff name b).mp hget).2
    exact ⟨⟨b, (mem_active_iff b).mpr ⟨hname ▸ hget, hlevel⟩, rfl⟩, hname⟩

/-- The selection of a bucket has the tests that it selects. -/
theorem exists_selection_iff (b t : String) :
    (∃ s, (verifyPartition taxonomy matrix corpus level).selection? b = some s ∧ t ∈ s.tests) ↔
      SelectsByName matrix corpus level b t := by
  simp only [selection?_eq_some_iff]
  constructor
  · rintro ⟨_, ⟨bucket, hget, hlevel, rfl⟩, ht⟩
    exact ⟨bucket, hget, hlevel, (mem_selection_iff bucket _ t).mp ht⟩
  · rintro ⟨bucket, hget, hlevel, htest⟩
    exact ⟨_, ⟨bucket, hget, hlevel, rfl⟩, (mem_selection_iff bucket _ t).mpr htest⟩

/-- The report does not depend on buckets of the other level or on tests that are not applicable. -/
theorem verifyPartition_eq_of_differsIn {matrix' : Matrix} {corpus' : Corpus}
    (hbuckets : DiffersIn (·.level ≠ level) matrix.buckets matrix'.buckets)
    (htests : DiffersIn (·.appliesTo level = false) corpus.tests corpus'.tests) :
    verifyPartition taxonomy matrix' corpus' level =
      verifyPartition taxonomy matrix corpus level := by
  have hactive : matrix'.active level = matrix.active level :=
    hbuckets.filter_eq fun b hb => by simpa using hb
  have happlicable : corpus'.applicable level = corpus.applicable level :=
    htests.filter_eq fun t ht => ht
  rw [verifyPartition_eq, verifyPartition_eq, hactive, happlicable]

/-- A report is exact: it has every defect of the partition and nothing else. -/
structure PartitionReport.IsExact (r : PartitionReport) (taxonomy : List String) (matrix : Matrix)
    (corpus : Corpus) (level : TriggerLevel) : Prop where
  atLevel : r.level = level
  lists : r.Lists taxonomy (matrix.active level) (corpus.applicable level)
  bucketsFor : ∀ b t, b ∈ r.bucketsFor t ↔ SelectsByName matrix corpus level b t
  selection : ∀ b t, (∃ s, r.selection? b = some s ∧ t ∈ s.tests) ↔
    SelectsByName matrix corpus level b t
  /-- Other buckets and tests make no difference. -/
  stable : ∀ matrix' corpus', DiffersIn (·.level ≠ level) matrix.buckets matrix'.buckets →
    DiffersIn (·.appliesTo level = false) corpus.tests corpus'.tests →
      verifyPartition taxonomy matrix' corpus' level = r

variable (matrix corpus level)

/-- The report of a partition is exact. -/
theorem verifyPartition_isExact :
    (verifyPartition taxonomy matrix corpus level).IsExact taxonomy matrix corpus level where
  atLevel := rfl
  lists := lists_verifyPartition taxonomy matrix corpus level
  bucketsFor := mem_bucketsFor_iff taxonomy
  selection := exists_selection_iff taxonomy
  stable _ _ hbuckets htests := verifyPartition_eq_of_differsIn taxonomy hbuckets htests

end Report

end CiPlan
