import CiPlan.Proofs.Canonical
import CiPlan.Proofs.Defects

/-!
# What a marker depends on

An expression is decided by the tags that are among its terms (`Expr.matchesTags_congr`).  A marker
whose terms are all in the taxonomy, which is what the absence of warnings about its bucket means
(`noWarnings_iff`), therefore takes no notice of the tags that are outside it.  When this holds of all
active buckets, tests can be stripped of such tags and a partition stays what it was.

Main result: `markers_dependOnTaxonomy`.
-/

namespace CiPlan

/-! ## Sets that agree -/

namespace NameSet

/-- Two sets have the same members among some names. -/
def AgreeOn (names : List String) (s t : NameSet) : Prop :=
  ∀ name ∈ names, s.contains name = t.contains name

/-- The members of a set that are among some names. -/
def within (s : NameSet) (names : List String) : NameSet :=
  ⟨s.names.filter names.contains, s.sorted.filter _⟩

theorem contains_iff_mem (s : NameSet) (name : String) : s.contains name = true ↔ name ∈ s.names :=
  List.contains_iff_mem

theorem contains_within (s : NameSet) (names : List String) (name : String) :
    (s.within names).contains name = (s.contains name && names.contains name) := by
  rw [Bool.eq_iff_iff, Bool.and_eq_true, contains_iff_mem, contains_iff_mem]
  exact List.mem_filter

theorem agreeOn_within (s : NameSet) (names : List String) : AgreeOn names (s.within names) s := by
  intro name hname
  rw [contains_within, List.contains_iff_mem.mpr hname, Bool.and_true]

/-- A name that is added makes no difference among other names. -/
theorem agreeOn_insert {names : List String} {added : String} (h : added ∉ names) (s : NameSet) :
    AgreeOn names (s.insert added) s := by
  intro name hname
  have hne : name ≠ added := fun heq => h (heq ▸ hname)
  rw [contains_insert, beq_false_of_ne hne, Bool.false_or]

theorem AgreeOn.mono {names names' : List String} {s t : NameSet} (h : AgreeOn names s t)
    (hsub : names' ⊆ names) : AgreeOn names' s t :=
  fun name hname => h name (hsub hname)

end NameSet

open NameSet (AgreeOn)

/-! ## Expressions -/

namespace Expr

/-- An expression is decided by its terms. -/
theorem eval_congr {holds holds' : String → Bool} (e : Expr)
    (h : ∀ name, e.terms.contains name = true → holds name = holds' name) :
    e.eval holds = e.eval holds' := by
  induction e with
  | all => rfl
  | term name => exact h name (by simp [terms, collect])
  | not e ih => exact congrArg (!·) (ih h)
  | and l r ihl ihr =>
      have hl : l.eval holds = l.eval holds' := ihl fun name hname => h name (by simp [hname])
      have hr : r.eval holds = r.eval holds' := ihr fun name hname => h name (by simp [hname])
      rw [eval, eval, hl, hr]
  | or l r ihl ihr =>
      have hl : l.eval holds = l.eval holds' := ihl fun name hname => h name (by simp [hname])
      have hr : r.eval holds = r.eval holds' := ihr fun name hname => h name (by simp [hname])
      rw [eval, eval, hl, hr]

end Expr

/-- A selector is decided by the tags that are among its terms. -/
theorem Selector.matchesTags_congr (s : Selector) {tags tags' : NameSet}
    (h : AgreeOn s.terms.names tags tags') : s.matchesTags tags = s.matchesTags tags' :=
  s.expr.eval_congr fun name hname => h name ((s.terms.contains_iff_mem name).mp hname)

/-! ## Buckets -/

/-- A bucket whose marker has all its terms in a vocabulary tells no tests apart that agree on it. -/
theorem Bucket.selects_congr {b : Bucket} {vocabulary : List String}
    (hterms : b.marker.terms.names ⊆ vocabulary) {t u : TestCase} (hname : t.name = u.name)
    (htags : AgreeOn vocabulary t.tags u.tags) : b.selects t = b.selects u := by
  have hmarker : b.marker.matchesTags t.tags = b.marker.matchesTags u.tags :=
    b.marker.matchesTags_congr (htags.mono hterms)
  rw [selects, selects, hmarker, hname]

/-- The test without the tags that are not in the taxonomy. -/
def TestCase.within (t : TestCase) (taxonomy : List String) : TestCase :=
  { t with tags := t.tags.within taxonomy }

/-- The corpus without the tags that are not in the taxonomy. -/
def Corpus.within (c : Corpus) (taxonomy : List String) : Corpus :=
  ⟨c.tests.map (·.within taxonomy)⟩

section Report

variable {taxonomy : List String} {matrix : Matrix} {corpus : Corpus} {level : TriggerLevel}

theorem mem_selectorWarnings_iff (b : Bucket) (w : LintWarning) :
    w ∈ selectorWarnings taxonomy b ↔
      ∃ tag ∈ b.marker.terms.names, tag ∉ taxonomy ∧ .unknownSelectorTag b.name tag = w := by
  rw [selectorWarnings, List.mem_map]
  simp only [List.mem_filter, Bool.not_eq_true', ← Bool.not_eq_true, List.contains_iff_mem,
    and_assoc]

theorem unknownSelectorTag_notMem_testWarnings (t : TestCase) (name tag : String) :
    .unknownSelectorTag name tag ∉ testWarnings taxonomy t := by
  rw [testWarnings, List.mem_map]
  rintro ⟨_, _, h⟩
  cases h

/-- The warnings about markers are about the active buckets. -/
theorem unknownSelectorTag_mem_warnings_iff (name tag : String) :
    .unknownSelectorTag name tag ∈ (verifyPartition taxonomy matrix corpus level).warnings ↔
      ∃ b ∈ matrix.active level, b.name = name ∧ tag ∈ b.marker.terms.names ∧ tag ∉ taxonomy := by
  have htests : .unknownSelectorTag name tag ∉
      (corpus.applicable level).flatMap (testWarnings taxonomy) := by
    intro h
    obtain ⟨t, _, ht⟩ := List.mem_flatMap.mp h
    exact unknownSelectorTag_notMem_testWarnings t name tag ht
  rw [verifyPartition_eq, List.mem_append, or_iff_right htests, List.mem_flatMap]
  refine exists_congr fun b => and_congr_right fun _ => ?_
  rw [mem_selectorWarnings_iff]
  constructor
  · rintro ⟨tag', htag, hunknown, h⟩
    cases h
    exact ⟨rfl, htag, hunknown⟩
  · rintro ⟨rfl, htag, hunknown⟩
    exact ⟨tag, htag, hunknown, rfl⟩

/-- There is no warning about the marker of an active bucket when the taxonomy has its terms. -/
theorem noWarnings_iff {b : Bucket} (hb : b ∈ matrix.active level) :
    (∀ tag, .unknownSelectorTag b.name tag ∉
        (verifyPartition taxonomy matrix corpus level).warnings) ↔
      b.marker.terms.names ⊆ taxonomy := by
  simp only [unknownSelectorTag_mem_warnings_iff]
  constructor
  · intro hnone tag htag
    by_contra hunknown
    exact hnone tag ⟨b, hb, rfl, htag, hunknown⟩
  · intro hterms tag hwarning
    obtain ⟨other, hother, hname, htag, hunknown⟩ := hwarning
    -- No other bucket has the name, so the warning would be about this one.
    have hsame : other = b := matrix.eq_of_name_eq hother hb hname
    exact hunknown (hterms (hsame ▸ htag))

/-- A test that has nothing outside the taxonomy gets no warning. -/
theorem testWarnings_within (t : TestCase) : testWarnings taxonomy (t.within taxonomy) = [] := by
  show List.map _ ((t.tags.names.filter taxonomy.contains).filter (!taxonomy.contains ·)) = []
  rw [List.filter_filter, List.map_eq_nil_iff, List.filter_eq_nil_iff]
  intro tag _
  simp

theorem applicable_within (c : Corpus) (level : TriggerLevel) :
    (c.within taxonomy).applicable level =
      (c.applicable level).map (·.within taxonomy) := by
  rw [Corpus.applicable, Corpus.applicable, Corpus.within, List.filter_map]
  rfl

/-! ## Partitions -/

variable {active : List Bucket}

theorem selection_within {b : Bucket} (h : ∀ t, b.selects (t.within taxonomy) = b.selects t)
    (tests : List TestCase) :
    b.selection (tests.map (·.within taxonomy)) = b.selection tests := by
  have hfilter : b.selects ∘ (·.within taxonomy) = b.selects := funext h
  rw [Bucket.selection, Bucket.selection, List.filter_map, hfilter, List.map_map]
  rfl

theorem orphansOf_within (h : ∀ b ∈ active, ∀ t, b.selects (t.within taxonomy) = b.selects t)
    (tests : List TestCase) :
    orphansOf active (tests.map (·.within taxonomy)) = orphansOf active tests := by
  have hfilter : (fun t => !active.any (·.selects t)) ∘ (·.within taxonomy) =
      fun t => !active.any (·.selects t) := by
    funext t
    apply congrArg (!·)
    rw [Bool.eq_iff_iff, List.any_eq_true, List.any_eq_true]
    exact exists_congr fun b => and_congr_right fun hb => by rw [h b hb t]
  rw [orphansOf, orphansOf, List.filter_map, hfilter, List.map_map]
  rfl

theorem duplicatesOf_within (h : ∀ b ∈ active, ∀ t, b.selects (t.within taxonomy) = b.selects t)
    (t : TestCase) : duplicatesOf active (t.within taxonomy) = duplicatesOf active t := by
  have hfilter : active.filter (·.selects (t.within taxonomy)) = active.filter (·.selects t) :=
    List.filter_congr fun b hb => h b hb t
  rw [duplicatesOf, duplicatesOf, hfilter]
  rfl

/-- Without warnings about markers a partition stays what it was when all tests are stripped of the
tags that are not in the taxonomy; no warning is left. -/
theorem verifyPartition_within
    (hterms : ∀ b ∈ matrix.active level, b.marker.terms.names ⊆ taxonomy) :
    verifyPartition taxonomy matrix (corpus.within taxonomy) level =
      { verifyPartition taxonomy matrix corpus level with warnings := [] } := by
  have hselects : ∀ b ∈ matrix.active level, ∀ t, b.selects (t.within taxonomy) = b.selects t :=
    fun b hb t => Bucket.selects_congr (hterms b hb) rfl (t.tags.agreeOn_within taxonomy)
  have hselections : (matrix.active level).map
      (·.selection ((corpus.applicable level).map (·.within taxonomy))) =
        (matrix.active level).map (·.selection (corpus.applicable level)) :=
    List.map_congr_left fun b hb => selection_within (hselects b hb) _
  have hduplicates : ((corpus.applicable level).map (·.within taxonomy)).flatMap
      (duplicatesOf (matrix.active level)) =
        (corpus.applicable level).flatMap (duplicatesOf (matrix.active level)) := by
    rw [List.flatMap_map]
    exact List.flatMap_congr fun t _ => duplicatesOf_within hselects t
  have htests : ((corpus.applicable level).map (·.within taxonomy)).flatMap
      (testWarnings taxonomy) = [] := by
    rw [List.flatMap_map, List.flatMap_eq_nil_iff]
    exact fun t _ => testWarnings_within t
  have hmarkers : (matrix.active level).flatMap (selectorWarnings taxonomy) = [] := by
    rw [List.flatMap_eq_nil_iff]
    intro b hb
    rw [List.eq_nil_iff_forall_not_mem]
    intro w hw
    obtain ⟨tag, htag, hunknown, -⟩ := (mem_selectorWarnings_iff b w).mp hw
    exact hunknown (hterms b hb htag)
  rw [verifyPartition_eq, verifyPartition_eq, applicable_within, hselections,
    orphansOf_within hselects, hduplicates, htests, hmarkers, List.length_map]
  rfl

end Report

/-- A marker depends on its terms, so a bucket without warnings depends on the taxonomy.

Selectors cannot tell sets of tags apart that agree on their terms.  An active bucket about which there
is no warning cannot tell tests of one name apart whose tags agree on the taxonomy, be there other tags
that were added or removed.  When there is no such warning at all, the report stays the same, but for
the warnings about tests, if every test loses its tags that are not in the taxonomy. -/
theorem markers_dependOnTaxonomy (taxonomy : List String) (matrix : Matrix) (corpus : Corpus)
    (level : TriggerLevel) :
    (∀ (s : Selector) (tags tags' : NameSet), AgreeOn s.terms.names tags tags' →
      s.matchesTags tags = s.matchesTags tags') ∧
    (∀ b ∈ matrix.active level,
      (∀ tag, .unknownSelectorTag b.name tag ∉
        (verifyPartition taxonomy matrix corpus level).warnings) →
      ∀ t u : TestCase, t.name = u.name → AgreeOn taxonomy t.tags u.tags →
        b.selects t = b.selects u) ∧
    ((∀ b ∈ matrix.active level, ∀ tag, .unknownSelectorTag b.name tag ∉
        (verifyPartition taxonomy matrix corpus level).warnings) →
      verifyPartition taxonomy matrix (corpus.within taxonomy) level =
        { verifyPartition taxonomy matrix corpus level with warnings := [] }) := by
  refine ⟨fun s tags tags' h => s.matchesTags_congr h, ?_, ?_⟩
  · intro b hb hnone t u hname htags
    exact Bucket.selects_congr ((noWarnings_iff hb).mp hnone) hname htags
  · intro hnone
    exact verifyPartition_within fun b hb => (noWarnings_iff hb).mp (hnone b hb)

/-- The second of the two tests, with a tag that is not in the taxonomy. -/
def flakyTest : TestCase :=
  ⟨"test_cluster", (NameSet.ofList ["clustertest"]).insert "flaky", []⟩

/-- The two tests, the second with a tag that is not in the taxonomy. -/
def flakyCorpus : Corpus := ⟨[⟨"test_config", .empty, []⟩, flakyTest]⟩

/-- The tag makes for a warning about the test, and for nothing else. -/
theorem markers_dependOnTaxonomy_flaky :
    (verifyPartition defaultTaxonomy twoBuckets flakyCorpus .release).warnings =
        [.unknownTestTag "test_cluster" "flaky"] ∧
      Matrix.plainCluster.matchesTags flakyTest.tags =
        Matrix.plainCluster.matchesTags (.ofList ["clustertest"]) ∧
      (∀ b ∈ twoBuckets.active .release, b.selects flakyTest =
        b.selects ⟨"test_cluster", .ofList ["clustertest"], []⟩) ∧
      verifyPartition defaultTaxonomy twoBuckets (flakyCorpus.within defaultTaxonomy) .release =
        { verifyPartition defaultTaxonomy twoBuckets flakyCorpus .release with warnings := [] } := by
  have hwarnings : (verifyPartition defaultTaxonomy twoBuckets flakyCorpus .release).warnings =
      [.unknownTestTag "test_cluster" "flaky"] := by decide +kernel
  have hnone : ∀ b ∈ twoBuckets.active .release, ∀ tag, .unknownSelectorTag b.name tag ∉
      (verifyPartition defaultTaxonomy twoBuckets flakyCorpus .release).warnings := by
    intro b _ tag
    rw [hwarnings]
    nofun
  obtain ⟨hselector, hbucket, hreport⟩ :=
    markers_dependOnTaxonomy defaultTaxonomy twoBuckets flakyCorpus .release
  refine ⟨hwarnings, hselector _ _ _ ?_, fun b hb => hbucket b hb (hnone b hb) _ _ rfl ?_,
    hreport hnone⟩
  · exact NameSet.agreeOn_insert (by decide +kernel) _
  · exact NameSet.agreeOn_insert (by decide +kernel) _

end CiPlan
