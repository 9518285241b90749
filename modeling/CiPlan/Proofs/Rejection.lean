import CiPlan.Plan.Load
import CiPlan.Proofs.Partition

/-!
# When a plan is rejected

A planner has checked that each of its buckets finds its profile, so nothing but the partition can keep
it from making a plan: there is a plan for a trigger just when the partition at the level of the trigger
has no defects (`Planner.plan_cases_isClean`).  The failure counts them.

Making a planner fails for other reasons.  Whatever is wrong with its files, it is not that a plan is
rejected (`failsWith_ofConfig`).
-/

namespace CiPlan

/-! ## Plans -/

/-- The failure over the defects of a partition. -/
def PartitionReport.rejection (r : PartitionReport) : PlannerError :=
  .partitionViolated r.level r.orphans.length r.duplicates.length r.emptyBuckets.length

namespace Planner

variable (p : Planner)

/-- Each bucket has its profile. -/
theorem exists_profileOf_eq_ok {b : Bucket} (hb : b ∈ p.matrix.buckets) :
    ∃ profile, p.profileOf b = .ok profile := by
  have hany := forM_eq_ok.mp p.checked b hb
  split at hany
  · next h =>
    cases hfind : Profile.find? p.profiles b.profile with
    | some profile => exact ⟨profile, by rw [profileOf, hfind]⟩
    | none =>
        rw [Profile.find?, List.find?_eq_none] at hfind
        obtain ⟨profile, hmem, hname⟩ := List.any_eq_true.mp h
        exact absurd hname (hfind profile hmem)
  · cases hany

/-- A planner makes a plan for a trigger unless the partition has defects. -/
theorem plan_cases_isClean (trigger : TriggerEvent) :
    let report := p.verify (Gate.ofTrigger trigger).level
    (report.isClean = true ∧ ∃ plan, p.plan trigger = .ok plan) ∨
      (report.isClean = false ∧ p.plan trigger = .error report.rejection) := by
  intro report
  cases hclean : report.isClean with
  | false =>
      refine .inr ⟨rfl, ?_⟩
      have hensure : report.ensureClean = .error report.rejection :=
        if_neg (by simp [hclean])
      show (report.ensureClean >>= _) = _
      rw [hensure]
      rfl
  | true =>
      refine .inl ⟨rfl, ?_⟩
      have hensure : report.ensureClean = .ok () := if_pos hclean
      have hbucket : ∀ x ∈ (p.matrix.active (Gate.ofTrigger trigger).level).zip report.selections,
          ∃ planned, (do return ⟨x.1, ← p.profileOf x.1, x.2.tests⟩) =
            (.ok planned : Except PlannerError PlannedBucket) := by
        intro x hx
        obtain ⟨profile, hprofile⟩ :=
          p.exists_profileOf_eq_ok (List.mem_of_mem_filter (List.of_mem_zip hx).1)
        exact ⟨⟨x.1, profile, x.2.tests⟩, by rw [hprofile]; rfl⟩
      obtain ⟨buckets, hbuckets⟩ := exists_mapM_eq_ok hbucket
      refine ⟨⟨trigger, buckets,
        buckets.foldl (fun targets b => Plan.addTarget targets b.profile) [], report.warnings⟩, ?_⟩
      exact bind_eq_ok.mpr ⟨(), hensure, bind_eq_ok.mpr ⟨buckets, hbuckets, rfl⟩⟩

end Planner

/-! ## Making a planner -/

/-- The partition of a plan has defects. -/
def PlannerError.IsRejection : PlannerError → Prop
  | .partitionViolated .. => True
  | _ => False

/-- The failure is none of a partition. -/
abbrev PlannerError.IsOther (e : PlannerError) : Prop := ¬ e.IsRejection

section Making

open PlannerError (IsOther)

theorem failsWith_selectorOf (bucket text : String) :
    FailsWith IsOther (Bucket.selectorOf bucket text) :=
  .mapError (fun _ => id) _

theorem failsWith_read (name : String) (level : TriggerLevel) (marker : String)
    (keyword : Option String) (profile : String) (timeoutSecs : Option UInt64)
    (exclusiveGroup : Option String) :
    FailsWith IsOther (Bucket.read name level marker keyword profile timeoutSecs exclusiveGroup) := by
  refine (failsWith_selectorOf name marker).bind fun marker _ => ?_
  cases keyword with
  | none => exact failsWith_ok _
  | some text =>
      exact ((failsWith_selectorOf name text).map some).bind fun keyword _ => failsWith_ok _

/-- The elements of a list are read one by one. -/
theorem Yaml.exists_of_mem_list? {α : Type} {read : Yaml → Option α} {v : Yaml} {xs : List α}
    (h : Yaml.list? read v = some xs) {x : α} (hx : x ∈ xs) : ∃ item, read item = some x := by
  unfold Yaml.list? at h
  split at h
  · next items =>
    induction items generalizing xs with
    | nil =>
        cases h
        cases hx
    | cons item items ih =>
        simp only [List.mapM_cons, Option.bind_eq_bind, Option.bind_eq_some_iff, Option.pure_def,
          Option.some.injEq] at h
        obtain ⟨y, hy, ys, hys, rfl⟩ := h
        rcases List.mem_cons.mp hx with rfl | hx
        · exact ⟨item, hy⟩
        · exact ih hx hys
  · cases h
    cases hx
  · cases h

/-- The selectors of a bucket that was taken from a file are yet to be read. -/
theorem failsWith_of_ofYaml? {v : Yaml} {b : Except PlannerError Bucket}
    (h : Bucket.ofYaml? v = some b) : FailsWith IsOther b := by
  simp only [Bucket.ofYaml?, Option.bind_eq_bind, Option.bind_eq_some_iff, Option.pure_def,
    Option.some.injEq] at h
  obtain ⟨_, -, _, -, _, -, _, -, _, -, _, -, _, -, _, -, rfl⟩ := h
  exact failsWith_read _ _ _ _ _ _ _

theorem failsWith_checkFrom (buckets : List Bucket) :
    ∀ seen, FailsWith IsOther (Matrix.checkFrom seen buckets) := by
  induction buckets with
  | nil =>
      intro seen
      exact failsWith_ok ()
  | cons b buckets ih =>
      intro seen
      unfold Matrix.checkFrom
      split
      · exact failsWith_error id
      · split
        · exact failsWith_error id
        · exact ih _

theorem failsWith_ofBuckets (buckets : List Bucket) :
    FailsWith IsOther (Matrix.ofBuckets buckets) := by
  intro e h
  unfold Matrix.ofBuckets at h
  split at h
  · cases h
  · next hcheck =>
    cases h
    rw [Matrix.check] at hcheck
    split at hcheck
    · cases hcheck
      exact id
    · exact failsWith_checkFrom buckets [] _ hcheck

theorem failsWith_parseMatrix [Formats] (source text : String) :
    FailsWith IsOther (Matrix.parse source text) := by
  unfold Matrix.parse
  dsimp only
  split
  · exact failsWith_error id
  · next buckets h =>
    refine FailsWith.bind (.mapM fun b hb => ?_) fun buckets _ => failsWith_ofBuckets buckets
    simp only [Option.bind_eq_bind, Option.bind_eq_some_iff, Yaml.Fields.required] at h
    obtain ⟨yaml, -, fields, -, v, -, hlist⟩ := h
    obtain ⟨item, hitem⟩ := Yaml.exists_of_mem_list? hlist hb
    exact failsWith_of_ofYaml? hitem

theorem failsWith_loadMatrix [Formats] (files : FileSystem) (path : String) :
    FailsWith IsOther (Matrix.load files path) := by
  unfold Matrix.load
  split
  · exact failsWith_ok _
  · exact (FailsWith.mapError (fun _ => id) _).bind fun text _ => failsWith_parseMatrix path text

theorem failsWith_loadCorpus [Formats] (files : FileSystem) (path : String) :
    FailsWith IsOther (Corpus.load files path) := by
  refine (FailsWith.mapError (fun _ => id) _).bind fun text _ => ?_
  unfold Corpus.parse
  dsimp only
  split
  · exact failsWith_error id
  · unfold Corpus.ofTests
    split
    · exact failsWith_error id
    · exact failsWith_ok _

theorem failsWith_ofParts (taxonomy : List String) (matrix : Matrix) (corpus : Corpus)
    (profiles : List Profile) :
    FailsWith IsOther (Planner.ofParts taxonomy matrix corpus profiles) := by
  have hprofiles : FailsWith IsOther (matrix.checkProfiles profiles) := .forM fun b _ => by
    split
    · exact failsWith_ok ()
    · exact failsWith_error id
  intro e h
  unfold Planner.ofParts at h
  split at h
  · cases h
  · next hcheck =>
    cases h
    exact hprofiles _ hcheck

/-- No planner fails to be made because a plan is rejected. -/
theorem failsWith_ofConfig [Formats] (files : FileSystem) (c : Config) :
    FailsWith IsOther (Planner.ofConfig files c) :=
  (failsWith_loadMatrix files _).bind fun matrix _ =>
    (failsWith_loadCorpus files _).bind fun corpus _ =>
      failsWith_ofParts _ matrix corpus _

end Making

end CiPlan
