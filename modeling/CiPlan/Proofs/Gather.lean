import CiPlan.Run.Phase
import Mathlib.Data.List.Nodup

/-!
# What is made of the tasks that have ended

Tasks end in an order of their own and hand over their results with the places that these belong to.
A task that died hands over nothing.  `getElem?_gather` says that nonetheless each bucket gets the
result of its own task, for every order of ending, provided that the tasks have different places;
`count_metrics` says what is counted on the way.
-/

namespace CiPlan

/-- What is reported at some time for the bucket of a task that has ended: the result of the task, or
that the task died. -/
def EndedTask.final (e : EndedTask) (now : Duration) : BucketResult :=
  e.result?.getD (lostResult e.task.planned now)

/-- A result carries what the plan says about the bucket. -/
theorem EndedTask.final_fields (e : EndedTask) (now : Duration) :
    (e.final now).bucket = e.task.planned.bucket.name ∧
      (e.final now).profile = e.task.planned.profile.name ∧
      (e.final now).tests = e.task.planned.tests.length ∧
      (e.final now).outcome = e.outcome.getD (.failed none abortedReason) ∧
      (e.final now).duration = if e.outcome = none then 0 else e.duration := by
  unfold final result?
  cases e.outcome <;> exact ⟨rfl, rfl, rfl, rfl, rfl⟩

/-- A task that did not die reports itself, whenever it is asked. -/
theorem EndedTask.final_eq_final {e : EndedTask} (h : e.outcome ≠ none) (now now' : Duration) :
    e.final now = e.final now' := by
  obtain ⟨outcome, houtcome⟩ := Option.ne_none_iff_exists'.mp h
  simp only [final, result?, houtcome, Option.map_some, Option.getD_some]

/-- The start that is reported: of a task that died, the time of the report. -/
theorem EndedTask.startedAt_final (e : EndedTask) (now : Duration) :
    (e.final now).startedAt = if e.outcome = none then now else e.startedAt := by
  unfold final result?
  cases e.outcome <;> rfl

/-! ## Placing results -/

theorem getElem?_place_of_notMem {i : Nat} {deliveries : List (Nat × BucketResult)} :
    ∀ {results : List (Option BucketResult)}, i ∉ deliveries.map (·.1) →
      (place results deliveries)[i]? = results[i]? := by
  induction deliveries with
  | nil =>
      intro results _
      rfl
  | cons d deliveries ih =>
      intro results h
      rw [List.map_cons, List.mem_cons, not_or] at h
      show (place (results.set d.1 (some d.2)) deliveries)[i]? = results[i]?
      rw [ih h.2, List.getElem?_set_ne (Ne.symm h.1)]

/-- A result that is handed over is at its place in the end, if none follows for that place. -/
theorem getElem?_place {i : Nat} {r : BucketResult} {deliveries : List (Nat × BucketResult)} :
    ∀ {results : List (Option BucketResult)}, (deliveries.map (·.1)).Nodup →
      (i, r) ∈ deliveries → i < results.length →
        (place results deliveries)[i]? = some (some r) := by
  induction deliveries with
  | nil =>
      intro results _ h
      cases h
  | cons d deliveries ih =>
      intro results hnodup hmem hi
      rw [List.map_cons, List.nodup_cons] at hnodup
      show (place (results.set d.1 (some d.2)) deliveries)[i]? = some (some r)
      rcases List.mem_cons.mp hmem with rfl | hmem
      · rw [getElem?_place_of_notMem hnodup.1, List.getElem?_set_self hi]
      · exact ih hnodup.2 hmem (by rw [List.length_set]; exact hi)

/-! ## Gathering results -/

section Gather

variable {planned : List PlannedBucket} {ended : List EndedTask} {e : EndedTask}

theorem mem_deliveries {i : Nat} {r : BucketResult} :
    (i, r) ∈ ended.filterMap EndedTask.delivery? ↔
      ∃ e ∈ ended, e.task.index = i ∧ e.result? = some r := by
  rw [List.mem_filterMap]
  constructor
  · rintro ⟨e, he, hdelivery⟩
    obtain ⟨s, hs, hpair⟩ := Option.map_eq_some_iff.mp hdelivery
    cases hpair
    exact ⟨e, he, rfl, hs⟩
  · rintro ⟨e, he, rfl, hresult⟩
    exact ⟨e, he, by rw [EndedTask.delivery?, hresult]; rfl⟩

/-- Results come from different places when the tasks have different places. -/
theorem nodup_deliveries (hnodup : (ended.map (·.task.index)).Nodup) :
    ((ended.filterMap EndedTask.delivery?).map (·.1)).Nodup := by
  refine hnodup.sublist ?_
  clear hnodup
  induction ended with
  | nil => exact .slnil
  | cons e ended ih =>
      rw [List.filterMap_cons, EndedTask.delivery?]
      cases e.result? with
      | none => exact ih.cons _
      | some r => exact ih.cons_cons _

/-- Each bucket gets the result of its own task. -/
theorem getElem?_gather (hnodup : (ended.map (·.task.index)).Nodup) (he : e ∈ ended)
    (hplanned : planned[e.task.index]? = some e.task.planned) (now : Duration) :
    (gather planned ended now)[e.task.index]? = some (e.final now) := by
  have hlt : e.task.index < planned.length := (List.getElem?_eq_some_iff.mp hplanned).1
  have hplace : (place (planned.map fun _ => none)
      (ended.filterMap EndedTask.delivery?))[e.task.index]? = some e.result? := by
    cases hresult : e.result? with
    | some r =>
        exact getElem?_place (nodup_deliveries hnodup) (mem_deliveries.mpr ⟨e, he, rfl, hresult⟩)
          (by rw [List.length_map]; exact hlt)
    | none =>
        have hnone : e.task.index ∉ (ended.filterMap EndedTask.delivery?).map (·.1) := by
          intro hmem
          obtain ⟨⟨i, r⟩, hir, hi⟩ := List.mem_map.mp hmem
          obtain ⟨u, hu, huindex, huresult⟩ := mem_deliveries.mp hir
          rw [List.inj_on_of_nodup_map hnodup hu he (huindex.trans hi), hresult] at huresult
          cases huresult
        rw [getElem?_place_of_notMem hnone, List.getElem?_map, hplanned]
        rfl
  have hzip : ((place (planned.map fun _ => none)
      (ended.filterMap EndedTask.delivery?)).zip planned)[e.task.index]? =
        some (e.result?, e.task.planned) :=
    List.getElem?_zip_eq_some.mpr ⟨hplace, hplanned⟩
  rw [gather, List.getElem?_map, hzip]
  rfl

end Gather

/-! ## Counting results -/

/-- A task is counted under the label of its outcome, unless it died. -/
theorem count_metrics (label : String) (ended : List EndedTask) :
    (ended.flatMap EndedTask.metrics).count (Metric.increment .bucketsTotal [("result", label)]) =
      ended.countP fun e => e.outcome.any (·.label == label) := by
  induction ended with
  | nil => rfl
  | cons e ended ih =>
      have hone : e.metrics.count (Metric.increment .bucketsTotal [("result", label)]) =
          if e.outcome.any (·.label == label) then 1 else 0 := by
        cases houtcome : e.outcome with
        | none => simp [EndedTask.metrics, EndedTask.result?, houtcome]
        | some outcome =>
            simp [EndedTask.metrics, EndedTask.result?, houtcome, List.count_cons,
              Metric.increment, Metric.record]
      rw [List.flatMap_cons, List.count_append, hone, ih, List.countP_cons]
      exact Nat.add_comm ..

/-- A task reports nothing but its outcome and its duration. -/
theorem metric_of_mem_metrics {e : EndedTask} {sample : Metric.Sample} (h : sample ∈ e.metrics) :
    sample.metric = .bucketsTotal ∨ sample.metric = .bucketDuration := by
  unfold EndedTask.metrics at h
  split at h
  · cases h
  · rcases List.mem_cons.mp h with rfl | h
    · exact .inl rfl
    · rw [List.mem_singleton.mp h]
      exact .inr rfl

end CiPlan
