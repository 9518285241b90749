import CiPlan.Run.Phase
import Mathlib.Data.List.Induction
import Mathlib.Order.Bounds.Basic

/-!
# Timelines of tasks

A timeline gives each task the time at which it gets its slot.  `IsTimeline` describes fair list
scheduling: the tasks are taken in order, and each starts at the earliest time that is not before the
start of the last one and at which a slot is free.

No order of events and no state occurs here, so two phases that both keep to a timeline can be
compared through it:

* `IsTimeline.eq_of_tasks`, `IsTimeline.isPrefix` — the tasks determine their timeline, and fewer
  tasks have the front part of it;
* `IsTimeline.pairwise_start`, `IsTimeline.countP_runsAt_le` — the tasks start in order, and never
  more of them run than there are slots;
* `IsTimeline.start_le` — with a bound on the delays, the tasks start in waves.
-/

namespace CiPlan

/-- The task has its slot at some time. -/
def RunningTask.runsAt (r : RunningTask) (time : Duration) : Bool :=
  decide (r.start ≤ time) && decide (time < r.finish)

/-- The times at which one more task may start: none of the tasks before it starts later, and not all
slots are taken. -/
def openings (slots : Nat) (earlier : List RunningTask) : Set Duration :=
  {time | (∀ r ∈ earlier, r.start ≤ time) ∧ earlier.countP (·.runsAt time) < slots}

/-- Each task starts as early as it can. -/
inductive IsTimeline (slots : Nat) : List RunningTask → Prop
  | nil : IsTimeline slots []
  | concat {earlier : List RunningTask} {r : RunningTask} (before : IsTimeline slots earlier)
      (least : IsLeast (openings slots earlier) r.start) : IsTimeline slots (earlier ++ [r])

theorem RunningTask.runsAt_iff {r : RunningTask} {time : Duration} :
    r.runsAt time = true ↔ r.start ≤ time ∧ time < r.finish := by
  simp [runsAt]

theorem RunningTask.start_le_finish (r : RunningTask) : r.start ≤ r.finish :=
  Nat.le_add_right ..

namespace IsTimeline

variable {slots : Nat} {timeline others : List RunningTask} {r : RunningTask}

theorem of_concat (h : IsTimeline slots (timeline ++ [r])) :
    IsTimeline slots timeline ∧ IsLeast (openings slots timeline) r.start := by
  generalize hwhole : timeline ++ [r] = whole at h
  cases h with
  | nil => simp at hwhole
  | concat before least =>
      obtain ⟨rfl, hr⟩ := List.append_inj' hwhole rfl
      cases hr
      exact ⟨before, least⟩

theorem of_append (h : IsTimeline slots (timeline ++ others)) : IsTimeline slots timeline := by
  induction others using List.reverseRecOn with
  | nil => simpa using h
  | append_singleton others r ih =>
      rw [← List.append_assoc] at h
      exact ih h.of_concat.1

/-! ## Tasks determine their timeline -/

theorem eq_of_tasks (h : IsTimeline slots timeline) :
    ∀ {others : List RunningTask}, IsTimeline slots others →
      timeline.map (·.task) = others.map (·.task) → timeline = others := by
  induction h with
  | nil =>
      intro others _ htasks
      exact (List.map_eq_nil_iff.mp htasks.symm).symm
  | @concat earlier r before least ih =>
      intro others hothers htasks
      cases hothers with
      | nil => simp at htasks
      | @concat earlier' r' before' least' =>
          rw [List.map_append, List.map_append] at htasks
          obtain ⟨hearlier, hlast⟩ := List.append_inj' htasks rfl
          obtain rfl := ih before' hearlier
          have htask : r.task = r'.task := by simpa using hlast
          have hstart : r.start = r'.start := least.unique least'
          have hr : r = r' := by
            cases r
            cases r'
            simp_all
          rw [hr]

/-- The timeline of the first tasks is the front part of the timeline of all. -/
theorem isPrefix (h : IsTimeline slots timeline) (hothers : IsTimeline slots others)
    (htasks : timeline.map (·.task) <+: others.map (·.task)) : timeline <+: others := by
  have hsplit : others.take timeline.length ++ others.drop timeline.length = others :=
    List.take_append_drop ..
  have hfront : IsTimeline slots (others.take timeline.length) := by
    rw [← hsplit] at hothers
    exact hothers.of_append
  have heq : timeline.map (·.task) = (others.take timeline.length).map (·.task) := by
    have htake := List.prefix_iff_eq_take.mp htasks
    rwa [List.length_map, ← List.map_take] at htake
  rw [h.eq_of_tasks hfront heq]
  exact List.take_prefix ..

/-! ## Order and slots -/

theorem pairwise_start (h : IsTimeline slots timeline) :
    timeline.Pairwise (·.start ≤ ·.start) := by
  induction h with
  | nil => exact .nil
  | concat before least ih =>
      rw [List.pairwise_append]
      refine ⟨ih, List.pairwise_singleton .., ?_⟩
      intro u hu v hv
      rw [List.mem_singleton.mp hv]
      exact least.1.1 u hu

/-- A task that starts last finds fewer running than there are slots, and later they only end. -/
theorem countP_runsAt_le (h : IsTimeline slots timeline) (time : Duration) :
    timeline.countP (·.runsAt time) ≤ slots := by
  induction h with
  | nil => exact Nat.zero_le _
  | @concat earlier r before least ih =>
      rw [List.countP_append, List.countP_singleton]
      split
      · next hr =>
        have hstart : r.start ≤ time := (RunningTask.runsAt_iff.mp hr).1
        have hmono : earlier.countP (·.runsAt time) ≤ earlier.countP (·.runsAt r.start) := by
          refine List.countP_mono_left fun u hu hruns => ?_
          obtain ⟨-, hfinish⟩ := RunningTask.runsAt_iff.mp hruns
          exact RunningTask.runsAt_iff.mpr ⟨least.1.1 u hu, Nat.lt_of_le_of_lt hstart hfinish⟩
        have hfree : earlier.countP (·.runsAt r.start) < slots := least.1.2
        omega
      · omega

/-- At every place of a timeline stands the earliest start after those before. -/
theorem isLeast_getElem (h : IsTimeline slots timeline) {j : Nat} (hj : j < timeline.length) :
    IsLeast (openings slots (timeline.take j)) timeline[j].start := by
  have hsplit : timeline.take j ++ [timeline[j]] ++ timeline.drop (j + 1) = timeline := by
    rw [← List.take_succ_eq_append_getElem hj, List.take_append_drop]
  rw [← hsplit] at h
  exact h.of_append.of_concat.2

/-! ## Waves -/

/-- Of the tasks before place `j`, those of the waves before its own have ended when all of these
waves could have run one after the other. -/
private theorem countP_runsAt_wave {bound : Duration} {j : Nat} (hslots : 0 < slots)
    (hj : j ≤ timeline.length)
    (hearly : ∀ i (hi : i < j), timeline[i].finish ≤ (i / slots + 1) * bound) :
    (timeline.take j).countP (·.runsAt (j / slots * bound)) < slots := by
  have hle : slots * (j / slots) ≤ j := Nat.mul_div_le j slots
  have hover : ((timeline.take j).take (slots * (j / slots))).countP
      (·.runsAt (j / slots * bound)) = 0 := by
    rw [List.countP_eq_zero]
    intro r hr hruns
    rw [List.take_take, Nat.min_eq_left hle] at hr
    obtain ⟨i, hi, rfl⟩ := List.mem_take_iff_getElem.mp hr
    have hwithin : i < slots * (j / slots) := (Nat.lt_min.mp hi).1
    have hwave : i / slots + 1 ≤ j / slots := Nat.div_lt_of_lt_mul hwithin
    have hfinish := hearly i (by omega)
    have hmono := Nat.mul_le_mul_right bound hwave
    have hlate := (RunningTask.runsAt_iff.mp hruns).2
    exact Nat.not_lt.mpr (Nat.le_trans hfinish hmono) hlate
  have hsame : ((timeline.take j).drop (slots * (j / slots))).countP
      (·.runsAt (j / slots * bound)) ≤ j % slots := by
    refine Nat.le_trans List.countP_le_length ?_
    have hmod : slots * (j / slots) + j % slots = j := Nat.div_add_mod j slots
    rw [List.length_drop, List.length_take, Nat.min_eq_left hj]
    omega
  have hlt : j % slots < slots := Nat.mod_lt j hslots
  rw [← List.take_append_drop (slots * (j / slots)) (timeline.take j), List.countP_append, hover]
  omega

/-- When no task takes longer than some bound, the task at place `j` starts as soon as the waves
before it could have run one after the other. -/
theorem start_le (h : IsTimeline slots timeline) (hslots : 0 < slots) {bound : Duration}
    (hdelay : ∀ r ∈ timeline, r.task.attempt.delay ≤ bound) {j : Nat} (hj : j < timeline.length) :
    timeline[j].start ≤ j / slots * bound := by
  induction j using Nat.strongRecOn with
  | _ j ih =>
      have hearly : ∀ i (hi : i < j), timeline[i].finish ≤ (i / slots + 1) * bound := by
        intro i hi
        have hstart := ih i hi (by omega)
        have hmem := hdelay timeline[i] (List.getElem_mem _)
        rw [RunningTask.finish, Nat.add_mul, Nat.one_mul]
        exact Nat.add_le_add hstart hmem
      refine (h.isLeast_getElem hj).2 ⟨?_, countP_runsAt_wave hslots (by omega) hearly⟩
      intro r hr
      obtain ⟨i, hi, rfl⟩ := List.mem_take_iff_getElem.mp hr
      have hstart := ih i (by omega) (by omega)
      have hwave : i / slots ≤ j / slots := Nat.div_le_div_right (by omega)
      exact Nat.le_trans hstart (Nat.mul_le_mul_right bound hwave)

end IsTimeline

end CiPlan
