import CiPlan.Run.Phase
import Mathlib.Logic.Relation

/-!
# Bucket phases, in whatever order things happen

`Phase.run` carries out a bucket phase in one order: waiting tasks get slots in the order of the
plan, and of two tasks that end at one time the one that started first comes first.  A system of
concurrent tasks promises no such order.  So the statements about bucket phases are about `Step`,
which leaves the order open: any waiting task may get a free slot, any of the running tasks that end
first may end next, and when the run is cancelled the tasks may be stopped in any order.

* `Reaches.invariant` — no task is lost or doubled, and each has ended in one of the two ways that
  there are;
* `Step.work_lt`, `exists_step` — every phase comes to its end;
* `reaches_run`, `isOver_run` — `Phase.run` is one of the orders.
-/

namespace CiPlan

/-- The task has ended by itself, or since the run was cancelled. -/
def EndedTask.IsEnd (cancel : Option Duration) (e : EndedTask) : Prop :=
  (∃ start, e.start = some start ∧ e.finish = start + e.task.attempt.delay ∧
    e.outcome = e.task.attempt.ending.outcome?) ∨
  (cancel = some e.finish ∧ e.outcome = some .cancelled)

/-- How a task has come to its end. -/
inductive EndedTask.Manner (cancel : Option Duration) : EndedTask → Prop
  | itself (r : RunningTask) : Manner cancel r.ended
  | stopped (r : RunningTask) (time : Duration) (cancelled : cancel = some time)
      (late : time ≤ r.finish) : Manner cancel (r.stopped time)
  | prevented (t : BucketTask) (time : Duration) (cancelled : cancel = some time) :
      Manner cancel (t.prevented time)

theorem RunningTask.takeSoonest_eq_none {running : List RunningTask}
    (h : takeSoonest running = none) : running = [] := by
  cases running with
  | nil => rfl
  | cons u running =>
      rw [takeSoonest] at h
      split at h
      · cases h
      · split at h <;> cases h

/-- What `takeSoonest` takes out ends first. -/
theorem RunningTask.takeSoonest_eq_some {running : List RunningTask} :
    ∀ {r : RunningTask} {rest : List RunningTask}, takeSoonest running = some (r, rest) →
      running.Perm (r :: rest) ∧ ∀ u ∈ rest, r.finish ≤ u.finish := by
  induction running with
  | nil =>
      intro r rest h
      cases h
  | cons u running ih =>
      intro r rest h
      rw [takeSoonest] at h
      split at h
      · next hnone =>
        cases h
        rw [takeSoonest_eq_none hnone]
        exact ⟨.refl _, by simp⟩
      · next v others hsome =>
        obtain ⟨hperm, hfirst⟩ := ih hsome
        split at h
        · next hlt =>
          cases h
          refine ⟨(hperm.cons u).trans (.swap ..), ?_⟩
          intro w hw
          rcases List.mem_cons.mp hw with rfl | hw
          · exact Nat.le_of_lt hlt
          · exact hfirst w hw
        · next hle =>
          cases h
          refine ⟨.refl _, ?_⟩
          intro w hw
          have huv : u.finish ≤ v.finish := Nat.le_of_not_lt hle
          rcases List.mem_cons.mp (hperm.mem_iff.mp hw) with rfl | hw
          · exact huv
          · exact Nat.le_trans huv (hfirst w hw)

namespace Phase

/-- What may happen next.  At the very time at which the run is cancelled, tasks may still get a slot
or end by themselves before they are stopped. -/
inductive Step (slots : Nat) (cancel : Option Duration) (p : Phase) : Phase → Prop
  /-- A waiting task gets a free slot. -/
  | grant (t : BucketTask) (rest : List BucketTask) (waits : p.waiting.Perm (t :: rest))
      (free : p.running.length < slots) (early : ∀ time ∈ cancel, p.now ≤ time) :
      Step slots cancel p { p with waiting := rest, running := p.running ++ [⟨t, p.now⟩] }
  /-- One of the tasks that end first ends by itself. -/
  | complete (r : RunningTask) (rest : List RunningTask) (runs : p.running.Perm (r :: rest))
      (first : ∀ u ∈ rest, r.finish ≤ u.finish) (early : ∀ time ∈ cancel, r.finish ≤ time) :
      Step slots cancel p
        { p with now := r.finish, running := rest, ended := r.ended :: p.ended }
  /-- The run is cancelled while a task is running. -/
  | stop (time : Duration) (r : RunningTask) (rest : List RunningTask)
      (cancelled : cancel = some time) (runs : p.running.Perm (r :: rest))
      (late : ∀ u ∈ p.running, time ≤ u.finish) :
      Step slots cancel p
        { p with now := time, running := rest, ended := r.stopped time :: p.ended }
  /-- The run is cancelled while a task is waiting. -/
  | prevent (time : Duration) (t : BucketTask) (rest : List BucketTask)
      (cancelled : cancel = some time) (waits : p.waiting.Perm (t :: rest))
      (late : ∀ u ∈ p.running, time ≤ u.finish) :
      Step slots cancel p
        { p with now := time, waiting := rest, ended := t.prevented time :: p.ended }

/-- What may have happened after any number of steps. -/
abbrev Reaches (slots : Nat) (cancel : Option Duration) : Phase → Phase → Prop :=
  Relation.ReflTransGen (Step slots cancel)

/-! ## What every step keeps -/

/-- The tasks of a phase, whatever has become of them. -/
def everyTask (p : Phase) : List BucketTask :=
  p.waiting ++ (p.running.map (·.task) ++ p.ended.map (·.task))

/-- What holds of the phase of some tasks from beginning to end. -/
structure Invariant (tasks : List BucketTask) (slots : Nat) (cancel : Option Duration) (p : Phase) :
    Prop where
  tasks : p.everyTask.Perm tasks
  slots : p.running.length ≤ slots
  running : ∀ r ∈ p.running, p.now ≤ r.finish
  ended : ∀ e ∈ p.ended, e.finish ≤ p.now ∧ e.IsEnd cancel
  time : ∀ time ∈ cancel, p.now ≤ time

theorem invariant_start (tasks : List BucketTask) (slots : Nat) (cancel : Option Duration) :
    (start tasks).Invariant tasks slots cancel where
  tasks := by simp [everyTask, start]
  slots := Nat.zero_le slots
  running := by simp [start]
  ended := by simp [start]
  time time _ := Nat.zero_le time

section Step

variable {tasks : List BucketTask} {slots : Nat} {cancel : Option Duration} {p q : Phase}

/-- A task that gets a slot, or ends, stays one of the tasks. -/
theorem Step.everyTask_perm (h : p.Step slots cancel q) : q.everyTask.Perm p.everyTask := by
  have hend : ∀ (r : RunningTask) (rest : List RunningTask), p.running.Perm (r :: rest) →
      (rest.map (·.task) ++ r.task :: p.ended.map (·.task)).Perm
        (p.running.map (·.task) ++ p.ended.map (·.task)) := by
    intro r rest runs
    refine List.perm_middle.trans ?_
    exact ((runs.map (·.task)).append_right _).symm
  cases h with
  | grant t rest waits free early =>
      have hmove : (p.running.map (·.task) ++ [t] ++ p.ended.map (·.task)).Perm
          (t :: (p.running.map (·.task) ++ p.ended.map (·.task))) := by
        rw [List.append_assoc, List.singleton_append]
        exact List.perm_middle
      simp only [everyTask, List.map_append, List.map_cons, List.map_nil]
      refine (hmove.append_left rest).trans (List.perm_middle.trans ?_)
      exact (waits.append_right _).symm
  | complete r rest runs first early => exact (hend r rest runs).append_left p.waiting
  | stop time r rest cancelled runs late => exact (hend r rest runs).append_left p.waiting
  | prevent time t rest cancelled waits late =>
      simp only [everyTask, List.map_cons, BucketTask.prevented]
      refine (List.perm_middle.append_left rest).trans (List.perm_middle.trans ?_)
      exact (waits.append_right _).symm

/-- One more task has ended, and time has gone on to its end. -/
private theorem Invariant.ended_cons (hp : p.Invariant tasks slots cancel) {e : EndedTask}
    {time : Duration} (hnow : p.now ≤ time) (hfinish : e.finish = time) (hend : e.IsEnd cancel) :
    ∀ u ∈ e :: p.ended, u.finish ≤ time ∧ u.IsEnd cancel := by
  intro u hu
  rcases List.mem_cons.mp hu with rfl | hu
  · exact ⟨Nat.le_of_eq hfinish, hend⟩
  · exact ⟨Nat.le_trans (hp.ended u hu).1 hnow, (hp.ended u hu).2⟩

private theorem Invariant.slots_of_perm (hp : p.Invariant tasks slots cancel) {r : RunningTask}
    {rest : List RunningTask} (runs : p.running.Perm (r :: rest)) : rest.length ≤ slots := by
  have hlen := runs.length_eq
  have hslots := hp.slots
  rw [List.length_cons] at hlen
  omega

private theorem le_of_cancelled {time : Duration} (cancelled : cancel = some time) :
    ∀ other ∈ cancel, time ≤ other := by
  intro other hother
  rw [Option.mem_def.mp hother] at cancelled
  cases cancelled
  exact Nat.le_refl _

/-- Every step keeps the invariant. -/
theorem Step.invariant (h : p.Step slots cancel q) (hp : p.Invariant tasks slots cancel) :
    q.Invariant tasks slots cancel := by
  have htasks : q.everyTask.Perm tasks := h.everyTask_perm.trans hp.tasks
  cases h with
  | grant t rest waits free early =>
      have hlen : (p.running ++ [RunningTask.mk t p.now]).length ≤ slots := by
        rw [List.length_append, List.length_singleton]
        exact free
      refine ⟨htasks, hlen, ?_, hp.ended, hp.time⟩
      intro r hr
      rcases List.mem_append.mp hr with hr | hr
      · exact hp.running r hr
      · rw [List.mem_singleton.mp hr]
        exact Nat.le_add_right ..
  | complete r rest runs first early =>
      have hnow : p.now ≤ r.finish := hp.running r (runs.mem_iff.mpr List.mem_cons_self)
      have hend : r.ended.IsEnd cancel := .inl ⟨r.start, rfl, rfl, rfl⟩
      exact ⟨htasks, hp.slots_of_perm runs, first, hp.ended_cons hnow rfl hend, early⟩
  | stop time r rest cancelled runs late =>
      have hnow : p.now ≤ time := hp.time time cancelled
      have hend : (r.stopped time).IsEnd cancel := .inr ⟨cancelled, rfl⟩
      have hlate : ∀ u ∈ rest, time ≤ u.finish :=
        fun u hu => late u (runs.mem_iff.mpr (List.mem_cons_of_mem r hu))
      exact ⟨htasks, hp.slots_of_perm runs, hlate, hp.ended_cons hnow rfl hend,
        le_of_cancelled cancelled⟩
  | prevent time t rest cancelled waits late =>
      have hnow : p.now ≤ time := hp.time time cancelled
      have hend : (t.prevented time).IsEnd cancel := .inr ⟨cancelled, rfl⟩
      exact ⟨htasks, hp.slots, late, hp.ended_cons hnow rfl hend, le_of_cancelled cancelled⟩

/-- The invariant holds of all that may happen. -/
theorem Reaches.invariant (h : Reaches slots cancel (start tasks) p) :
    p.Invariant tasks slots cancel := by
  induction h with
  | refl => exact invariant_start tasks slots cancel
  | tail _ hstep ih => exact hstep.invariant ih

/-- Every task ends in one of three manners, whatever the order of events. -/
theorem Reaches.manner (h : Reaches slots cancel (start tasks) p) :
    ∀ e ∈ p.ended, e.Manner cancel := by
  induction h with
  | refl => simp [start]
  | tail _ hstep ih =>
      cases hstep with
      | grant t rest waits free early => exact ih
      | complete r rest runs first early => exact List.forall_mem_cons.mpr ⟨.itself r, ih⟩
      | stop time r rest cancelled runs late =>
          have hlate := late r (runs.mem_iff.mpr List.mem_cons_self)
          exact List.forall_mem_cons.mpr ⟨.stopped r time cancelled hlate, ih⟩
      | prevent time t rest cancelled waits late =>
          exact List.forall_mem_cons.mpr ⟨.prevented t time cancelled, ih⟩

/-- Time has gone on to the end of some task. -/
theorem Reaches.now_eq (h : Reaches slots cancel (start tasks) p) :
    p.now = 0 ∨ ∃ e ∈ p.ended, e.finish = p.now := by
  induction h with
  | refl => exact .inl rfl
  | tail _ hstep ih =>
      cases hstep with
      | grant t rest waits free early => exact ih
      | complete r rest runs first early => exact .inr ⟨r.ended, List.mem_cons_self, rfl⟩
      | stop time r rest cancelled runs late =>
          exact .inr ⟨r.stopped time, List.mem_cons_self, rfl⟩
      | prevent time t rest cancelled waits late =>
          exact .inr ⟨t.prevented time, List.mem_cons_self, rfl⟩

/-- All tasks that have ended did so by themselves. -/
def Undisturbed (p : Phase) : Prop := ∀ e ∈ p.ended, ∃ r : RunningTask, e = r.ended

/-- Without a cancellation tasks end by themselves. -/
theorem Reaches.undisturbed (h : Reaches slots none (start tasks) p) : p.Undisturbed := by
  intro e he
  cases h.manner e he with
  | itself r => exact ⟨r, rfl⟩
  | stopped r time cancelled late => cases cancelled
  | prevented t time cancelled => cases cancelled

/-- Every step is one of those that were left. -/
theorem Step.work_lt (h : p.Step slots cancel q) : q.work < p.work := by
  cases h with
  | grant t rest waits free early =>
      have hlen := waits.length_eq
      rw [List.length_cons] at hlen
      simp only [work, List.length_append, List.length_singleton]
      omega
  | complete r rest runs first early =>
      have hlen := runs.length_eq
      rw [List.length_cons] at hlen
      simp only [work]
      omega
  | stop time r rest cancelled runs late =>
      have hlen := runs.length_eq
      rw [List.length_cons] at hlen
      simp only [work]
      omega
  | prevent time t rest cancelled waits late =>
      have hlen := waits.length_eq
      rw [List.length_cons] at hlen
      simp only [work]
      omega

end Step

/-! ## The run of a phase -/

section Run

variable {tasks : List BucketTask} {slots : Nat} {cancel : Option Duration} {p q : Phase}

theorem grant?_eq_some (h : p.grant? slots cancel = some q) :
    ∃ t rest, p.waiting = t :: rest ∧ p.running.length < slots ∧ p.isCancelled cancel = false ∧
      q = { p with waiting := rest, running := p.running ++ [⟨t, p.now⟩] } := by
  unfold grant? at h
  split at h
  · cases h
  · next t rest hwaiting =>
    split at h
    · next hfree =>
      cases h
      simp only [Bool.and_eq_true, decide_eq_true_eq, Bool.not_eq_true'] at hfree
      exact ⟨t, rest, hwaiting, hfree.1, hfree.2, rfl⟩
    · cases h

theorem complete?_eq_some (h : p.complete? cancel = some q) :
    ∃ r rest, p.running.Perm (r :: rest) ∧ (∀ u ∈ rest, r.finish ≤ u.finish) ∧
      (∀ time ∈ cancel, r.finish ≤ time) ∧
      q = { p with now := r.finish, running := rest, ended := r.ended :: p.ended } := by
  unfold complete? at h
  split at h
  · cases h
  · next r rest hsoonest =>
    obtain ⟨hruns, hfirst⟩ := RunningTask.takeSoonest_eq_some hsoonest
    split at h
    · next hearly =>
      cases h
      simp only [Option.all_eq_true, decide_eq_true_eq] at hearly
      exact ⟨r, rest, hruns, hfirst, fun time htime => hearly time (Option.mem_def.mp htime), rfl⟩
    · cases h

theorem cancel?_eq_some (h : p.cancel? cancel = some q) :
    ∃ time, cancel = some time ∧
      ((∃ r rest, p.running = r :: rest ∧
        q = { p with now := time, running := rest, ended := r.stopped time :: p.ended }) ∨
      ∃ t rest, p.waiting = t :: rest ∧
        q = { p with now := time, waiting := rest, ended := t.prevented time :: p.ended }) := by
  unfold cancel? at h
  split at h
  · cases h
  · next time r rest hrunning =>
    cases h
    exact ⟨time, rfl, .inl ⟨r, rest, hrunning, rfl⟩⟩
  · next time t rest hrunning hwaiting =>
    cases h
    exact ⟨time, rfl, .inr ⟨t, rest, hwaiting, rfl⟩⟩
  · cases h

theorem lt_of_isCancelled (h : p.isCancelled cancel = false) : ∀ time ∈ cancel, p.now < time := by
  simp only [isCancelled, Option.any_eq_false, decide_eq_false_iff_not] at h
  exact fun time htime => Nat.lt_of_not_le (h time (Option.mem_def.mp htime))

/-- When no task can end by itself, all running tasks outlast the time of the cancellation. -/
theorem late_of_complete? {time : Duration} (h : p.complete? (some time) = none) :
    ∀ u ∈ p.running, time ≤ u.finish := by
  unfold complete? at h
  split at h
  · next hnone =>
    rw [RunningTask.takeSoonest_eq_none hnone]
    simp
  · next r rest hsoonest =>
    obtain ⟨hruns, hfirst⟩ := RunningTask.takeSoonest_eq_some hsoonest
    split at h
    · cases h
    · next hlate =>
      simp only [Option.all_some, decide_eq_true_eq] at hlate
      have hr : time ≤ r.finish := Nat.le_of_not_le hlate
      intro u hu
      rcases List.mem_cons.mp (hruns.mem_iff.mp hu) with rfl | hu
      · exact hr
      · exact Nat.le_trans hr (hfirst u hu)

/-- What happens next is that a task gets a slot, or else that one ends by itself, or else that one is
cancelled. -/
theorem next?_cases (h : p.next? slots cancel = some q) :
    p.grant? slots cancel = some q ∨
      (p.grant? slots cancel = none ∧ p.complete? cancel = some q) ∨
      (p.grant? slots cancel = none ∧ p.complete? cancel = none ∧ p.cancel? cancel = some q) := by
  simpa only [next?, Option.or_eq_some_iff, and_or_left] using h

/-- What happens next in a run is a step. -/
theorem step_of_next? (h : p.next? slots cancel = some q) : p.Step slots cancel q := by
  rcases next?_cases h with hgrant | ⟨-, hcomplete⟩ | ⟨-, hcomplete, hcancel⟩
  · obtain ⟨t, rest, hwaiting, hfree, hnot, rfl⟩ := grant?_eq_some hgrant
    exact .grant t rest (hwaiting ▸ .refl _) hfree fun time htime =>
      Nat.le_of_lt (lt_of_isCancelled hnot time htime)
  · obtain ⟨r, rest, hruns, hfirst, hearly, rfl⟩ := complete?_eq_some hcomplete
    exact .complete r rest hruns hfirst hearly
  · obtain ⟨time, rfl, ⟨r, rest, hrunning, rfl⟩ | ⟨t, rest, hwaiting, rfl⟩⟩ :=
      cancel?_eq_some hcancel
    · exact .stop time r rest rfl (hrunning ▸ .refl _) (late_of_complete? hcomplete)
    · exact .prevent time t rest rfl (hwaiting ▸ .refl _) (late_of_complete? hcomplete)

/-- As long as some task has not ended, something happens next. -/
theorem isOver_of_next? (hslots : 0 < slots) (h : p.next? slots cancel = none) :
    p.isOver = true := by
  simp only [next?, Option.or_eq_none_iff] at h
  obtain ⟨hgrant, hcomplete, hcancel⟩ := h
  cases hrunning : p.running with
  | cons r rest =>
      cases cancel with
      | some time => simp [cancel?, hrunning] at hcancel
      | none =>
          unfold complete? at hcomplete
          split at hcomplete
          · next hnone =>
            rw [RunningTask.takeSoonest_eq_none hnone] at hrunning
            cases hrunning
          · simp at hcomplete
  | nil =>
      cases hwaiting : p.waiting with
      | nil => simp [isOver, hrunning, hwaiting]
      | cons t rest =>
          cases cancel with
          | some time => simp [cancel?, hrunning, hwaiting] at hcancel
          | none => simp [grant?, isCancelled, hrunning, hwaiting, hslots] at hgrant

/-- A phase in which some task has not ended goes on. -/
theorem exists_step (hslots : 0 < slots) (h : p.isOver = false) : ∃ q, p.Step slots cancel q := by
  cases hnext : p.next? slots cancel with
  | some q => exact ⟨q, step_of_next? hnext⟩
  | none =>
      rw [isOver_of_next? hslots hnext] at h
      cases h

private theorem reaches_steps (hslots : 0 < slots) (count : Nat) :
    ∀ p : Phase, p.work ≤ count →
      Reaches slots cancel p (p.steps slots cancel count) ∧
        (p.steps slots cancel count).isOver = true := by
  induction count with
  | zero =>
      intro p hwork
      have hwaiting : p.waiting = [] := List.eq_nil_of_length_eq_zero (by unfold work at hwork; omega)
      have hrunning : p.running = [] := List.eq_nil_of_length_eq_zero (by unfold work at hwork; omega)
      exact ⟨.refl, by simp [steps, isOver, hwaiting, hrunning]⟩
  | succ count ih =>
      intro p hwork
      cases hnext : p.next? slots cancel with
      | none =>
          simp only [steps, hnext]
          exact ⟨.refl, isOver_of_next? hslots hnext⟩
      | some q =>
          have hstep := step_of_next? hnext
          have hless := hstep.work_lt
          obtain ⟨hreaches, hover⟩ := ih q (by omega)
          simp only [steps, hnext]
          exact ⟨hreaches.head hstep, hover⟩

/-- The run of a phase is one of the orders in which things may happen. -/
theorem reaches_run (hslots : 0 < slots) (p : Phase) :
    Reaches slots cancel p (p.run slots cancel) :=
  (reaches_steps hslots p.work p (Nat.le_refl _)).1

/-- The run of a phase ends when every task has ended. -/
theorem isOver_run (hslots : 0 < slots) (p : Phase) : (p.run slots cancel).isOver = true :=
  (reaches_steps hslots p.work p (Nat.le_refl _)).2

/-- When a phase is over, each task has ended once. -/
theorem Invariant.ended_perm (hp : p.Invariant tasks slots cancel) (hover : p.isOver = true) :
    (p.ended.map (·.task)).Perm tasks := by
  simp only [isOver, Bool.and_eq_true, List.isEmpty_iff] at hover
  have htasks := hp.tasks
  rw [everyTask, hover.1, hover.2] at htasks
  exact htasks

end Run

end Phase

end CiPlan
