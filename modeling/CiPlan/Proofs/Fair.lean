import CiPlan.Proofs.Phase
import CiPlan.Proofs.Timeline

/-!
# Fair bucket phases

`Phase.Step` leaves open which of the waiting tasks gets a free slot, and how long the slot stays
free.  Slots are in fact handed out at once, and in the order of the plan, for as long as nobody has
been stopped.  `FairStep` adds just that to `Step`; the order in which tasks end stays open where they
end at one time, and so does what comes first at the very time of a cancellation.

A fair phase keeps to a timeline, which `KeepsTo` ties to the tasks of the phase.  All that the
timeline says about starts then holds of the phase:

* `FairReaches.exists_timeline` — every fair phase keeps to a timeline, cancelled or not;
* `KeepsTo.ended_perm` — when nothing is cancelled, all tasks end as their timeline says;
* `fairReaches_run` — `Phase.run` is fair.
-/

namespace CiPlan

/-- The task as it was while it had its slot, if it ever had one. -/
def EndedTask.run? (e : EndedTask) : Option RunningTask :=
  e.start.map fun start => ⟨e.task, start⟩

@[simp]
theorem RunningTask.run?_ended (r : RunningTask) : r.ended.run? = some r := rfl

@[simp]
theorem RunningTask.run?_stopped (r : RunningTask) (time : Duration) :
    (r.stopped time).run? = some r := rfl

@[simp]
theorem BucketTask.run?_prevented (t : BucketTask) (time : Duration) :
    (t.prevented time).run? = none := rfl

namespace Phase

/-- No task could have a slot that is free. -/
def Settled (slots : Nat) (p : Phase) : Prop := p.waiting = [] ∨ slots ≤ p.running.length

/-- What may happen next when slots are handed out at once and in order.  A task that has been
stopped leaves its slot to nobody. -/
inductive FairStep (slots : Nat) (cancel : Option Duration) (p : Phase) : Phase → Prop
  /-- The first waiting task gets a free slot. -/
  | grant (t : BucketTask) (rest : List BucketTask) (waits : p.waiting = t :: rest)
      (free : p.running.length < slots) (early : ∀ time ∈ cancel, p.now ≤ time)
      (undisturbed : p.Undisturbed) :
      FairStep slots cancel p { p with waiting := rest, running := p.running ++ [⟨t, p.now⟩] }
  /-- One of the tasks that end first ends by itself. -/
  | complete (r : RunningTask) (rest : List RunningTask) (runs : p.running.Perm (r :: rest))
      (first : ∀ u ∈ rest, r.finish ≤ u.finish) (early : ∀ time ∈ cancel, r.finish ≤ time)
      (settled : p.now < r.finish → p.Settled slots) :
      FairStep slots cancel p
        { p with now := r.finish, running := rest, ended := r.ended :: p.ended }
  /-- The run is cancelled while a task is running. -/
  | stop (time : Duration) (r : RunningTask) (rest : List RunningTask)
      (cancelled : cancel = some time) (runs : p.running.Perm (r :: rest))
      (late : ∀ u ∈ p.running, time ≤ u.finish) (settled : p.now < time → p.Settled slots) :
      FairStep slots cancel p
        { p with now := time, running := rest, ended := r.stopped time :: p.ended }
  /-- The run is cancelled while a task is waiting. -/
  | prevent (time : Duration) (t : BucketTask) (rest : List BucketTask)
      (cancelled : cancel = some time) (waits : p.waiting.Perm (t :: rest))
      (late : ∀ u ∈ p.running, time ≤ u.finish) (settled : p.now < time → p.Settled slots) :
      FairStep slots cancel p
        { p with now := time, waiting := rest, ended := t.prevented time :: p.ended }

/-- What may have happened after any number of fair steps. -/
abbrev FairReaches (slots : Nat) (cancel : Option Duration) : Phase → Phase → Prop :=
  Relation.ReflTransGen (FairStep slots cancel)

section Step

variable {tasks : List BucketTask} {slots : Nat} {cancel : Option Duration} {p q : Phase}

theorem FairStep.step (h : p.FairStep slots cancel q) : p.Step slots cancel q := by
  cases h with
  | grant t rest waits free early undisturbed => exact .grant t rest (waits ▸ .refl _) free early
  | complete r rest runs first early settled => exact .complete r rest runs first early
  | stop time r rest cancelled runs late settled => exact .stop time r rest cancelled runs late
  | prevent time t rest cancelled waits late settled =>
      exact .prevent time t rest cancelled waits late

theorem FairReaches.reaches (h : FairReaches slots cancel p q) : Reaches slots cancel p q :=
  Relation.ReflTransGen.mono (fun _ _ => FairStep.step) _ _ h

end Step

/-! ## Phases that keep to a timeline -/

/-- The tasks that have had a slot, with their starts. -/
def started (p : Phase) : List RunningTask := p.running ++ p.ended.filterMap EndedTask.run?

/-- Some task waits for a slot, or did until it was cancelled. -/
def HasUnstarted (p : Phase) : Prop := p.waiting ≠ [] ∨ ∃ e ∈ p.ended, e.start = none

/-- The starts of a phase are those of a timeline. -/
structure KeepsTo (tasks : List BucketTask) (slots : Nat) (p : Phase)
    (timeline : List RunningTask) : Prop where
  isTimeline : IsTimeline slots timeline
  started : timeline.Perm p.started
  /-- The tasks start in order. -/
  front : timeline.map (·.task) <+: tasks
  rest : p.Undisturbed → timeline.map (·.task) ++ p.waiting = tasks
  past : ∀ r ∈ timeline, r.start ≤ p.now
  /-- Since the last start all slots have been taken, if a task could have used one. -/
  busy : p.HasUnstarted → ∀ time < p.now, (∀ r ∈ timeline, r.start ≤ time) →
    slots ≤ timeline.countP (·.runsAt time)

theorem keepsTo_start (tasks : List BucketTask) (slots : Nat) :
    (start tasks).KeepsTo tasks slots [] where
  isTimeline := .nil
  started := .refl _
  front := List.nil_prefix
  rest _ := rfl
  past := by simp
  busy _ time h := absurd h (Nat.not_lt_zero time)

section KeepsTo

variable {tasks : List BucketTask} {slots : Nat} {cancel : Option Duration} {p q : Phase}
  {timeline : List RunningTask}

/-! ### A task starts -/

/-- Tasks that have ended by themselves do not run any more. -/
theorem Undisturbed.countP_ended (h : p.Undisturbed) (hnow : ∀ e ∈ p.ended, e.finish ≤ p.now) :
    (p.ended.filterMap EndedTask.run?).countP (·.runsAt p.now) = 0 := by
  rw [List.countP_eq_zero]
  intro r hr hruns
  obtain ⟨e, he, hrun⟩ := List.mem_filterMap.mp hr
  obtain ⟨u, rfl⟩ := h e he
  cases hrun
  exact Nat.not_lt.mpr (hnow _ he) (RunningTask.runsAt_iff.mp hruns).2

/-- A task that is first in line and finds a free slot cannot have started any earlier. -/
theorem KeepsTo.isLeast_now (h : p.KeepsTo tasks slots timeline)
    (hp : p.Invariant tasks slots cancel) (hunstarted : p.HasUnstarted)
    (free : p.running.length < slots) (undisturbed : p.Undisturbed) :
    IsLeast (openings slots timeline) p.now := by
  have hcount : timeline.countP (·.runsAt p.now) = p.running.countP (·.runsAt p.now) := by
    rw [h.started.countP_eq, Phase.started, List.countP_append,
      undisturbed.countP_ended fun e he => (hp.ended e he).1, Nat.add_zero]
  have hle : p.running.countP (·.runsAt p.now) ≤ p.running.length := List.countP_le_length
  have hfree : timeline.countP (·.runsAt p.now) < slots := by omega
  refine ⟨⟨h.past, hfree⟩, ?_⟩
  rintro time ⟨hstarts, hopen⟩
  by_contra hlt
  have hbusy := h.busy hunstarted time (Nat.lt_of_not_le hlt) hstarts
  omega

theorem KeepsTo.grant (h : p.KeepsTo tasks slots timeline) (hp : p.Invariant tasks slots cancel)
    {t : BucketTask} {rest : List BucketTask} (waits : p.waiting = t :: rest)
    (free : p.running.length < slots) (undisturbed : p.Undisturbed) :
    KeepsTo tasks slots { p with waiting := rest, running := p.running ++ [⟨t, p.now⟩] }
      (timeline ++ [⟨t, p.now⟩]) := by
  have hunstarted : p.HasUnstarted := .inl (by simp [waits])
  have htasks : (timeline ++ [RunningTask.mk t p.now]).map (·.task) ++ rest = tasks := by
    rw [← h.rest undisturbed, waits]
    simp
  refine ⟨h.isTimeline.concat (h.isLeast_now hp hunstarted free undisturbed), ?started,
    ⟨rest, htasks⟩, fun _ => htasks, ?past, ?busy⟩
  case started =>
    refine (h.started.append_right _).trans ?_
    simp only [Phase.started, List.append_assoc]
    exact List.perm_append_comm.append_left p.running
  case past =>
    intro r hr
    rcases List.mem_append.mp hr with hr | hr
    · exact h.past r hr
    · rw [List.mem_singleton.mp hr]
  case busy =>
    intro _ time hlt hstarts
    have hstart := hstarts ⟨t, p.now⟩ (by simp)
    exact absurd hlt (Nat.not_lt.mpr hstart)

/-! ### A task ends -/

/-- While time goes on to `later`, all slots are taken if some task could use one.  After a task was
cancelled that never started, time does not go on. -/
theorem KeepsTo.busy_until (h : p.KeepsTo tasks slots timeline)
    (hp : p.Invariant tasks slots cancel) (hmanner : ∀ e ∈ p.ended, e.Manner cancel)
    {later : Duration} (settled : p.now < later → p.Settled slots)
    (hrunning : ∀ u ∈ p.running, later ≤ u.finish) (hlater : ∀ time ∈ cancel, later ≤ time)
    (hunstarted : p.HasUnstarted) (time : Duration) (htime : time < later)
    (hstarts : ∀ r ∈ timeline, r.start ≤ time) : slots ≤ timeline.countP (·.runsAt time) := by
  rcases Nat.lt_or_ge time p.now with hpast | hnow
  · exact h.busy hunstarted time hpast hstarts
  rcases settled (Nat.lt_of_le_of_lt hnow htime) with hwaiting | hfull
  · obtain hne | ⟨e, he, hnone⟩ := hunstarted
    · exact absurd hwaiting hne
    · cases hmanner e he with
      | itself r => cases hnone
      | stopped r cut cancelled late => cases hnone
      | prevented t cut cancelled =>
          have hcut : later ≤ cut := hlater cut cancelled
          have hended : cut ≤ p.now := (hp.ended _ he).1
          exact absurd (Nat.lt_of_lt_of_le htime (Nat.le_trans hcut hended)) (Nat.not_lt.mpr hnow)
  · have hall : p.running.countP (·.runsAt time) = p.running.length := by
      rw [List.countP_eq_length]
      intro u hu
      have hstart : u.start ≤ time :=
        hstarts u (h.started.mem_iff.mpr (List.mem_append_left _ hu))
      exact RunningTask.runsAt_iff.mpr ⟨hstart, Nat.lt_of_lt_of_le htime (hrunning u hu)⟩
    rw [h.started.countP_eq, Phase.started, List.countP_append]
    omega

/-- A task that ends after it had a slot stays one of those that have started. -/
theorem started_perm {r : RunningTask} {rest : List RunningTask} {e : EndedTask} {later : Duration}
    (runs : p.running.Perm (r :: rest)) (hrun : e.run? = some r) :
    p.started.Perm (Phase.started { p with now := later, running := rest, ended := e :: p.ended }) := by
  rw [Phase.started, Phase.started, List.filterMap_cons_some hrun]
  exact (runs.append_right _).trans List.perm_middle.symm

/-- What a phase keeps to when a task ends that had a slot. -/
theorem KeepsTo.finish (h : p.KeepsTo tasks slots timeline) (hp : p.Invariant tasks slots cancel)
    (hmanner : ∀ e ∈ p.ended, e.Manner cancel) {r : RunningTask} {rest : List RunningTask}
    {e : EndedTask} {later : Duration} (runs : p.running.Perm (r :: rest)) (hrun : e.run? = some r)
    (settled : p.now < later → p.Settled slots) (hrunning : ∀ u ∈ p.running, later ≤ u.finish)
    (hnow : p.now ≤ later) (hlater : ∀ time ∈ cancel, later ≤ time) :
    KeepsTo tasks slots { p with now := later, running := rest, ended := e :: p.ended } timeline := by
  have hstart : e.start ≠ none := by
    intro hnone
    simp [EndedTask.run?, hnone] at hrun
  refine ⟨h.isTimeline, h.started.trans (started_perm runs hrun), h.front, ?rest,
    fun u hu => Nat.le_trans (h.past u hu) hnow, ?busy⟩
  case rest =>
    intro undisturbed
    exact h.rest fun u hu => undisturbed u (List.mem_cons_of_mem e hu)
  case busy =>
    intro hunstarted
    refine h.busy_until hp hmanner settled hrunning hlater ?_
    refine hunstarted.imp_right ?_
    rintro ⟨u, hu, hnone⟩
    rcases List.mem_cons.mp hu with rfl | hu
    · exact absurd hnone hstart
    · exact ⟨u, hu, hnone⟩

/-- What a phase keeps to when a waiting task is cancelled. -/
theorem KeepsTo.prevent (h : p.KeepsTo tasks slots timeline) (hp : p.Invariant tasks slots cancel)
    (hmanner : ∀ e ∈ p.ended, e.Manner cancel) {t : BucketTask} {rest : List BucketTask}
    {time : Duration} (cancelled : cancel = some time) (waits : p.waiting.Perm (t :: rest))
    (settled : p.now < time → p.Settled slots) (hrunning : ∀ u ∈ p.running, time ≤ u.finish) :
    KeepsTo tasks slots { p with now := time, waiting := rest, ended := t.prevented time :: p.ended }
      timeline := by
  subst cancelled
  have hunstarted : p.HasUnstarted := by
    refine .inl fun hnil => ?_
    rw [hnil] at waits
    exact List.cons_ne_nil _ _ (List.nil_perm.mp waits)
  have hlater : ∀ other ∈ some time, time ≤ other := by
    rintro other hother
    rw [Option.mem_some.mp hother]
  refine ⟨h.isTimeline, h.started, h.front, ?rest,
    fun u hu => Nat.le_trans (h.past u hu) (hp.time time rfl), ?busy⟩
  case rest =>
    intro undisturbed
    obtain ⟨r, hr⟩ := undisturbed (t.prevented time) List.mem_cons_self
    have hstart : (t.prevented time).start = some r.start := congrArg EndedTask.start hr
    cases hstart
  case busy =>
    intro _
    exact h.busy_until hp hmanner settled hrunning hlater hunstarted

/-! ### All steps -/

theorem FairStep.keepsTo (hstep : p.FairStep slots cancel q) (h : p.KeepsTo tasks slots timeline)
    (hp : p.Invariant tasks slots cancel) (hmanner : ∀ e ∈ p.ended, e.Manner cancel) :
    ∃ timeline', q.KeepsTo tasks slots timeline' := by
  cases hstep with
  | grant t rest waits free early undisturbed =>
      exact ⟨_, h.grant hp waits free undisturbed⟩
  | complete r rest runs first early settled =>
      have hnow : p.now ≤ r.finish := hp.running r (runs.mem_iff.mpr List.mem_cons_self)
      have hrunning : ∀ u ∈ p.running, r.finish ≤ u.finish := by
        intro u hu
        rcases List.mem_cons.mp (runs.mem_iff.mp hu) with rfl | hu
        · exact Nat.le_refl _
        · exact first u hu
      exact ⟨timeline, h.finish hp hmanner runs r.run?_ended settled hrunning hnow early⟩
  | stop time r rest cancelled runs late settled =>
      have hlater : ∀ other ∈ cancel, time ≤ other := by
        intro other hother
        rw [cancelled, Option.mem_some] at hother
        exact Nat.le_of_eq hother
      exact ⟨timeline, h.finish hp hmanner runs (r.run?_stopped time) settled late
        (hp.time time cancelled) hlater⟩
  | prevent time t rest cancelled waits late settled =>
      exact ⟨timeline, h.prevent hp hmanner cancelled waits settled late⟩

/-- Every fair phase keeps to a timeline. -/
theorem FairReaches.exists_timeline (h : FairReaches slots cancel (start tasks) p) :
    ∃ timeline, p.KeepsTo tasks slots timeline := by
  induction h with
  | refl => exact ⟨[], keepsTo_start tasks slots⟩
  | tail hreaches hstep ih =>
      obtain ⟨timeline, h⟩ := ih
      have hbefore : Reaches slots cancel (start tasks) _ := FairReaches.reaches hreaches
      exact hstep.keepsTo h hbefore.invariant hbefore.manner

/-! ## Phases that are over -/

theorem map_ended_filterMap_run? {ended : List EndedTask}
    (h : ∀ e ∈ ended, ∃ r : RunningTask, e = r.ended) :
    (ended.filterMap EndedTask.run?).map RunningTask.ended = ended := by
  induction ended with
  | nil => rfl
  | cons e ended ih =>
      obtain ⟨⟨r, rfl⟩, hrest⟩ := List.forall_mem_cons.mp h
      rw [List.filterMap_cons_some r.run?_ended, List.map_cons, ih hrest]

theorem started_eq (hover : p.isOver = true) : p.started = p.ended.filterMap EndedTask.run? := by
  simp only [isOver, Bool.and_eq_true, List.isEmpty_iff] at hover
  rw [Phase.started, hover.2, List.nil_append]

/-- Without a cancellation, all tasks end as their timeline says. -/
theorem KeepsTo.ended_perm (h : p.KeepsTo tasks slots timeline) (hover : p.isOver = true)
    (undisturbed : p.Undisturbed) :
    timeline.map (·.task) = tasks ∧ p.ended.Perm (timeline.map RunningTask.ended) := by
  constructor
  · simp only [isOver, Bool.and_eq_true, List.isEmpty_iff] at hover
    have hrest := h.rest undisturbed
    rwa [hover.1, List.append_nil] at hrest
  · have hperm := (h.started.map RunningTask.ended).symm
    rwa [started_eq hover, map_ended_filterMap_run? undisturbed] at hperm

end KeepsTo

/-! ## The run of a phase is fair -/

section Run

variable {tasks : List BucketTask} {slots : Nat} {cancel : Option Duration} {p q : Phase}

/-- Before the time of a cancellation nobody is stopped. -/
theorem Reaches.undisturbed_of_isCancelled (h : Reaches slots cancel (start tasks) p)
    (hnot : p.isCancelled cancel = false) : p.Undisturbed := by
  have hlate : ∀ e ∈ p.ended, cancel ≠ some e.finish := by
    intro e he hcancel
    have hbefore : e.finish ≤ p.now := (h.invariant.ended e he).1
    exact Nat.not_lt.mpr hbefore (lt_of_isCancelled hnot e.finish hcancel)
  intro e he
  cases h.manner e he with
  | itself r => exact ⟨r, rfl⟩
  | stopped r time cancelled late => exact absurd cancelled (hlate _ he)
  | prevented t time cancelled => exact absurd cancelled (hlate _ he)

/-- When no task gets a slot, none could, or the time of the cancellation has come. -/
theorem settled_of_grant? (h : p.grant? slots cancel = none) :
    p.Settled slots ∨ ∃ time ∈ cancel, time ≤ p.now := by
  unfold grant? at h
  split at h
  · next hwaiting => exact .inl (.inl hwaiting)
  · split at h
    · cases h
    · next hnot =>
      rcases Nat.lt_or_ge p.running.length slots with hfree | hfull
      · right
        simpa [hfree, isCancelled, Option.any_eq_true] using hnot
      · exact .inl (.inr hfull)

/-- When no task gets a slot, time goes on only if none could. -/
theorem settled_of_lt {later : Duration} (h : p.grant? slots cancel = none)
    (hlater : ∀ time ∈ cancel, later ≤ time) (hlt : p.now < later) : p.Settled slots := by
  rcases settled_of_grant? h with hsettled | ⟨time, htime, hcome⟩
  · exact hsettled
  · exact absurd (Nat.le_trans (hlater time htime) hcome) (Nat.not_le.mpr hlt)

theorem fairStep_of_next? (hreaches : Reaches slots cancel (start tasks) p)
    (h : p.next? slots cancel = some q) : p.FairStep slots cancel q := by
  rcases next?_cases h with hgrant | ⟨hgrant, hcomplete⟩ | ⟨hgrant, hcomplete, hcancel⟩
  · obtain ⟨t, rest, hwaiting, hfree, hnot, rfl⟩ := grant?_eq_some hgrant
    exact .grant t rest hwaiting hfree
      (fun time htime => Nat.le_of_lt (lt_of_isCancelled hnot time htime))
      (hreaches.undisturbed_of_isCancelled hnot)
  · obtain ⟨r, rest, hruns, hfirst, hearly, rfl⟩ := complete?_eq_some hcomplete
    exact .complete r rest hruns hfirst hearly (settled_of_lt hgrant hearly)
  · obtain ⟨time, rfl, hends⟩ := cancel?_eq_some hcancel
    have hlate : ∀ u ∈ p.running, time ≤ u.finish := late_of_complete? hcomplete
    have hsettled : p.now < time → p.Settled slots := settled_of_lt hgrant (by simp)
    obtain ⟨r, rest, hrunning, rfl⟩ | ⟨t, rest, hwaiting, rfl⟩ := hends
    · exact .stop time r rest rfl (hrunning ▸ .refl _) hlate hsettled
    · exact .prevent time t rest rfl (hwaiting ▸ .refl _) hlate hsettled

private theorem fairReaches_steps (count : Nat) :
    ∀ p : Phase, FairReaches slots cancel (start tasks) p →
      FairReaches slots cancel (start tasks) (p.steps slots cancel count) := by
  induction count with
  | zero =>
      intro p h
      exact h
  | succ count ih =>
      intro p h
      cases hnext : p.next? slots cancel with
      | none =>
          simp only [steps, hnext]
          exact h
      | some q =>
          simp only [steps, hnext]
          exact ih q (h.tail (fairStep_of_next? (FairReaches.reaches h) hnext))

/-- The run of a phase is fair. -/
theorem fairReaches_run (tasks : List BucketTask) (slots : Nat) (cancel : Option Duration) :
    FairReaches slots cancel (start tasks) ((start tasks).run slots cancel) :=
  fairReaches_steps _ _ .refl

end Run

end Phase

end CiPlan
