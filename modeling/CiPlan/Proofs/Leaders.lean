import CiPlan.Proofs.Budget

/-!
# Who is asked about

A round of a leak check makes one query for all targets with one key.  `leaders` are the profiles that
it should then ask about: of the targets that are not done, the first one of each key, in order.  They
are the ones that it does ask about (`askAll_leaders`).

Which targets are not done before a round can be seen from the queries before it: they are the targets
that are due (`dueIn`), whose key had no answer that shows nothing leaked.  A key gets another leader
when its leader is done and a later target is not, so what has to be kept from round to round is that
targets with one key are done together.  That is `Underway.dueIn_eq`; the calls of the whole check
follow (`check_calls`).
-/

namespace CiPlan

/-- The first of some targets for each key. -/
def leaders (targets : List Profile) : List Profile :=
  targets.eraseDupsBy fun p q => QueryKey.of p == QueryKey.of q

@[simp]
theorem leaders_nil : leaders [] = [] :=
  rfl

/-- A target stands for those with its key behind it. -/
theorem leaders_cons (p : Profile) (targets : List Profile) :
    leaders (p :: targets) = p :: leaders (targets.filter fun q => .of q ≠ QueryKey.of p) := by
  rw [leaders, List.eraseDupsBy_cons, leaders]
  congr 3
  funext q
  by_cases h : QueryKey.of q = .of p <;> simp [h]

namespace LeakChecker

/-! ## One round -/

/-- The profiles of the targets that are not done. -/
def waiting (pending : List Pending) : List Profile :=
  (pending.filter fun p => !p.isDone).map (·.profile)

theorem waiting_cons_of_isDone {p : Pending} (h : p.isDone = true) (pending : List Pending) :
    waiting (p :: pending) = waiting pending := by
  simp [waiting, h]

theorem waiting_cons_of_not_isDone {p : Pending} (h : p.isDone = false) (pending : List Pending) :
    waiting (p :: pending) = p.profile :: waiting pending := by
  simp [waiting, h]

section Round

variable {c : LeakChecker} {number : Nat} {now : Duration} {old : List Query}

/-- A round asks about the leaders of the targets that wait and whose key is not yet known. -/
theorem askAll_leaders (pending : List Pending) :
    ∀ new, c.IsRound number now old new →
      ∃ more, (c.askAll (c.roundAfter number now old new) pending).1 =
          c.roundAfter number now old (more ++ new) ∧
        more.reverse.map (·.profile) =
          leaders ((waiting pending).filter fun p => .of p ∉ new.map Query.key) := by
  induction pending with
  | nil =>
      intro new _
      exact ⟨[], rfl, rfl⟩
  | cons p pending ih =>
      intro new h
      cases hdone : p.isDone with
      | true =>
          rw [askAll, if_pos hdone, waiting_cons_of_isDone hdone]
          exact ih new h
      | false =>
          rw [askAll, if_neg (by simp [hdone]), waiting_cons_of_not_isDone hdone]
          by_cases hkey : .of p.profile ∈ new.map Query.key
          · obtain ⟨q, hq, heq⟩ := List.mem_map.mp hkey
            rw [c.ask_known number now old hq h.nodup heq,
              List.filter_cons_of_neg (by simpa using hkey)]
            exact ih new h
          · obtain ⟨more, hall, hmore⟩ := ih _ (h.cons hkey)
            rw [c.ask_new number now old hkey, List.filter_cons_of_pos (by simpa using hkey),
              leaders_cons, List.filter_filter]
            refine ⟨more ++ [c.query (c.roundAfter number now old new) p.profile], ?_, ?_⟩
            · rw [List.append_assoc]
              exact hall
            · rw [List.reverse_append, List.map_append, hmore, List.reverse_singleton,
                List.map_singleton, List.singleton_append, profile_query]
              congr 3
              funext u
              simp [Query.key, eq_comm]

end Round

/-! ## The rounds of a check -/

/-- The targets of which no query before a round has shown that nothing is left. -/
def dueIn (c : LeakChecker) (targets : List Profile) (queries : List Query) (number : Nat) :
    List Profile :=
  targets.filter fun p =>
    .ok [] ∉ c.answersTo (.of p) (queries.filter fun q => q.round < number)

section Due

variable {c : LeakChecker} {targets : List Profile} {number : Nat} {now : Duration}
  {queries : List Query} {pending : List Pending}

theorem dueIn_reverse (c : LeakChecker) (targets : List Profile) (queries : List Query)
    (number : Nat) : c.dueIn targets queries.reverse number = c.dueIn targets queries number := by
  simp only [dueIn, List.filter_reverse, answersTo_reverse, List.mem_reverse]

/-- Queries of a round do not count for the targets that were due in it or before. -/
theorem dueIn_append {new : List Query} (hnew : ∀ q ∈ new, number ≤ q.round)
    (old : List Query) {n : Nat} (hn : n ≤ number) :
    c.dueIn targets (new ++ old) n = c.dueIn targets old n := by
  have hnone : new.filter (fun q => q.round < n) = [] := by
    rw [List.filter_eq_nil_iff]
    intro q hq
    simpa using Nat.le_trans hn (hnew q hq)
  rw [dueIn, List.filter_append, hnone, List.nil_append, dueIn]

/-- The targets that are due in a round are those that wait when it begins. -/
theorem Underway.dueIn_eq (h : c.Underway targets number now queries pending) :
    c.dueIn targets queries number = waiting pending := by
  have hall : queries.filter (fun q => q.round < number) = queries := by
    rw [List.filter_eq_self]
    intro q hq
    simpa using h.round_lt q hq
  rw [dueIn, hall, waiting, h.before.pending, List.filter_map, List.map_map]
  have hprofile : (fun p : Profile =>
      ((Pending.start p).hearAll (c.answersTo (.of p) queries)).profile) = id :=
    funext fun p => Pending.profile_hearAll ..
  show _ = List.map (fun p => ((Pending.start p).hearAll (c.answersTo (.of p) queries)).profile) _
  rw [hprofile, List.map_id]
  refine List.filter_congr fun p _ => ?_
  show _ = !((Pending.start p).hearAll (c.answersTo (.of p) queries)).isDone
  by_cases hclean : .ok [] ∈ c.answersTo (.of p) queries
  · simp [hclean, (Pending.isDone_start_hearAll p _).mpr hclean]
  · have hdone : ¬ ((Pending.start p).hearAll (c.answersTo (.of p) queries)).isDone = true :=
      fun h => hclean ((Pending.isDone_start_hearAll p _).mp h)
    simp [hclean, hdone]

/-- Before a round: each earlier round has asked about the leaders of the targets that were due. -/
structure Led (c : LeakChecker) (targets : List Profile) (number : Nat) (now : Duration)
    (queries : List Query) (pending : List Pending) : Prop where
  underway : c.Underway targets number now queries pending
  number_pos : 1 ≤ number
  round_pos : ∀ q ∈ queries, 1 ≤ q.round
  calls : ∀ n, 1 ≤ n → n < number →
    (queries.reverse.filter fun q => q.round = n).map (·.profile) =
      leaders (c.dueIn targets queries n)

theorem led_start (c : LeakChecker) (targets : List Profile) (now : Duration) :
    c.Led targets 1 now [] (targets.map Pending.start) :=
  ⟨c.underway_start targets now, Nat.le_refl 1, by simp, fun n _ hlt => by omega⟩

theorem Led.next {pending' : List Pending} {r : Round} (h : c.Led targets number now queries pending)
    (hask : c.askAll ⟨number, now, queries, [], false⟩ pending = (r, pending')) :
    ∀ later, r.now ≤ later → c.Led targets (number + 1) later r.queries pending' := by
  intro later hlater
  obtain ⟨new, hround, hr, -⟩ :=
    exists_isRound h.underway.before.asked h.underway.before.past hask
  obtain ⟨new', hall', hleaders⟩ := askAll_leaders pending []
    (c.isRound_nil number now queries h.underway.before.asked h.underway.before.past)
  rw [List.append_nil] at hall'
  have hqueries : r.queries = new ++ queries := congrArg Round.queries hr
  -- Both descriptions of the round are about the same queries.
  have hnew : new' = new := by
    have hsame : (c.roundAfter number now queries new').queries = r.queries :=
      congrArg Round.queries (hall'.symm.trans (congrArg Prod.fst hask))
    exact List.append_cancel_right (hsame.trans hqueries)
  rw [hnew] at hleaders
  have hlate : ∀ q ∈ new, number ≤ q.round := fun q hq => Nat.le_of_eq (hround.round q hq).symm
  refine ⟨h.underway.next hask later hlater, Nat.succ_pos _, ?round_pos, ?calls⟩
  case round_pos =>
    intro q hq
    rw [hqueries] at hq
    rcases List.mem_append.mp hq with hq | hq
    · exact Nat.le_trans h.number_pos (hlate q hq)
    · exact h.round_pos q hq
  case calls =>
    intro n hpos hlt
    rw [hqueries, dueIn_append hlate queries (Nat.le_of_lt_succ hlt), List.reverse_append,
      List.filter_append, List.map_append]
    rcases Nat.lt_succ_iff_lt_or_eq.mp hlt with hbefore | rfl
    · have hnone : new.reverse.filter (fun q => q.round = n) = [] := by
        rw [List.filter_eq_nil_iff]
        intro q hq
        have := hlate q (List.mem_reverse.mp hq)
        simp only [decide_eq_true_eq]
        omega
      rw [hnone, List.map_nil, List.append_nil]
      exact h.calls n hpos hbefore
    · have hold : queries.reverse.filter (fun q => q.round = n) = [] := by
        rw [List.filter_eq_nil_iff]
        intro q hq
        have := h.underway.round_lt q (List.mem_reverse.mp hq)
        simp only [decide_eq_true_eq]
        omega
      have hself : new.reverse.filter (fun q => q.round = n) = new.reverse := by
        rw [List.filter_eq_self]
        intro q hq
        simpa using hround.round q (List.mem_reverse.mp hq)
      rw [hold, hself, List.map_nil, List.nil_append, hleaders, h.underway.dueIn_eq]
      simp

/-- In each round of a check the client is asked about the leaders of the targets that are due. -/
theorem check_calls (hvalid : c.policy.IsValid) (targets : List Profile) :
    ∃ last, 1 ≤ last ∧ (∀ q ∈ (c.check targets).queries, 1 ≤ q.round ∧ q.round ≤ last) ∧
      ∀ n, 1 ≤ n → n ≤ last →
        ((c.check targets).queries.filter fun q => q.round = n).map (·.profile) =
          leaders (c.dueIn targets (c.check targets).queries n) := by
  obtain ⟨last, r, pending, hle, hrun, hend, -⟩ := rounds_rule
    (Nat.lt_of_lt_of_le hvalid.interval_pos hvalid.interval_le) (c.Led targets)
    (fun hinv hask => hinv.next hask) (c.policy.maxWait + 1) 1 (c.firstStart targets)
    c.policy.pollInterval [] (targets.map Pending.start)
    (Nat.le_succ_of_le (Nat.sub_le ..)) hvalid.interval_pos (c.led_start targets _)
  have hqueries : (c.check targets).queries = r.queries.reverse := by
    rw [firstStart] at hrun
    rw [check, hrun]
  rw [hqueries]
  refine ⟨last, hle, ?_, ?_⟩
  · intro q hq
    have hmem := List.mem_reverse.mp hq
    exact ⟨hend.round_pos q hmem, Nat.le_of_lt_succ (hend.underway.round_lt q hmem)⟩
  · intro n hpos hn
    rw [dueIn_reverse]
    exact hend.calls n hpos (Nat.lt_succ_of_le hn)

end Due

end LeakChecker

end CiPlan
