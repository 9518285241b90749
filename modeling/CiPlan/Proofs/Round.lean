import CiPlan.Proofs.Hearing

/-!
# What happens in a round

A round of the leak check asks about its targets one after the other, and hands a listing that it had
on to the later targets with the same key.  All that a round knows at some point follows from the
queries it has made so far: `roundAfter` says how.  So a round is described by the list of its
queries, and the statements about `ask` and `askAll` say how the list grows:

* `ask_known`, `ask_new` — one target either hears what is known or adds one query;
* `askAll_roundAfter` — a whole round makes one query for each key of a target that is not done, and
  each of these targets hears what the query for its key showed.

`Asked` says of a list of queries that the client was asked for all of them, one after the other.
-/

namespace CiPlan

/-- The key of a query is that of its profile. -/
def Query.key (q : Query) : QueryKey := .of q.profile

/-- A query is about a target: it is made for it, or for one with the same command and environment. -/
def Query.IsAbout (q : Query) (p : Profile) : Prop :=
  q.profile.statusCommand = p.statusCommand ∧ q.profile.env = p.env ∧
    q.profile.secretEnv = p.secretEnv

instance (q : Query) (p : Profile) : Decidable (q.IsAbout p) :=
  inferInstanceAs (Decidable (_ ∧ _))

theorem Query.isAbout_iff (q : Query) (p : Profile) : q.IsAbout p ↔ q.key = .of p := by
  rw [IsAbout, key, QueryKey.of, QueryKey.of, QueryKey.mk.injEq]

namespace LeakChecker

/-! ## Single queries -/

section Query

variable (c : LeakChecker) (r : Round) (p : Profile)

/-- A query either holds the answer of the client, or it was stopped at the time limit. -/
theorem query_cases :
    ((c.client r.queries p r.now).delay ≤ c.policy.queryTimeout ∧
      c.query r p = ⟨r.number, p, r.now, r.now + (c.client r.queries p r.now).delay,
        (c.client r.queries p r.now).answer⟩) ∨
    (c.policy.queryTimeout < (c.client r.queries p r.now).delay ∧
      c.query r p = ⟨r.number, p, r.now, r.now + c.policy.queryTimeout, .error (.timeout p.name
        (UInt64.ofNat (Duration.wholeSecs c.policy.queryTimeout)))⟩) := by
  by_cases hle : (c.client r.queries p r.now).delay ≤ c.policy.queryTimeout
  · exact .inl ⟨hle, if_pos hle⟩
  · exact .inr ⟨Nat.lt_of_not_le hle, if_neg hle⟩

@[simp]
theorem round_query : (c.query r p).round = r.number := by
  rcases c.query_cases r p with ⟨-, h⟩ | ⟨-, h⟩ <;> rw [h]

@[simp]
theorem profile_query : (c.query r p).profile = p := by
  rcases c.query_cases r p with ⟨-, h⟩ | ⟨-, h⟩ <;> rw [h]

@[simp]
theorem start_query : (c.query r p).start = r.now := by
  rcases c.query_cases r p with ⟨-, h⟩ | ⟨-, h⟩ <;> rw [h]

/-- A query takes its time. -/
theorem now_le_finish_query : r.now ≤ (c.query r p).finish := by
  rcases c.query_cases r p with ⟨-, h⟩ | ⟨-, h⟩ <;> rw [h] <;> exact Nat.le_add_right ..

/-- The listing of a query is what the client answered within the time limit. -/
theorem reply_of_answer_query {listing : String} (h : (c.query r p).answer = .ok listing) :
    (c.client r.queries p r.now).answer = .ok listing ∧
      (c.client r.queries p r.now).delay ≤ c.policy.queryTimeout := by
  rcases c.query_cases r p with ⟨hle, hquery⟩ | ⟨-, hquery⟩
  · rw [hquery] at h
    exact ⟨h, hle⟩
  · rw [hquery] at h
    cases h

end Query

/-- The client was asked for these queries, latest first, each after the end of the ones before. -/
inductive Asked (c : LeakChecker) : List Query → Prop
  | nil : c.Asked []
  | cons (r : Round) (p : Profile) (asked : c.Asked r.queries)
      (past : ∀ q ∈ r.queries, q.finish ≤ r.now) : c.Asked (c.query r p :: r.queries)

/-- Each query was made after the ones before it. -/
theorem Asked.exists_query {c : LeakChecker} {queries : List Query} (h : c.Asked queries)
    {later earlier : List Query} {q : Query} (hsplit : queries = later ++ q :: earlier) :
    ∃ r p, r.queries = earlier ∧ (∀ u ∈ earlier, u.finish ≤ r.now) ∧ q = c.query r p := by
  induction h generalizing later with
  | nil => cases later <;> cases hsplit
  | cons r p _ past ih =>
      cases later with
      | nil =>
          cases hsplit
          exact ⟨r, p, rfl, past, rfl⟩
      | cons u later => exact ih (List.cons.inj hsplit).2

/-- The client gave the listing of a query within the time limit, after the queries before. -/
theorem Asked.reply {c : LeakChecker} {queries : List Query} (h : c.Asked queries) {q : Query}
    (hq : q ∈ queries) {listing : String} (hanswer : q.answer = .ok listing) :
    ∃ later earlier, queries = later ++ q :: earlier ∧
      (c.client earlier q.profile q.start).answer = .ok listing ∧
      (c.client earlier q.profile q.start).delay ≤ c.policy.queryTimeout := by
  obtain ⟨later, earlier, hsplit⟩ := List.append_of_mem hq
  obtain ⟨r, p, rfl, -, rfl⟩ := h.exists_query hsplit
  refine ⟨later, r.queries, hsplit, ?_⟩
  rw [profile_query, start_query]
  exact c.reply_of_answer_query r p hanswer

/-- A query of the client after earlier queries, latest first, under a time limit in seconds. -/
structure Answered (client : StatusClient) (limitSecs : UInt64) (earlier : List Query)
    (q : Query) : Prop where
  /-- It was made when the queries before had ended. -/
  past : ∀ u ∈ earlier, u.finish ≤ q.start
  /-- What the client answers within the time limit is the answer, as soon as it is there. -/
  inTime : (client earlier q.profile q.start).delay ≤ .ofSecs limitSecs →
    q.answer = (client earlier q.profile q.start).answer ∧
      q.finish = q.start + (client earlier q.profile q.start).delay
  /-- Otherwise the query fails at the time limit. -/
  late : .ofSecs limitSecs < (client earlier q.profile q.start).delay →
    q.answer = .error (.timeout q.profile.name limitSecs) ∧
      q.finish = q.start + .ofSecs limitSecs

theorem wholeSecs_ofSecs (secs : UInt64) :
    UInt64.ofNat (Duration.ofSecs secs).wholeSecs = secs := by
  rw [Duration.wholeSecs, Duration.ofSecs, Nat.mul_div_cancel _ (by decide), UInt64.ofNat_toNat]

/-- Every query was answered by the client or stopped at the time limit. -/
theorem Asked.answered {c : LeakChecker} {queries : List Query} (h : c.Asked queries)
    {limitSecs : UInt64} (hlimit : c.policy.queryTimeout = .ofSecs limitSecs)
    {later earlier : List Query} {q : Query} (hsplit : queries = later ++ q :: earlier) :
    Answered c.client limitSecs earlier q := by
  obtain ⟨r, p, rfl, past, rfl⟩ := h.exists_query hsplit
  have hcases := c.query_cases r p
  rw [hlimit, wholeSecs_ofSecs] at hcases
  refine ⟨?past, ?inTime, ?late⟩
  case past =>
    rw [start_query]
    exact past
  case inTime =>
    rw [profile_query, start_query]
    intro hle
    obtain ⟨-, hquery⟩ | ⟨hlt, -⟩ := hcases
    · rw [hquery]
      exact ⟨rfl, rfl⟩
    · exact absurd hle (Nat.not_le.mpr hlt)
  case late =>
    rw [profile_query, start_query]
    intro hlt
    obtain ⟨hle, -⟩ | ⟨-, hquery⟩ := hcases
    · exact absurd hlt (Nat.not_lt.mpr hle)
    · rw [hquery]
      exact ⟨rfl, rfl⟩

/-! ## What was found out for a key -/

/-- The queries for a key, in their order. -/
def queriesFor (key : QueryKey) (queries : List Query) : List Query :=
  queries.filter fun q => q.key = key

/-- The queries about a target are those for its key. -/
theorem filter_isAbout (queries : List Query) (p : Profile) :
    queries.filter (fun q => q.IsAbout p) = queriesFor (.of p) queries :=
  List.filter_congr fun q _ => decide_eq_decide.mpr (q.isAbout_iff p)

/-- What the queries for a key showed, in the order of the queries. -/
def answersTo (c : LeakChecker) (key : QueryKey) (queries : List Query) : List Finding :=
  (queriesFor key queries).map c.finding

section Answers

variable {key : QueryKey}

theorem queriesFor_append (new old : List Query) :
    queriesFor key (new ++ old) = queriesFor key new ++ queriesFor key old :=
  List.filter_append ..

/-- Without a query for the key nothing was found out. -/
theorem queriesFor_eq_nil {queries : List Query} (h : key ∉ queries.map Query.key) :
    queriesFor key queries = [] := by
  rw [queriesFor, List.filter_eq_nil_iff]
  intro q hq hkey
  exact h (List.mem_map.mpr ⟨q, hq, of_decide_eq_true hkey⟩)

theorem queriesFor_eq_singleton {queries : List Query} (hnodup : (queries.map Query.key).Nodup)
    {q : Query} (hq : q ∈ queries) (hkey : q.key = key) : queriesFor key queries = [q] := by
  induction queries with
  | nil => cases hq
  | cons u queries ih =>
      rw [List.map_cons, List.nodup_cons] at hnodup
      rw [← List.singleton_append, queriesFor_append]
      rcases List.mem_cons.mp hq with rfl | hq
      · have hrest : queriesFor key queries = [] := queriesFor_eq_nil (hkey ▸ hnodup.1)
        rw [hrest, List.append_nil]
        simp [queriesFor, hkey]
      · have hne : key ∉ [u].map Query.key := by
          intro hmem
          simp only [List.map_cons, List.map_nil, List.mem_singleton] at hmem
          exact hnodup.1 (List.mem_map.mpr ⟨q, hq, hkey.trans hmem⟩)
        rw [queriesFor_eq_nil hne, List.nil_append]
        exact ih hnodup.2 hq

variable (c : LeakChecker)

theorem answersTo_append (new old : List Query) :
    c.answersTo key (new ++ old) = c.answersTo key new ++ c.answersTo key old := by
  rw [answersTo, queriesFor_append, List.map_append, answersTo, answersTo]

theorem answersTo_reverse (queries : List Query) :
    c.answersTo key queries.reverse = (c.answersTo key queries).reverse := by
  rw [answersTo, answersTo, queriesFor, queriesFor, List.filter_reverse, List.map_reverse]

/-- What is looked up for a key is the first answer to it. -/
theorem lookup_findings (queries : List Query) :
    (queries.map fun q => (q.key, c.finding q)).lookup key = (c.answersTo key queries).head? := by
  induction queries with
  | nil => rfl
  | cons q queries ih =>
      rw [List.map_cons, List.lookup_cons, ih]
      by_cases hkey : q.key = key
      · simp [answersTo, queriesFor, hkey]
      · have hne : (key == q.key) = false := by
          simpa using Ne.symm hkey
        simp [answersTo, queriesFor, hkey, hne]

end Answers

/-! ## The round as a function of its queries -/

section Round

variable (c : LeakChecker) (number : Nat) (now : Duration) (old : List Query)

/-- What is known after the queries `new` of a round, latest first.  The round began at `now`, after
the queries `old`. -/
def roundAfter (new : List Query) : Round where
  number := number
  now := (new.head?.map (·.finish)).getD now
  queries := new ++ old
  findings := new.map fun q => (q.key, c.finding q)
  failed := new.any fun q => !(c.finding q).isOk

/-- A target hears what is known for its key. -/
theorem ask_known {new : List Query} {p : Profile} {q : Query} (hq : q ∈ new)
    (hnodup : (new.map Query.key).Nodup) (hkey : q.key = .of p) :
    c.ask (c.roundAfter number now old new) p = (c.roundAfter number now old new, c.finding q) := by
  have hlookup : (c.roundAfter number now old new).findings.lookup (.of p) = some (c.finding q) := by
    show (new.map fun q => (q.key, c.finding q)).lookup (.of p) = _
    rw [lookup_findings, answersTo, queriesFor_eq_singleton hnodup hq hkey]
    rfl
  -- The failure of a shared answer was noted when the answer came.
  have hfailed : ((c.roundAfter number now old new).failed || !(c.finding q).isOk) =
      (c.roundAfter number now old new).failed := by
    show (new.any (fun q => !(c.finding q).isOk) || !(c.finding q).isOk) =
      new.any fun q => !(c.finding q).isOk
    by_cases hok : (c.finding q).isOk = true
    · simp [hok]
    · have hany : new.any (fun q => !(c.finding q).isOk) = true :=
        List.any_eq_true.mpr ⟨q, hq, by simpa using hok⟩
      simp [hany]
  rw [ask, hlookup]
  simp only [hfailed]

/-- For a key of which nothing is known there is one more query. -/
theorem ask_new {new : List Query} {p : Profile} (hkey : .of p ∉ new.map Query.key) :
    c.ask (c.roundAfter number now old new) p =
      (c.roundAfter number now old (c.query (c.roundAfter number now old new) p :: new),
        c.finding (c.query (c.roundAfter number now old new) p)) := by
  have hlookup : (c.roundAfter number now old new).findings.lookup (.of p) = none := by
    show (new.map fun q => (q.key, c.finding q)).lookup (.of p) = _
    rw [lookup_findings, answersTo, queriesFor_eq_nil hkey]
    rfl
  rw [ask, hlookup]
  simp [roundAfter, Query.key, Bool.or_comm]

/-- The queries `new` are those of a round that began at `now` after the queries `old`. -/
structure IsRound (new : List Query) : Prop where
  asked : c.Asked (new ++ old)
  past : ∀ q ∈ new ++ old, q.finish ≤ (c.roundAfter number now old new).now
  /-- The round asks once for each key. -/
  nodup : (new.map Query.key).Nodup
  round : ∀ q ∈ new, q.round = number
  now_le : now ≤ (c.roundAfter number now old new).now

theorem isRound_nil (asked : c.Asked old) (past : ∀ q ∈ old, q.finish ≤ now) :
    c.IsRound number now old [] :=
  ⟨asked, past, by simp, by simp, Nat.le_refl now⟩

variable {c number now old}

/-- A round goes on with a query for another key. -/
theorem IsRound.cons {new : List Query} (h : c.IsRound number now old new) {p : Profile}
    (hkey : .of p ∉ new.map Query.key) :
    c.IsRound number now old (c.query (c.roundAfter number now old new) p :: new) := by
  have hfinish := c.now_le_finish_query (c.roundAfter number now old new) p
  have hnow : (c.roundAfter number now old
      (c.query (c.roundAfter number now old new) p :: new)).now =
        (c.query (c.roundAfter number now old new) p).finish := rfl
  refine ⟨?asked, ?past, ?nodup, ?round, ?now_le⟩
  case asked => exact Asked.cons (c.roundAfter number now old new) p h.asked h.past
  case past =>
    intro q hq
    rw [hnow]
    rcases List.mem_cons.mp hq with rfl | hq
    · exact Nat.le_refl _
    · exact Nat.le_trans (h.past q hq) hfinish
  case nodup =>
    rw [List.map_cons, List.nodup_cons, Query.key, profile_query]
    exact ⟨hkey, h.nodup⟩
  case round =>
    intro q hq
    rcases List.mem_cons.mp hq with rfl | hq
    · rw [round_query]
      rfl
    · exact h.round q hq
  case now_le =>
    rw [hnow]
    exact Nat.le_trans h.now_le hfinish

/-- What a target that is not done makes of the answers of a round. -/
def heard (c : LeakChecker) (new : List Query) (p : Pending) : Pending :=
  if p.isDone then p else p.hearAll (c.answersTo (.of p.profile) new)

/-- A target that is not done hears the answer for its key. -/
theorem heard_eq_hear {new : List Query} (h : c.IsRound number now old new) {p : Pending}
    (hdone : p.isDone = false) {q : Query} (hq : q ∈ new) (hkey : q.key = .of p.profile) :
    c.heard new p = p.hear (c.finding q) := by
  rw [heard, if_neg (by simp [hdone]), answersTo, queriesFor_eq_singleton h.nodup hq hkey]
  rfl

/-- Asking about one target keeps the round, and the round has a query for its key then. -/
theorem IsRound.ask {new : List Query} (h : c.IsRound number now old new) (p : Profile) :
    ∃ more q, c.IsRound number now old (more ++ new) ∧ q ∈ more ++ new ∧ q.key = .of p ∧
      (∀ u ∈ more, u.key = .of p) ∧
      c.ask (c.roundAfter number now old new) p =
        (c.roundAfter number now old (more ++ new), c.finding q) := by
  by_cases hkey : .of p ∈ new.map Query.key
  · obtain ⟨q, hq, heq⟩ := List.mem_map.mp hkey
    exact ⟨[], q, h, hq, heq, by simp, c.ask_known number now old hq h.nodup heq⟩
  · refine ⟨[c.query (c.roundAfter number now old new) p],
      c.query (c.roundAfter number now old new) p, h.cons hkey, by simp, ?_, ?_,
      c.ask_new number now old hkey⟩
    · rw [Query.key, profile_query]
    · intro u hu
      rw [List.mem_singleton.mp hu, Query.key, profile_query]

/-- The targets that are not done are asked about, each key once, and each hears the answer for its
key. -/
theorem askAll_roundAfter (pending : List Pending) :
    ∀ new, c.IsRound number now old new →
      ∃ more, c.IsRound number now old (more ++ new) ∧
        c.askAll (c.roundAfter number now old new) pending =
          (c.roundAfter number now old (more ++ new), pending.map (c.heard (more ++ new))) ∧
        (∀ p ∈ pending, p.isDone = false → ∃ q ∈ more ++ new, q.key = .of p.profile) ∧
        ∀ q ∈ more, ∃ p ∈ pending, p.isDone = false ∧ q.key = .of p.profile := by
  induction pending with
  | nil =>
      intro new h
      exact ⟨[], h, rfl, by simp, by simp⟩
  | cons p pending ih =>
      intro new h
      cases hdone : p.isDone with
      | true =>
          obtain ⟨more, hround, hask, hall, honly⟩ := ih new h
          refine ⟨more, hround, ?_, ?_, ?_⟩
          · rw [askAll, if_pos hdone, hask, List.map_cons, heard, if_pos hdone]
          · intro u hu hudone
            rcases List.mem_cons.mp hu with rfl | hu
            · rw [hdone] at hudone
              cases hudone
            · exact hall u hu hudone
          · intro q hq
            obtain ⟨u, hu, hudone, hkey⟩ := honly q hq
            exact ⟨u, List.mem_cons_of_mem p hu, hudone, hkey⟩
      | false =>
          obtain ⟨one, q, hone, hq, hkey, hsame, hask⟩ := h.ask p.profile
          obtain ⟨more, hround, hrest, hall, honly⟩ := ih (one ++ new) hone
          rw [← List.append_assoc] at hround hrest hall
          have hqmem : q ∈ more ++ one ++ new := by
            rw [List.append_assoc]
            exact List.mem_append_right more hq
          refine ⟨more ++ one, hround, ?_, ?_, ?_⟩
          · rw [askAll, if_neg (by simp [hdone]), hask]
            simp only [hrest, List.map_cons, heard_eq_hear hround hdone hqmem hkey]
          · intro u hu hudone
            rcases List.mem_cons.mp hu with rfl | hu
            · exact ⟨q, hqmem, hkey⟩
            · exact hall u hu hudone
          · intro u hu
            rcases List.mem_append.mp hu with hu | hu
            · obtain ⟨v, hv, hvdone, hvkey⟩ := honly u hu
              exact ⟨v, List.mem_cons_of_mem p hv, hvdone, hvkey⟩
            · exact ⟨p, List.mem_cons_self, hdone, hsame u hu⟩

/-- What is known at the end of a round, by its queries. -/
theorem exists_isRound {pending pending' : List Pending} {r : Round} (asked : c.Asked old)
    (past : ∀ q ∈ old, q.finish ≤ now)
    (hask : c.askAll ⟨number, now, old, [], false⟩ pending = (r, pending')) :
    ∃ new, c.IsRound number now old new ∧ r = c.roundAfter number now old new ∧
      pending' = pending.map (c.heard new) ∧
      (∀ p ∈ pending, p.isDone = false → ∃ q ∈ new, q.key = .of p.profile) ∧
      ∀ q ∈ new, ∃ p ∈ pending, p.isDone = false ∧ q.key = .of p.profile := by
  obtain ⟨new, hround, hall, hevery, honly⟩ :=
    askAll_roundAfter pending [] (c.isRound_nil number now old asked past)
  rw [List.append_nil] at hround hall hevery
  obtain ⟨hr, hpending⟩ := Prod.mk.inj (hask.symm.trans hall)
  exact ⟨new, hround, hr, hpending, hevery, honly⟩

end Round

end LeakChecker

end CiPlan
