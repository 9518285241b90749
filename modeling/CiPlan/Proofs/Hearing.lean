import CiPlan.Leak.Poll
import Mathlib.Data.List.Induction

/-!
# What a target makes of its answers

During the leak check a target keeps the last leak that it heard of, the last failure, and whether
it was found clean.  `Pending.hearAll` is a target after a list of answers; the statements about it
say what it has kept, and `isExact_conclusion` says that its verdict is then the right one for the
answers, provided that they end with the first one that shows nothing leaked.

What a target hears is what the check has read in a listing.  `LeakVerdict.Follows` judges a verdict
against the listings and failures themselves, given the leaked resources of a listing;
`LeakVerdict.IsExact.follows` leads from the one to the other.

Lists of answers that are heard stand with the latest one first, as the queries of a check do.  A
verdict is judged against the answers in their order.
-/

namespace CiPlan

namespace Finding

/-- The leaked resources that an answer shows, if it shows some. -/
def leaks? : Finding → Option (List Resource)
  | .ok (r :: resources) => some (r :: resources)
  | _ => none

/-- Why there is no listing. -/
def error? : Finding → Option String
  | .error reason => some reason
  | .ok _ => none

theorem eq_of_leaks? {a : Finding} {resources : List Resource} (h : a.leaks? = some resources) :
    a = .ok resources ∧ resources ≠ [] := by
  unfold leaks? at h
  split at h
  · cases h
    exact ⟨rfl, by simp⟩
  · cases h

/-- An answer that shows neither a leak nor its absence is a failure. -/
theorem isOk_eq_false {a : Finding} (hleaks : a.leaks? = none) (hclean : a ≠ .ok []) :
    a.isOk = false := by
  cases a with
  | error reason => rfl
  | ok resources =>
      cases resources with
      | nil => exact absurd rfl hclean
      | cons r resources => cases hleaks

end Finding

namespace Pending

/-- A target that hears answers, the one that is listed last first. -/
def hearAll (p : Pending) (answers : List Finding) : Pending :=
  answers.foldr (fun answer p => p.hear answer) p

section Hear

variable (p : Pending) (a : Finding)

@[simp]
theorem profile_hear : (p.hear a).profile = p.profile := by
  unfold hear
  split <;> rfl

@[simp]
theorem queries_hear : (p.hear a).queries = p.queries + 1 := by
  unfold hear
  split <;> rfl

theorem verdict_hear : (p.hear a).verdict = if a = .ok [] then some .clean else p.verdict := by
  unfold hear
  split <;> simp_all

theorem lastLeaked_hear : (p.hear a).lastLeaked = a.leaks?.or p.lastLeaked := by
  cases a with
  | error reason => rfl
  | ok resources => cases resources <;> rfl

theorem lastError_hear : (p.hear a).lastError = a.error?.or p.lastError := by
  cases a with
  | error reason => rfl
  | ok resources => cases resources <;> rfl

end Hear

section HearAll

variable (p : Pending) (answers : List Finding)

@[simp]
theorem profile_hearAll : (p.hearAll answers).profile = p.profile := by
  induction answers with
  | nil => rfl
  | cons a answers ih =>
      show ((p.hearAll answers).hear a).profile = p.profile
      rw [profile_hear, ih]

theorem queries_hearAll : (p.hearAll answers).queries = p.queries + answers.length := by
  induction answers with
  | nil => rfl
  | cons a answers ih =>
      show ((p.hearAll answers).hear a).queries = p.queries + (answers.length + 1)
      rw [queries_hear, ih]
      omega

theorem hearAll_append (new old : List Finding) :
    p.hearAll (new ++ old) = (p.hearAll old).hearAll new := by
  rw [hearAll, hearAll, hearAll, List.foldr_append]

end HearAll

section Start

variable (p : Profile) (answers : List Finding)

/-- A target is done when some answer showed nothing leaked. -/
theorem verdict_start_hearAll :
    ((start p).hearAll answers).verdict = if .ok [] ∈ answers then some .clean else none := by
  induction answers with
  | nil => rfl
  | cons a answers ih =>
      show (((start p).hearAll answers).hear a).verdict = _
      rw [verdict_hear, ih]
      by_cases ha : a = .ok []
      · simp [ha]
      · simp [ha, Ne.symm ha]

theorem isDone_start_hearAll :
    ((start p).hearAll answers).isDone = true ↔ .ok [] ∈ answers := by
  rw [isDone, verdict_start_hearAll]
  by_cases h : .ok [] ∈ answers <;> simp [h]

/-- The leak that a target keeps is the latest one. -/
theorem lastLeaked_start_hearAll :
    ((start p).hearAll answers).lastLeaked = answers.findSome? Finding.leaks? := by
  induction answers with
  | nil => rfl
  | cons a answers ih =>
      show (((start p).hearAll answers).hear a).lastLeaked = _
      rw [lastLeaked_hear, ih, List.findSome?_cons]
      cases a.leaks? <;> rfl

/-- The failure that a target keeps is the latest one. -/
theorem lastError_start_hearAll :
    ((start p).hearAll answers).lastError = answers.findSome? Finding.error? := by
  induction answers with
  | nil => rfl
  | cons a answers ih =>
      show (((start p).hearAll answers).hear a).lastError = _
      rw [lastError_hear, ih, List.findSome?_cons]
      cases a.error? <;> rfl

theorem conclusion_start_hearAll_eq_clean_iff :
    ((start p).hearAll answers).conclusion = .clean ↔ .ok [] ∈ answers := by
  rw [conclusion, verdict_start_hearAll]
  by_cases h : .ok [] ∈ answers
  · simp [h]
  · rw [if_neg h]
    cases ((start p).hearAll answers).lastLeaked <;>
      cases ((start p).hearAll answers).lastError <;> simp [h]

end Start

end Pending

/-! ## Exact verdicts -/

/-- A verdict on a target is exact for the answers about it, in their order. -/
structure LeakVerdict.IsExact (answers : List Finding) (verdict : LeakVerdict) : Prop where
  /-- The target is clean when the last answer shows nothing leaked. -/
  clean_iff : verdict = .clean ↔ answers.getLast? = some (.ok [])
  /-- It is leaked when there were listings and each of them showed a leak. -/
  leaked_iff : (∃ resources, verdict = .leaked resources) ↔
    (∃ resources, .ok resources ∈ answers) ∧ .ok [] ∉ answers
  /-- The leak is that of the last listing; only failures follow it. -/
  leaked_eq : ∀ resources, verdict = .leaked resources → resources ≠ [] ∧
    ∃ before after, answers = before ++ .ok resources :: after ∧ ∀ a ∈ after, a.isOk = false
  /-- It is undecided when there was no listing. -/
  inconclusive_iff : (∃ reason, verdict = .inconclusive reason) ↔ ∀ a ∈ answers, a.isOk = false
  /-- The reason is the last failure. -/
  inconclusive_eq : ∀ reason, verdict = .inconclusive reason →
    answers.getLast? = some (.error reason)

/-! ## Verdicts that follow from listings and failures -/

/-- What is read in an answer, when `leaked` gives the leaked resources of a listing. -/
def Finding.ofAnswer (leaked : String → List Resource) (answer : Except LeakCheckError String) :
    Finding :=
  (answer.map leaked).mapError LeakCheckError.message

/-- A verdict on a target follows from the answers about it, in their order, when `leaked` gives the
leaked resources of a listing. -/
structure LeakVerdict.Follows (leaked : String → List Resource)
    (answers : List (Except LeakCheckError String)) (verdict : LeakVerdict) : Prop where
  /-- The target is clean when the last answer is a listing without leaked resources. -/
  clean_iff : verdict = .clean ↔
    ∃ listing, answers.getLast? = some (.ok listing) ∧ leaked listing = []
  /-- It is leaked when there were listings and each of them had leaked resources. -/
  leaked_iff : (∃ resources, verdict = .leaked resources) ↔
    (∃ listing, .ok listing ∈ answers) ∧ ∀ listing, .ok listing ∈ answers → leaked listing ≠ []
  /-- The resources are those of the last listing; only failures follow it. -/
  leaked_eq : ∀ resources, verdict = .leaked resources → resources ≠ [] ∧
    ∃ before listing after, answers = before ++ .ok listing :: after ∧
      leaked listing = resources ∧ ∀ answer ∈ after, ∃ e, answer = .error e
  /-- It is undecided when there was no listing. -/
  inconclusive_iff : (∃ reason, verdict = .inconclusive reason) ↔
    ∀ answer ∈ answers, ∃ e, answer = .error e
  /-- The reason is the last failure. -/
  inconclusive_eq : ∀ reason, verdict = .inconclusive reason →
    ∃ e, answers.getLast? = some (.error e) ∧ reason = e.message

section Follows

variable {leaked : String → List Resource} {answer : Except LeakCheckError String}

theorem Finding.ofAnswer_eq_ok_iff {resources : List Resource} :
    ofAnswer leaked answer = .ok resources ↔
      ∃ listing, answer = .ok listing ∧ leaked listing = resources := by
  cases answer <;> simp [ofAnswer, Except.map, Except.mapError]

theorem Finding.ofAnswer_eq_error_iff {reason : String} :
    ofAnswer leaked answer = .error reason ↔ ∃ e, answer = .error e ∧ e.message = reason := by
  cases answer <;> simp [ofAnswer, Except.map, Except.mapError]

theorem Finding.isOk_ofAnswer_eq_false_iff :
    (ofAnswer leaked answer).isOk = false ↔ ∃ e, answer = .error e := by
  cases answer <;> simp [ofAnswer, Except.map, Except.mapError, Except.isOk, Except.toBool]

/-- A verdict that is exact for what was read in the answers follows from the answers. -/
theorem LeakVerdict.IsExact.follows {answers : List (Except LeakCheckError String)}
    {verdict : LeakVerdict} (h : verdict.IsExact (answers.map (Finding.ofAnswer leaked))) :
    verdict.Follows leaked answers := by
  obtain ⟨hclean, hleaked, hleaks, hinconclusive, hreason⟩ := h
  simp only [List.getLast?_map, Option.map_eq_some_iff, Finding.ofAnswer_eq_ok_iff,
    Finding.ofAnswer_eq_error_iff] at hclean hreason
  refine ⟨?clean, ?leaked, ?leaked_eq, ?inconclusive, ?inconclusive_eq⟩
  case clean =>
    rw [hclean]
    constructor
    · rintro ⟨_, hlast, listing, rfl, hnone⟩
      exact ⟨listing, hlast, hnone⟩
    · rintro ⟨listing, hlast, hnone⟩
      exact ⟨_, hlast, listing, rfl, hnone⟩
  case leaked =>
    simp only [hleaked, List.mem_map, Finding.ofAnswer_eq_ok_iff]
    constructor
    · rintro ⟨⟨_, _, hmem, listing, rfl, -⟩, hnone⟩
      exact ⟨⟨listing, hmem⟩, fun other hother hempty => hnone ⟨_, hother, other, rfl, hempty⟩⟩
    · rintro ⟨⟨listing, hmem⟩, hsome⟩
      refine ⟨⟨_, _, hmem, listing, rfl, rfl⟩, ?_⟩
      rintro ⟨_, hother, other, rfl, hempty⟩
      exact hsome other hother hempty
  case leaked_eq =>
    intro resources hverdict
    obtain ⟨hne, before, after, hsplit, hafter⟩ := hleaks resources hverdict
    obtain ⟨front, rest, rfl, rfl, hrest⟩ := List.map_eq_append_iff.mp hsplit
    obtain ⟨answer, back, rfl, hanswer, rfl⟩ := List.map_eq_cons_iff.mp hrest
    obtain ⟨listing, rfl, hlisting⟩ := Finding.ofAnswer_eq_ok_iff.mp hanswer
    exact ⟨hne, front, listing, back, rfl, hlisting, fun answer hmem =>
      Finding.isOk_ofAnswer_eq_false_iff.mp (hafter _ (List.mem_map_of_mem hmem))⟩
  case inconclusive =>
    rw [hinconclusive]
    simp only [List.forall_mem_map, Finding.isOk_ofAnswer_eq_false_iff]
  case inconclusive_eq =>
    intro reason hverdict
    obtain ⟨_, hlast, e, rfl, hmessage⟩ := hreason reason hverdict
    exact ⟨e, hlast, hmessage.symm⟩

end Follows

namespace Pending

section Conclusion

variable (p : Profile) {answers : List Finding}

/-- When the last answer shows nothing leaked, the target is clean. -/
theorem isExact_of_clean (hclean : .ok [] ∈ answers) (hlast : .ok [] ∉ answers.dropLast) :
    ((start p).hearAll answers.reverse).conclusion.IsExact answers := by
  have hverdict : ((start p).hearAll answers.reverse).conclusion = .clean := by
    simp [conclusion, verdict_start_hearAll, hclean]
  have hgetLast : answers.getLast? = some (.ok []) := by
    have hne : answers ≠ [] := List.ne_nil_of_mem hclean
    rw [← List.dropLast_concat_getLast hne] at hclean
    rcases List.mem_append.mp hclean with h | h
    · exact absurd h hlast
    · rw [List.getLast?_eq_some_getLast hne, ← List.mem_singleton.mp h]
  rw [hverdict]
  refine ⟨by simp [hgetLast], by simp [hclean], by simp, ?_, by simp⟩
  constructor
  · rintro ⟨reason, h⟩
    cases h
  · intro h
    have := h _ hclean
    cases this

/-- When listings showed leaks only, the target is leaked. -/
theorem isExact_of_leaked (hclean : .ok [] ∉ answers) {resources : List Resource}
    (hleaked : answers.reverse.findSome? Finding.leaks? = some resources) :
    ((start p).hearAll answers.reverse).conclusion.IsExact answers := by
  have hverdict : ((start p).hearAll answers.reverse).conclusion = .leaked resources := by
    simp [conclusion, verdict_start_hearAll, lastLeaked_start_hearAll, hclean, hleaked]
  obtain ⟨after, a, before, hsplit, ha, hafter⟩ := List.findSome?_eq_some_iff.mp hleaked
  obtain ⟨rfl, hne⟩ := Finding.eq_of_leaks? ha
  have hanswers : answers = before.reverse ++ .ok resources :: after.reverse := by
    rw [← List.reverse_reverse answers, hsplit]
    simp
  have hmem : .ok resources ∈ answers := by
    rw [hanswers]
    simp
  have hfail : ∀ a ∈ after.reverse, a.isOk = false := by
    intro a hmemafter
    have hnot : a ≠ .ok [] := by
      rintro rfl
      exact hclean (hanswers ▸ by simp [List.mem_reverse.mp hmemafter])
    exact Finding.isOk_eq_false (hafter a (List.mem_reverse.mp hmemafter)) hnot
  rw [hverdict]
  refine ⟨?clean, ?leaked, ?leaked_eq, ?inconclusive, by simp⟩
  case clean =>
    constructor
    · intro h
      cases h
    · intro h
      exact absurd (List.mem_of_getLast? h) hclean
  case leaked => exact ⟨fun _ => ⟨⟨resources, hmem⟩, hclean⟩, fun _ => ⟨resources, rfl⟩⟩
  case leaked_eq =>
    rintro other h
    cases h
    exact ⟨hne, before.reverse, after.reverse, hanswers, hfail⟩
  case inconclusive =>
    constructor
    · rintro ⟨reason, h⟩
      cases h
    · intro h
      cases h _ hmem

/-- When every query failed, the target is undecided. -/
theorem isExact_of_inconclusive (hne : answers ≠ []) (hfail : ∀ a ∈ answers, a.isOk = false) :
    ((start p).hearAll answers.reverse).conclusion.IsExact answers := by
  have hnot : ∀ resources, .ok resources ∉ answers := by
    intro resources hmem
    cases hfail _ hmem
  obtain ⟨before, last, rfl⟩ : ∃ before last, answers = before ++ [last] :=
    ⟨_, _, (List.dropLast_concat_getLast hne).symm⟩
  rw [List.reverse_append, List.reverse_singleton, List.singleton_append]
  cases last with
  | ok resources => exact absurd (by simp) (hnot resources)
  | error reason =>
      have hleaks : (Except.error reason :: before.reverse).findSome? Finding.leaks? = none := by
        refine List.findSome?_eq_none_iff.mpr fun a ha => ?_
        cases a with
        | error reason => rfl
        | ok resources => exact absurd (by simpa using ha) (hnot resources)
      have hclean : .ok [] ∉ Except.error reason :: before.reverse := by
        simpa using hnot []
      have hverdict : ((start p).hearAll (.error reason :: before.reverse)).conclusion =
          .inconclusive reason := by
        rw [conclusion, verdict_start_hearAll, lastLeaked_start_hearAll, lastError_start_hearAll,
          if_neg hclean, hleaks]
        rfl
      rw [hverdict]
      refine ⟨by simp, ?leaked, by simp, ⟨fun _ => hfail, fun _ => ⟨reason, rfl⟩⟩, by simp⟩
      case leaked =>
        constructor
        · rintro ⟨resources, h⟩
          cases h
        · rintro ⟨⟨resources, h⟩, -⟩
          exact absurd h (hnot resources)

/-- The verdict of a target is exact, once there was an answer and when no answer follows one that
shows nothing leaked. -/
theorem isExact_conclusion (hne : answers ≠ []) (hlast : .ok [] ∉ answers.dropLast) :
    ((start p).hearAll answers.reverse).conclusion.IsExact answers := by
  by_cases hclean : .ok [] ∈ answers
  · exact isExact_of_clean p hclean hlast
  · cases hleaked : answers.reverse.findSome? Finding.leaks? with
    | some resources => exact isExact_of_leaked p hclean hleaked
    | none =>
        refine isExact_of_inconclusive p hne fun a ha => ?_
        have hnone := List.findSome?_eq_none_iff.mp hleaked a (List.mem_reverse.mpr ha)
        exact Finding.isOk_eq_false hnone fun h => hclean (h ▸ ha)

end Conclusion

end Pending

end CiPlan
