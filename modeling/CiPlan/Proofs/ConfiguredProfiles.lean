import CiPlan.Leak.Targets
import CiPlan.Proofs.Defects

/-!
# Configured profiles

A configured profile takes the place of the one with its name or is added at the end, so a merged list
never has two profiles of one name, and a name stands for what was put there last (`find?_putByName`).
Since names are unambiguous, it makes no difference who looks a profile up: a plan, which asks for the
profiles of its buckets, and a leak check of its own, which picks among all profiles, come to the same
targets (`chooseTargets_of_plan`).

Main result: `merge_isConsistent`.
-/

namespace CiPlan

/-! ## Lists with more behind them -/

section Order

variable {α : Type} [BEq α]

/-- A list is a base with the other elements of a second list behind it, in the order in which they
are first used there. -/
def Extends (base uses xs : List α) : Prop :=
  ∃ added, xs = base ++ added ∧ (∀ x, x ∈ added ↔ x ∈ uses ∧ x ∉ base) ∧
    added.Pairwise fun a b => uses.idxOf a < uses.idxOf b

theorem extends_nil (base : List α) : Extends base [] base :=
  ⟨[], (List.append_nil base).symm, by simp, .nil⟩

variable [LawfulBEq α] {base uses xs : List α}

theorem Extends.mem_iff (h : Extends base uses xs) (x : α) : x ∈ xs ↔ x ∈ base ∨ x ∈ uses := by
  obtain ⟨added, rfl, hadded, -⟩ := h
  rw [List.mem_append, hadded]
  by_cases hx : x ∈ base
  · simp only [hx, true_or]
  · simp only [hx, false_or, not_false_eq_true, and_true]

/-- Nothing is added for what is there. -/
theorem Extends.known (h : Extends base uses xs) {x : α} (hx : x ∈ xs) :
    Extends base (uses ++ [x]) xs := by
  have hknown := (h.mem_iff x).mp hx
  obtain ⟨added, rfl, hadded, horder⟩ := h
  refine ⟨added, rfl, ?_, ?_⟩
  · intro y
    rw [hadded, List.mem_append, List.mem_singleton]
    constructor
    · intro hy
      exact ⟨.inl hy.1, hy.2⟩
    · intro hy
      obtain ⟨hy | rfl, hbase⟩ := hy
      · exact ⟨hy, hbase⟩
      · exact ⟨hknown.resolve_left hbase, hbase⟩
  · exact pairwise_idxOf_append horder (fun y hy => ((hadded y).mp hy).1) [x]

/-- What is new is added at the end. -/
theorem Extends.new (h : Extends base uses xs) {x : α} (hx : x ∉ xs) :
    Extends base (uses ++ [x]) (xs ++ [x]) := by
  have hbase : x ∉ base := fun hmem => hx ((h.mem_iff x).mpr (.inl hmem))
  have hfresh : x ∉ uses := fun hmem => hx ((h.mem_iff x).mpr (.inr hmem))
  obtain ⟨added, rfl, hadded, horder⟩ := h
  have hsub : added ⊆ uses := fun y hy => ((hadded y).mp hy).1
  refine ⟨added ++ [x], List.append_assoc .., ?_, ?_⟩
  · intro y
    rw [List.mem_append, hadded, List.mem_append, List.mem_singleton]
    by_cases hy : y = x
    · simp only [hy, hbase, or_true, not_false_eq_true, and_true]
    · simp only [hy, or_false]
  · exact pairwise_idxOf_concat horder hsub hfresh

end Order

namespace Profile

/-! ## Putting one profile -/

section Put

variable (p : Profile) (ps : List Profile)

theorem find?_cons (name : String) :
    find? (p :: ps) name = if p.name = name then some p else find? ps name := by
  by_cases h : p.name = name
  · simp [find?, h]
  · simp [find?, h]

/-- A name stands for the profile that was put last. -/
theorem find?_putByName (name : String) :
    find? (putByName p ps) name = if p.name = name then some p else find? ps name := by
  induction ps with
  | nil => exact find?_cons p [] name
  | cons q ps ih =>
      rw [putByName]
      by_cases hq : q.name = p.name
      · rw [if_pos hq, find?_cons, find?_cons, hq]
        by_cases hp : p.name = name
        · rw [if_pos hp, if_pos hp]
        · rw [if_neg hp, if_neg hp, if_neg hp]
      · rw [if_neg hq, find?_cons, find?_cons, ih]
        by_cases hp : p.name = name
        · rw [if_pos hp, if_neg (hp ▸ hq), if_pos hp]
        · rw [if_neg hp, if_neg hp]

/-- A new name comes last. -/
theorem names_putByName : (putByName p ps).map (·.name) =
    if p.name ∈ ps.map (·.name) then ps.map (·.name) else ps.map (·.name) ++ [p.name] := by
  induction ps with
  | nil => rfl
  | cons q ps ih =>
      rw [putByName]
      by_cases hq : q.name = p.name
      · rw [if_pos hq, if_pos (by simp [hq]), List.map_cons, List.map_cons, hq]
      · rw [if_neg hq, List.map_cons, List.map_cons, ih]
        by_cases hp : p.name ∈ ps.map (·.name)
        · rw [if_pos hp, if_pos (List.mem_cons_of_mem _ hp)]
        · rw [if_neg hp, if_neg (by simpa [Ne.symm hq] using hp), List.cons_append]

end Put

/-! ## Merging -/

theorem merge_concat (configured : List Profile) (p : Profile) :
    merge (configured ++ [p]) = putByName p (merge configured) := by
  simp [merge]

/-- What becomes of the default profiles under configured ones. -/
structure Overrides (configured merged : List Profile) : Prop where
  nodup : (merged.map (·.name)).Nodup
  /-- A name stands for the last configured profile that has it, or for the default one. -/
  find : ∀ name, find? merged name = (find? configured.reverse name).or (find? defaults name)
  /-- The default names stay in front, and new ones follow in the order of their first use. -/
  names : Extends (defaults.map (·.name)) (configured.map (·.name)) (merged.map (·.name))

theorem overrides_nil : Overrides [] defaults where
  nodup := by decide
  find _ := rfl
  names := extends_nil _

theorem Overrides.concat {configured merged : List Profile} (h : Overrides configured merged)
    (p : Profile) : Overrides (configured ++ [p]) (putByName p merged) where
  nodup := by
    rw [names_putByName]
    by_cases hp : p.name ∈ merged.map (·.name)
    · rw [if_pos hp]
      exact h.nodup
    · rw [if_neg hp, ← List.concat_eq_append]
      exact h.nodup.concat hp
  find := by
    intro name
    rw [find?_putByName, h.find, List.reverse_concat, find?_cons]
    by_cases hp : p.name = name
    · rw [if_pos hp, if_pos hp, Option.some_or]
    · rw [if_neg hp, if_neg hp]
  names := by
    rw [names_putByName, List.map_append, List.map_singleton]
    by_cases hp : p.name ∈ merged.map (·.name)
    · rw [if_pos hp]
      exact h.names.known hp
    · rw [if_neg hp]
      exact h.names.new hp

theorem overrides_merge (configured : List Profile) : Overrides configured (merge configured) := by
  induction configured using List.reverseRecOn with
  | nil => exact overrides_nil
  | append_singleton configured p ih =>
      rw [merge_concat]
      exact ih.concat p

/-! ## Targets -/

/-- The profiles with the given names that can leak, if all names are known and there is one. -/
theorem chooseTargets_eq_ok {profiles : List Profile} {names : List String}
    (hknown : ∀ name ∈ names, ∃ q ∈ profiles, q.name = name) {p : Profile} (hp : p ∈ profiles)
    (hname : names = [] ∨ p.name ∈ names) (htarget : p.isLeakCheckTarget = true) :
    chooseTargets profiles names = .ok (profiles.filter fun q =>
      (names.isEmpty || names.contains q.name) && q.isLeakCheckTarget) := by
  have hnone : names.find? (fun name => !profiles.any (·.name == name)) = none := by
    rw [List.find?_eq_none]
    intro name hmem
    obtain ⟨q, hq, heq⟩ := hknown name hmem
    simpa using ⟨q, hq, heq⟩
  have hmem : p ∈ profiles.filter fun q =>
      (names.isEmpty || names.contains q.name) && q.isLeakCheckTarget := by
    rw [List.mem_filter, Bool.and_eq_true, Bool.or_eq_true, List.isEmpty_iff,
      List.contains_iff_mem]
    exact ⟨hp, hname, htarget⟩
  rw [chooseTargets, hnone]
  exact if_neg (by rw [List.isEmpty_iff]; exact List.ne_nil_of_mem hmem)

end Profile

section Plans

variable {planner : Planner} {trigger : TriggerEvent} {plan : Plan}

/-- A target of a plan is one of the planner's profiles. -/
theorem Planner.mem_profiles_of_target (h : planner.plan trigger = .ok plan) {p : Profile}
    (hp : p ∈ plan.leakCheckTargets) : p ∈ planner.profiles ∧ p.isLeakCheckTarget = true := by
  rw [Planner.leakCheckTargets_of_plan h, mem_targetsOf_iff (Planner.namesDecide_of_plan h)] at hp
  obtain ⟨b, hb, rfl⟩ := List.mem_map.mp hp.1
  exact ⟨List.mem_of_find?_eq_some ((Planner.plans_of_plan h).2 b hb).profile, hp.2⟩

/-- Among all profiles a leak check of its own finds each target of the plan. -/
theorem chooseTargets_all (h : planner.plan trigger = .ok plan) {p : Profile}
    (hp : p ∈ plan.leakCheckTargets) :
    ∃ targets, Profile.chooseTargets planner.profiles [] = .ok targets ∧ p ∈ targets := by
  obtain ⟨hprofile, htarget⟩ := Planner.mem_profiles_of_target h hp
  refine ⟨_, Profile.chooseTargets_eq_ok nofun hprofile (.inl rfl) htarget, ?_⟩
  rw [List.mem_filter]
  exact ⟨hprofile, htarget⟩

/-- Asked for the targets of the plan by name, a leak check of its own finds them and no others. -/
theorem chooseTargets_of_plan (h : planner.plan trigger = .ok plan)
    (hnodup : (planner.profiles.map (·.name)).Nodup) (hne : plan.leakCheckTargets ≠ []) :
    ∃ targets, Profile.chooseTargets planner.profiles (plan.leakCheckTargets.map (·.name)) =
      .ok targets ∧ targets.Perm plan.leakCheckTargets := by
  have hknown : ∀ name ∈ plan.leakCheckTargets.map (·.name),
      ∃ q ∈ planner.profiles, q.name = name := by
    intro name hname
    obtain ⟨q, hq, rfl⟩ := List.mem_map.mp hname
    exact ⟨q, (Planner.mem_profiles_of_target h hq).1, rfl⟩
  have hunique : (plan.leakCheckTargets.map (·.name)).Nodup := by
    rw [Planner.leakCheckTargets_of_plan h]
    exact nodup_targetsOf _
  obtain ⟨first, hfirst⟩ := List.exists_mem_of_ne_nil _ hne
  obtain ⟨hprofile, htarget⟩ := Planner.mem_profiles_of_target h hfirst
  refine ⟨_, Profile.chooseTargets_eq_ok hknown hprofile
    (.inr (List.mem_map_of_mem hfirst)) htarget, ?_⟩
  rw [List.perm_ext_iff_of_nodup (hnodup.of_map.filter _) hunique.of_map]
  intro p
  have hempty : (plan.leakCheckTargets.map (·.name)).isEmpty = false := by
    rw [List.isEmpty_map, List.isEmpty_eq_false_iff]
    exact hne
  rw [List.mem_filter, hempty, Bool.false_or, Bool.and_eq_true, List.contains_iff_mem]
  constructor
  · intro hp
    obtain ⟨q, hq, hname⟩ := List.mem_map.mp hp.2.1
    -- The planner has one profile of the name, so the one that is found is the target.
    have hsame : q = p :=
      List.inj_on_of_nodup_map hnodup (Planner.mem_profiles_of_target h hq).1 hp.1 hname
    rwa [← hsame]
  · intro hp
    obtain ⟨hprofile, htarget⟩ := Planner.mem_profiles_of_target h hp
    exact ⟨hprofile, List.mem_map_of_mem hp, htarget⟩

end Plans

/-- Configured profiles override the default ones in the same way for plans and for leak checks.

In the merged list names are distinct; each stands for the last configured profile that has it, or else
for the default one; and the default names come first.  A plan over the merged list has targets that a
leak check of its own finds among all profiles.  Asked for them by name, if there are any, it finds
them and no others. -/
theorem merge_isConsistent (configured : List Profile) :
    Profile.Overrides configured (Profile.merge configured) ∧
    ∀ taxonomy matrix corpus planner trigger plan,
      Planner.ofParts taxonomy matrix corpus (Profile.merge configured) = .ok planner →
      planner.plan trigger = .ok plan →
      (∀ p ∈ plan.leakCheckTargets, ∃ targets,
        Profile.chooseTargets (Profile.merge configured) [] = .ok targets ∧ p ∈ targets) ∧
      (plan.leakCheckTargets ≠ [] → ∃ targets,
        Profile.chooseTargets (Profile.merge configured) (plan.leakCheckTargets.map (·.name)) =
          .ok targets ∧ targets.Perm plan.leakCheckTargets) := by
  have hoverrides := Profile.overrides_merge configured
  refine ⟨hoverrides, ?_⟩
  intro taxonomy matrix corpus planner trigger plan hplanner hplan
  obtain ⟨-, -, -, hprofiles⟩ := Planner.parts_of_ofParts hplanner
  rw [← hprofiles]
  refine ⟨fun p hp => chooseTargets_all hplan hp, chooseTargets_of_plan hplan ?_⟩
  rw [hprofiles]
  exact hoverrides.nodup

/-- A new profile and two of one name, of which the second is the one that counts. -/
def awsTwice : List Profile := [.ofKind "on-call" .local, .ofKind "aws" .aws, awsProfile]

/-- The planner of the two buckets over the merged list. -/
def awsTwicePlanner : Planner :=
  ⟨defaultTaxonomy, twoBuckets, ⟨twoTests⟩, Profile.merge awsTwice, rfl⟩

/-- The plan has the second of the two profiles, and so has a leak check of its own. -/
theorem merge_isConsistent_awsTwice :
    Profile.find? (Profile.merge awsTwice) "aws" = some awsProfile ∧
      Planner.ofParts defaultTaxonomy twoBuckets ⟨twoTests⟩ (Profile.merge awsTwice) =
        .ok awsTwicePlanner ∧
      awsTwicePlanner.plan .schedule = .ok twoBucketPlan ∧
      ∃ targets, Profile.chooseTargets (Profile.merge awsTwice) ["aws"] = .ok targets ∧
        targets.Perm [awsProfile] := by
  have hplanner : Planner.ofParts defaultTaxonomy twoBuckets ⟨twoTests⟩ (Profile.merge awsTwice) =
      .ok awsTwicePlanner := rfl
  have hplan : awsTwicePlanner.plan .schedule = .ok twoBucketPlan := rfl
  obtain ⟨hoverrides, hplans⟩ := merge_isConsistent awsTwice
  refine ⟨?_, hplanner, hplan, ?_⟩
  · rw [hoverrides.find]
    rfl
  · exact (hplans _ _ _ _ _ _ hplanner hplan).2 (List.cons_ne_nil _ _)

end CiPlan
