import CiPlan.Process
import CiPlan.Proofs.Masking

/-!
# What is kept secret, and that masking hides it

Masking goes through a list of secrets and rewrites, for each of them, the text that the ones before
have left.  Whatever the order, nothing comes back: a mask cannot be part of a secret without the mask
character, so such a secret stands between masks, where it would have stood in the text before.

The secrets of a profile are collected from two places: the process environment, and the variables of
the profile itself.  A process that runs under the profile is handed one of the two texts for a name,
and `mem_secretValues_of_childEnvironment` says that it is among the secrets, whichever one it is.

Main result: `masking_isComplete`.
-/

namespace CiPlan

open Text

/-! ## Texts in the order of masking -/

section Order

variable {s t u : String} {texts : List String}

theorem longerFirst_iff :
    longerFirst s t = true ↔
      t.utf8ByteSize < s.utf8ByteSize ∨ t.utf8ByteSize = s.utf8ByteSize ∧ s ≤ t := by
  simp [longerFirst]

theorem longerFirst_trans (h : longerFirst s t = true) (h' : longerFirst t u = true) :
    longerFirst s u = true := by
  rw [longerFirst_iff] at *
  rcases h with h | ⟨h, hle⟩
  · rcases h' with h' | ⟨h', -⟩
    · exact .inl (Nat.lt_trans h' h)
    · exact .inl (h' ▸ h)
  · rcases h' with h' | ⟨h', hle'⟩
    · exact .inl (h ▸ h')
    · exact .inr ⟨h'.trans h, String.le_trans hle hle'⟩

theorem longerFirst_total (s t : String) : (longerFirst s t || longerFirst t s) = true := by
  rw [Bool.or_eq_true, longerFirst_iff, longerFirst_iff]
  rcases Nat.lt_trichotomy s.utf8ByteSize t.utf8ByteSize with hlt | heq | hlt
  · exact .inr (.inl hlt)
  · exact (String.le_total s t).imp (fun h => .inr ⟨heq.symm, h⟩) (fun h => .inr ⟨heq, h⟩)
  · exact .inl (.inl hlt)

theorem longerFirst_antisymm (h : longerFirst s t = true) (h' : longerFirst t s = true) : s = t := by
  rw [longerFirst_iff] at h h'
  rcases h with h | ⟨hsize, hle⟩
  · rcases h' with h' | ⟨h', -⟩ <;> omega
  · rcases h' with h' | ⟨-, hle'⟩
    · omega
    · exact String.le_antisymm hle hle'

theorem pairwise_mergeSort_longerFirst (texts : List String) :
    (texts.mergeSort longerFirst).Pairwise fun s t => longerFirst s t = true :=
  @List.pairwise_mergeSort _ longerFirst (fun _ _ _ => longerFirst_trans) longerFirst_total texts

theorem dropRepeats_sublist (texts : List String) : (dropRepeats texts).Sublist texts := by
  fun_induction dropRepeats texts with
  | case1 s t rest _ ih => exact ih.cons s
  | case2 s t rest _ ih => exact ih.cons_cons s
  | case3 => exact List.Sublist.refl _

/-- In a sorted list equal texts stand together, so none is left twice. -/
theorem nodup_dropRepeats (h : texts.Pairwise fun s t => longerFirst s t = true) :
    (dropRepeats texts).Nodup := by
  fun_induction dropRepeats texts with
  | case1 s t rest _ ih => exact ih h.of_cons
  | case2 s t rest hst ih =>
      have hne : s ≠ t := by simpa using hst
      have hfirst := (List.pairwise_cons.mp h).1
      refine List.nodup_cons.mpr ⟨fun hmem => ?_, ih h.of_cons⟩
      rcases List.mem_cons.mp (mem_dropRepeats.mp hmem) with heq | hrest
      · exact hne heq
      · have hts : longerFirst t s = true := (List.pairwise_cons.mp h.of_cons).1 s hrest
        exact hne (longerFirst_antisymm (hfirst t List.mem_cons_self) hts)
  | case3 texts hshort =>
      rcases texts with _ | ⟨s, _ | ⟨t, rest⟩⟩
      · exact List.nodup_nil
      · exact List.pairwise_singleton _ s
      · exact absurd rfl (hshort s t rest)

end Order

/-! ## The secrets that a process is handed -/

theorem Bindings.mem_entries_of_get? {b : Bindings} {name text : String}
    (h : b.get? name = some text) : (name, text) ∈ b.entries := by
  obtain ⟨before, after, hsplit, -⟩ := List.lookup_eq_some_iff.mp h
  rw [hsplit]
  exact List.mem_append_right before List.mem_cons_self

namespace Profile

/-- A variable that a profile has to keep secret: it names the variable as secret, or sets one whose
name looks like that of a credential. -/
def Confides (p : Profile) (name : String) : Prop :=
  name ∈ p.secretEnv ∨ (p.env.get? name).isSome = true ∧ looksSecret name = true

section Collected

variable {env : Environment} {p : Profile} {name value : String}

theorem Confides.hides (h : p.Confides name) : p.hides name = true := by
  rcases h with h | ⟨-, h⟩
  · simp [Profile.hides, h]
  · simp [Profile.hides, h]

/-- What a process finds in a variable is the text of the process environment when the profile hands
that on, else that of the profile, else that of the process environment. -/
theorem childEnvironment_cases (h : p.childEnvironment env name = some value) :
    (name ∈ p.secretEnv ∧ env name = some value) ∨ p.env.get? name = some value ∨
      (p.env.get? name = none ∧ name ∉ p.secretEnv) := by
  rw [childEnvironment] at h
  by_cases hname : name ∈ p.secretEnv
  · rw [if_pos (by simpa using hname)] at h
    cases henv : env name with
    | some text =>
        rw [henv] at h
        exact .inl ⟨hname, h⟩
    | none =>
        rw [henv, Option.or_none] at h
        exact .inr (.inl h)
  · rw [if_neg (by simpa using hname)] at h
    cases hown : p.env.get? name with
    | some text =>
        rw [hown, Option.some_or] at h
        exact .inr (.inl h)
    | none => exact .inr (.inr ⟨rfl, hname⟩)

/-- Whatever a process is handed for such a variable is a secret, if it is long enough to be masked. -/
theorem mem_secretValues_of_childEnvironment (hname : p.Confides name)
    (h : p.childEnvironment env name = some value) (hlong : minSecretLength ≤ value.utf8ByteSize) :
    value ∈ p.secretValues env := by
  refine mem_secretValues.mpr ⟨?_, hlong⟩
  rcases childEnvironment_cases h with ⟨hsecret, henv⟩ | hown | ⟨hnone, hnot⟩
  · exact .inl ⟨name, hsecret, henv⟩
  · exact .inr ⟨(name, value), Bindings.mem_entries_of_get? hown, hname.hides, rfl⟩
  · rcases hname with hsecret | ⟨hsome, -⟩
    · exact absurd hsecret hnot
    · rw [hnone] at hsome
      cases hsome

end Collected

/-- Some texts are what has to be masked for a profile. -/
structure Guards (p : Profile) (env : Environment) (secrets : List String) : Prop where
  /-- They contain what a process is handed for a variable that is secret. -/
  covers : ∀ name value, p.Confides name → p.childEnvironment env name = some value →
    minSecretLength ≤ value.utf8ByteSize → value ∈ secrets
  sorted : secrets.Pairwise fun s t => longerFirst s t = true
  nodup : secrets.Nodup

theorem guards_secretValues (p : Profile) (env : Environment) : p.Guards env (p.secretValues env) where
  covers _ _ hname h hlong := mem_secretValues_of_childEnvironment hname h hlong
  sorted := (pairwise_mergeSort_longerFirst _).sublist (dropRepeats_sublist _)
  nodup := nodup_dropRepeats (pairwise_mergeSort_longerFirst _)

end Profile

/-! ## Complete masking -/

/-- A text has been masked completely. -/
structure IsMasked (secrets : List String) (text masked : String) : Prop where
  /-- No secret is left that has no character of the masks. -/
  hidden : ∀ secret ∈ secrets, '*' ∉ secret.toList → contains masked secret = false
  untouched : (∀ secret ∈ secrets, contains text secret = false) → masked = text

theorem isMasked_redactValues {secrets : List String} (hne : ∀ secret ∈ secrets, secret ≠ "")
    (text : String) : IsMasked secrets text (redactValues secrets text) where
  hidden secret hsecret hstar := by
    rw [← Bool.not_eq_true, contains_iff, toList_redactValues]
    exact not_infix_maskChars hsecret (hne secret hsecret) hstar text.toList
  untouched hnone := by
    rw [← String.toList_inj, toList_redactValues]
    refine maskChars_eq_self fun secret hsecret hoccurs => ?_
    exact Bool.false_ne_true ((hnone secret hsecret).symm.trans (contains_iff.mpr hoccurs))

/-- Masking is complete.  It leaves no secret without a mask character, in whatever order the secrets
come and however they overlap, and it leaves a text without secrets as it is; and the secrets that it
masks for a profile contain all that a process under the profile is handed as one. -/
theorem masking_isComplete {secrets : List String} (hne : ∀ secret ∈ secrets, secret ≠ "")
    (text : String) (p : Profile) (env : Environment) :
    IsMasked secrets text (redactValues secrets text) ∧ p.Guards env (p.secretValues env) :=
  ⟨isMasked_redactValues hne text, p.guards_secretValues env⟩

/-- Secrets that overlap and contain one another, the shortest ones first. -/
def overlapping : List String := ["b*c", "abcd", "cdab", "abcdab"]

/-- A profile that sets a secret variable itself, and another one that looks like a credential. -/
def doublySet : Profile :=
  { Profile.ofKind "aws" .aws with
    secretEnv := ["SERVICE_LOGIN"]
    env := .ofList [("SERVICE_LOGIN", "from-profile"), ("db_password", "p*ssword")] }

/-- The text of the process environment is handed on and masked, as is the one of the profile that
nothing else is set for. -/
theorem masking_isComplete_overlapping :
    let env := onlySet "SERVICE_LOGIN" "from-process"
    (∀ secret ∈ overlapping, secret ≠ "") ∧
      (redactValues overlapping "xabcdab*cy" = "x***a***y" ∧
        contains "x***a***y" "abcd" = false ∧ contains "x***a***y" "cdab" = false) ∧
      (doublySet.childEnvironment env "SERVICE_LOGIN" = some "from-process" ∧
        "from-process" ∈ doublySet.secretValues env) ∧
      doublySet.childEnvironment env "db_password" = some "p*ssword" ∧
        "p*ssword" ∈ doublySet.secretValues env := by
  intro env
  have hne : ∀ secret ∈ overlapping, secret ≠ "" := by decide
  obtain ⟨hmasked, hguards⟩ := masking_isComplete hne "xabcdab*cy" doublySet env
  have hresult : redactValues overlapping "xabcdab*cy" = "x***a***y" := by decide +kernel
  rw [hresult] at hmasked
  have hlogin : doublySet.childEnvironment env "SERVICE_LOGIN" = some "from-process" := by
    decide +kernel
  have hpassword : doublySet.childEnvironment env "db_password" = some "p*ssword" := by
    decide +kernel
  refine ⟨hne, ⟨hresult, ?_, ?_⟩, ⟨hlogin, ?_⟩, hpassword, ?_⟩
  · exact hmasked.hidden "abcd" (by decide) (by decide)
  · exact hmasked.hidden "cdab" (by decide) (by decide)
  · exact hguards.covers _ _ (.inl (by decide)) hlogin (by decide)
  · exact hguards.covers _ _ (.inr ⟨by decide +kernel, by decide +kernel⟩) hpassword (by decide)

end CiPlan
