import CiPlan.Config
import CiPlan.Corpus
import CiPlan.Proofs.OutcomeForm
import CiPlan.Proofs.Source
import CiPlan.Proofs.Tables

/-!
# Written values are read back

Each type that is kept in files has a written form and a reader.  The forms of the records are
listed first, with the defaults as they are written; a section of a configuration that is left out
is one with nothing in it.  A record is read back since its fields are, one after the other.  A
selector is read from its source, which is a text of that very selector (`Selector.parse_self`).

Main result: `writtenForms_readBack`.
-/

namespace CiPlan

open Json

/-! ## Forms of records -/

def TestCase.form : Form :=
  [("name", none), ("tags", some (.arr [])), ("levels", some (.arr []))]

def Corpus.form : Form :=
  [("tests", none)]

def Profile.form : Form :=
  [("name", none), ("target", some (.str "")), ("kind", some (.str "local")),
    ("auth", some (.str "logged_out")), ("status_command", some (.arr [])),
    ("secret_env", some (.arr [])), ("env", some (.obj []))]

def GeneralConfig.form : Form :=
  [("log_level", some (.str "info")), ("log_format", some (.str "json"))]

def PlannerConfig.form : Form :=
  [("matrix_path", some (.str "")), ("corpus_path", some (.str "tests/corpus.yml")),
    ("taxonomy", some (.strs ["clustertest", "ondemand", "multinode", "servertest", "secrettest",
      "moduletest", "functiontest"]))]

def RunnerConfig.form : Form :=
  [("pytest_command", some (.strs ["pytest", "-v"])), ("test_path", some (.str "tests")),
    ("max_parallel", some (.nat 8)), ("default_timeout_secs", some (.nat 3600))]

def LeakCheckConfig.form : Form :=
  [("enabled", some (.bool true)), ("initial_delay_secs", some (.nat 30)),
    ("poll_interval_secs", some (.nat 15)), ("max_poll_interval_secs", some (.nat 120)),
    ("max_wait_secs", some (.nat 900)), ("query_timeout_secs", some (.nat 120)),
    ("running_states", some (.strs ["UP", "INIT"])), ("resource_pattern", some (.str ".*")),
    ("status_line_pattern",
      some (.str "^(?P<name>\\S+)\\s+.*?\\b(?P<status>UP|INIT|STOPPED)\\b"))]

/-- A section that is left out is one with nothing in it. -/
def Config.form : Form :=
  [("general", some (.obj [])), ("planner", some (.obj [])), ("runner", some (.obj [])),
    ("leak_check", some (.obj [])), ("profiles", some (.arr []))]

/-! ## Names and selectors -/

theorem TriggerLevel.isCodec : IsCodec toJson ofJson? :=
  isCodec_choice (by intro a; cases a <;> decide) (by intro a b; cases a <;> cases b <;> decide)

theorem TriggerEvent.isCodec : IsCodec toJson ofJson? :=
  isCodec_choice (by intro a; cases a <;> decide) (by intro a b; cases a <;> cases b <;> decide)

theorem AuthState.isCodec : IsCodec toJson ofJson? :=
  isCodec_choice (by intro a; cases a <;> decide) (by intro a b; cases a <;> cases b <;> decide)

theorem ProfileKind.isCodec : IsCodec toJson ofJson? :=
  isCodec_choice (by intro a; cases a <;> decide) (by intro a b; cases a <;> cases b <;> decide)

theorem Selector.isCodec : IsCodec Selector.toJson Selector.ofJson? := by
  refine isCodec_of fun s => ?_
  show (parse s.source).toOption = some s
  rw [parse_self]
  rfl

theorem Selector.exists_of_ofJson? {j : Json} {s : Selector} (h : ofJson? j = some s) :
    ∃ input, j = .str input ∧ s.source = Text.trim input := by
  obtain ⟨input, hinput, hparse⟩ := Option.bind_eq_some_iff.mp h
  refine ⟨input, eq_str_of_str? hinput, ?_⟩
  cases hresult : parse input with
  | error _ =>
      rw [hresult] at hparse
      cases hparse
  | ok _ =>
      rw [hresult] at hparse
      cases hparse
      exact (parse_eq_ok_iff_source.mp hresult).2

/-! ## Records -/

theorem TestCase.isRecord : IsRecord (fun _ => form) toJson ofJson? := by
  refine isRecord_of_build (by decide) (fun _ => rfl) (fun _ => rfl) (fun _ => rfl) ?_ ?_
  · intro t
    simp [Fields.required, Fields.withDefault, List.lookup_cons, str?, NameSet.isCodec.read_write,
      TriggerLevel.isCodec.list.read_write]
  · intro f g h
    simp only [form, List.forall_mem_cons] at h
    obtain ⟨hname, htags, hlevels, -⟩ := h
    refine Fields.bind_required hname fun _ => ?_
    refine Fields.bind_withDefault htags rfl fun _ => ?_
    exact Fields.bind_withDefault hlevels rfl fun _ => rfl

theorem Corpus.isRecord : IsRecord (fun _ => form) toJson ofJson? := by
  refine isRecord_of_build (by decide) (fun _ => rfl) (fun _ => rfl) (fun _ => rfl) ?_ ?_
  · intro c
    simp [Fields.required, TestCase.isRecord.toIsCodec.list.read_write]
  · intro f g h
    simp only [form, List.forall_mem_cons] at h
    exact Fields.bind_required h.1 fun _ => rfl

theorem Profile.isRecord : IsRecord (fun _ => form) toJson ofJson? := by
  refine isRecord_of_build (by decide) (fun _ => rfl) (fun _ => rfl) (fun _ => rfl) ?_ ?_
  · intro p
    simp [Fields.required, Fields.withDefault, List.lookup_cons, str?, strs,
      ProfileKind.isCodec.read_write, AuthState.isCodec.read_write, isCodec_str.list.read_write,
      Bindings.isCodec.read_write]
  · intro f g h
    simp only [form, List.forall_mem_cons] at h
    obtain ⟨hname, htarget, hkind, hauth, hcommand, hsecret, henv, -⟩ := h
    refine Fields.bind_required hname fun _ => ?_
    refine Fields.bind_withDefault htarget rfl fun _ => ?_
    refine Fields.bind_withDefault hkind rfl fun _ => ?_
    refine Fields.bind_withDefault hauth rfl fun _ => ?_
    refine Fields.bind_withDefault hcommand rfl fun _ => ?_
    refine Fields.bind_withDefault hsecret rfl fun _ => ?_
    exact Fields.bind_withDefault henv rfl fun _ => rfl

theorem GeneralConfig.isRecord :
    IsRecord (fun _ => form) (fun c => .obj (fields c)) ofJson? := by
  refine isRecord_of_build (by decide) (fun _ => rfl) (fun _ => rfl) (fun _ => rfl) ?_ ?_
  · intro c
    simp [fields, Fields.withDefault, List.lookup_cons, str?]
  · intro f g h
    simp only [form, List.forall_mem_cons] at h
    obtain ⟨hlevel, hformat, -⟩ := h
    refine Fields.bind_withDefault hlevel rfl fun _ => ?_
    exact Fields.bind_withDefault hformat rfl fun _ => rfl

theorem PlannerConfig.isRecord :
    IsRecord (fun _ => form) (fun c => .obj (fields c)) ofJson? := by
  refine isRecord_of_build (by decide) (fun _ => rfl) (fun _ => rfl) (fun _ => rfl) ?_ ?_
  · intro c
    simp [fields, Fields.withDefault, List.lookup_cons, str?, strs, isCodec_str.list.read_write]
  · intro f g h
    simp only [form, List.forall_mem_cons] at h
    obtain ⟨hmatrix, hcorpus, htaxonomy, -⟩ := h
    refine Fields.bind_withDefault hmatrix rfl fun _ => ?_
    refine Fields.bind_withDefault hcorpus rfl fun _ => ?_
    exact Fields.bind_withDefault htaxonomy rfl fun _ => rfl

theorem RunnerConfig.isRecord :
    IsRecord (fun _ => form) (fun c => .obj (fields c)) ofJson? := by
  refine isRecord_of_build (by decide) (fun _ => rfl) (fun _ => rfl) (fun _ => rfl) ?_ ?_
  · intro c
    simp [fields, Fields.withDefault, List.lookup_cons, str?, strs, isCodec_str.list.read_write,
      isCodec_u64.read_write]
  · intro f g h
    simp only [form, List.forall_mem_cons] at h
    obtain ⟨hcommand, hpath, hparallel, htimeout, -⟩ := h
    refine Fields.bind_withDefault hcommand rfl fun _ => ?_
    refine Fields.bind_withDefault hpath rfl fun _ => ?_
    refine Fields.bind_withDefault hparallel rfl fun _ => ?_
    exact Fields.bind_withDefault htimeout rfl fun _ => rfl

theorem LeakCheckConfig.isRecord :
    IsRecord (fun _ => form) (fun c => .obj (fields c)) ofJson? := by
  refine isRecord_of_build (by decide) (fun _ => rfl) (fun _ => rfl) (fun _ => rfl) ?_ ?_
  · intro c
    simp [fields, Fields.withDefault, List.lookup_cons, str?, bool?, strs,
      isCodec_str.list.read_write, isCodec_u64.read_write]
  · intro f g h
    simp only [form, List.forall_mem_cons] at h
    obtain ⟨henabled, hdelay, hinterval, hlongest, hwait, hquery, hstates, hresource, hline, -⟩ := h
    refine Fields.bind_withDefault henabled rfl fun _ => ?_
    refine Fields.bind_withDefault hdelay rfl fun _ => ?_
    refine Fields.bind_withDefault hinterval rfl fun _ => ?_
    refine Fields.bind_withDefault hlongest rfl fun _ => ?_
    refine Fields.bind_withDefault hwait rfl fun _ => ?_
    refine Fields.bind_withDefault hquery rfl fun _ => ?_
    refine Fields.bind_withDefault hstates rfl fun _ => ?_
    refine Fields.bind_withDefault hresource rfl fun _ => ?_
    exact Fields.bind_withDefault hline rfl fun _ => rfl

theorem Config.isRecord : IsRecord (fun _ => form) toJson ofJson? := by
  refine isRecord_of_build (by decide) (fun _ => rfl) (fun _ => rfl) (fun _ => rfl) ?_ ?_
  · intro c
    simp [fields, Fields.withDefault, List.lookup_cons, GeneralConfig.isRecord.toIsCodec.read_write,
      PlannerConfig.isRecord.toIsCodec.read_write, RunnerConfig.isRecord.toIsCodec.read_write,
      LeakCheckConfig.isRecord.toIsCodec.read_write, Profile.isRecord.toIsCodec.list.read_write]
  · intro f g h
    simp only [form, List.forall_mem_cons] at h
    obtain ⟨hgeneral, hplanner, hrunner, hleak, hprofiles, -⟩ := h
    refine Fields.bind_withDefault hgeneral rfl fun _ => ?_
    refine Fields.bind_withDefault hplanner rfl fun _ => ?_
    refine Fields.bind_withDefault hrunner rfl fun _ => ?_
    refine Fields.bind_withDefault hleak rfl fun _ => ?_
    exact Fields.bind_withDefault hprofiles rfl fun _ => rfl

/-- What is written is read back, and a value that has been read and written stays as it is when
this is done again: tags, which are texts, sets of them, names of levels, events, states and kinds,
selectors, tests, corpora, profiles, outcomes and configurations.  What else is read comes to the
written form in this way: a record keeps the fields of its form, in their order and with their
defaults where they were left out, and so does an outcome with the details of its state; a set
becomes its members in ascending order; of the texts of a variable the last stands; and a selector
loses the blanks around it. -/
theorem writtenForms_readBack :
    IsCodec Json.str Json.str? ∧
    IsCodec NameSet.toJson NameSet.ofJson? ∧
    IsCodec TriggerLevel.toJson TriggerLevel.ofJson? ∧
    IsCodec TriggerEvent.toJson TriggerEvent.ofJson? ∧
    IsCodec AuthState.toJson AuthState.ofJson? ∧
    IsCodec ProfileKind.toJson ProfileKind.ofJson? ∧
    IsCodec Selector.toJson Selector.ofJson? ∧
    IsCodec Bindings.toJson Bindings.ofJson? ∧
    IsRecord (fun _ => TestCase.form) TestCase.toJson TestCase.ofJson? ∧
    IsRecord (fun _ => Corpus.form) Corpus.toJson Corpus.ofJson? ∧
    IsRecord (fun _ => Profile.form) Profile.toJson Profile.ofJson? ∧
    IsRecord BucketOutcome.form BucketOutcome.toJson BucketOutcome.ofJson? ∧
    IsRecord (fun _ => Config.form) Config.toJson Config.ofJson? ∧
    IsRecord (fun _ => GeneralConfig.form) (.obj ·.fields) GeneralConfig.ofJson? ∧
    IsRecord (fun _ => PlannerConfig.form) (.obj ·.fields) PlannerConfig.ofJson? ∧
    IsRecord (fun _ => RunnerConfig.form) (.obj ·.fields) RunnerConfig.ofJson? ∧
    IsRecord (fun _ => LeakCheckConfig.form) (.obj ·.fields) LeakCheckConfig.ofJson? ∧
    (∀ j s, NameSet.ofJson? j = some s →
      ∃ xs, j = strs xs ∧ s.names.Pairwise (· < ·) ∧ ∀ x, x ∈ s.names ↔ x ∈ xs) ∧
    (∀ j b, Bindings.ofJson? j = some b →
      ∃ entries : List (String × String), j = .obj (entries.map fun e => (e.1, .str e.2)) ∧
        b.entries.Pairwise (·.1 < ·.1) ∧ ∀ name, b.get? name = entries.reverse.lookup name) ∧
    (∀ j s, Selector.ofJson? j = some s →
      ∃ input, j = .str input ∧ s.source = Text.trim input) :=
  ⟨isCodec_str, NameSet.isCodec, TriggerLevel.isCodec, TriggerEvent.isCodec, AuthState.isCodec,
    ProfileKind.isCodec, Selector.isCodec, Bindings.isCodec, TestCase.isRecord, Corpus.isRecord,
    Profile.isRecord, BucketOutcome.isRecord, Config.isRecord, GeneralConfig.isRecord,
    PlannerConfig.isRecord, RunnerConfig.isRecord, LeakCheckConfig.isRecord,
    fun _ _ => NameSet.exists_of_ofJson?, fun _ _ => Bindings.exists_of_ofJson?,
    fun _ _ => Selector.exists_of_ofJson?⟩

/-- A test with a field too many and one too few, and an outcome whose state does not come first. -/
theorem writtenForms_readBack_untidy :
    TestCase.ofJson? (.obj [("name", .str "t"), ("tags", strs ["b", "a", "b"]),
      ("levels", .arr [])]) = some ⟨"t", .ofList ["a", "b"], []⟩ ∧
    BucketOutcome.ofJson? (.obj [("state", .str "failed"), ("exit_code", .null),
      ("reason", .str "r")]) = some (.failed none "r") ∧
    ∃ xs, strs ["b", "a", "b"] = strs xs ∧
      (NameSet.ofList ["a", "b"]).names.Pairwise (· < ·) ∧
      ∀ x, x ∈ (NameSet.ofList ["a", "b"]).names ↔ x ∈ xs := by
  have htest : TestCase.ofJson? (.obj [("note", .null), ("tags", strs ["b", "a", "b"]),
      ("name", .str "t")]) = some ⟨"t", .ofList ["a", "b"], []⟩ := by
    decide +kernel
  have houtcome : BucketOutcome.ofJson? (.obj [("reason", .str "r"), ("state", .str "failed")]) =
      some (.failed none "r") := by
    decide +kernel
  have htags : NameSet.ofJson? (strs ["b", "a", "b"]) = some (.ofList ["a", "b"]) := by
    decide +kernel
  obtain ⟨-, -, -, -, -, -, -, -, htests, -, -, houtcomes, -, -, -, -, -, hsets, -⟩ :=
    writtenForms_readBack
  exact ⟨htests.completes _ _ htest, houtcomes.completes _ _ houtcome, hsets _ _ htags⟩

end CiPlan
