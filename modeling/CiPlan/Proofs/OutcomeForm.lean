import CiPlan.Outcome
import CiPlan.Proofs.Records

/-!
# Outcomes as they are written

An outcome is written as an object whose first field is the state; the others are the details, which
depend on it.  The reader splits off the state, wherever it stands, and reads what is left as a
record of the details (`ofJson?_eq`).  So an outcome is a record with a form of its own for each
state, and what the forms of the other states have in addition is ignored (`isRecord`).
-/

namespace CiPlan.BucketOutcome

open Json

/-- Which details an outcome has depends on how the run ended. -/
def detailForm : BucketOutcome → Form
  | succeeded | cancelled => []
  | failed .. => [("exit_code", some .null), ("reason", none)]
  | timedOut _ => [("timeout_secs", none)]

def form (o : BucketOutcome) : Form :=
  ("state", none) :: o.detailForm

/-- Reads the details behind a state. -/
def ofDetails? (state : String) (details : Json) : Option BucketOutcome :=
  match state with
  | "succeeded" => (details.fields? []).bind fun _ => some succeeded
  | "cancelled" => (details.fields? []).bind fun _ => some cancelled
  | "failed" => (details.fields? ["exit_code", "reason"]).bind fun fields => do
    let exitCode ← fields.withDefault "exit_code" none (optional? i32?)
    let reason ← fields.required "reason" str?
    return failed exitCode reason
  | "timed_out" => (details.fields? ["timeout_secs"]).bind fun fields => do
    return timedOut (← fields.required "timeout_secs" u64?)
  | _ => none

theorem ofJson?_eq (j : Json) : ofJson? j = (split? j).bind fun p => ofDetails? p.1 p.2 := by
  unfold ofJson?
  cases split? j with
  | none => rfl
  | some p =>
    obtain ⟨state, details⟩ := p
    simp only [Option.bind_some, Option.bind_eq_bind]
    split
    · next heq => cases heq; rfl
    · next heq => cases heq; rfl
    · next heq => cases heq; rfl
    · next heq => cases heq; rfl
    · next hsucceeded hcancelled hfailed htimedOut =>
      -- The state is none of the four.
      unfold ofDetails?
      split <;> simp_all

theorem label_of_ofDetails? {state : String} {details : Json} {o : BucketOutcome}
    (h : ofDetails? state details = some o) : state = o.label := by
  unfold ofDetails? at h
  split at h
  · obtain ⟨_, _, heq⟩ := Option.bind_eq_some_iff.mp h
    cases heq
    rfl
  · obtain ⟨_, _, heq⟩ := Option.bind_eq_some_iff.mp h
    cases heq
    rfl
  · obtain ⟨_, _, hrest⟩ := Option.bind_eq_some_iff.mp h
    obtain ⟨_, _, hrest⟩ := Option.bind_eq_some_iff.mp hrest
    obtain ⟨_, _, heq⟩ := Option.bind_eq_some_iff.mp hrest
    cases heq
    rfl
  · obtain ⟨_, _, hrest⟩ := Option.bind_eq_some_iff.mp h
    obtain ⟨_, _, heq⟩ := Option.bind_eq_some_iff.mp hrest
    cases heq
    rfl
  · cases h

theorem notMem_detailForm (o : BucketOutcome) : "state" ∉ o.detailForm.map Prod.fst := by
  cases o <;> simp [detailForm]

theorem names_details (o : BucketOutcome) : o.details.map Prod.fst = o.detailForm.map Prod.fst := by
  cases o <;> rfl

/-- An object whose state comes first is read by its state from the others. -/
theorem ofJson?_tagged {state : String} {fields : List (String × Json)}
    (h : "state" ∉ fields.map Prod.fst) :
    ofJson? (.obj (("state", .str state) :: fields)) = ofDetails? state (.obj fields) := by
  have hnone : fields.filter (·.1 == "state") = [] := by
    rw [List.filter_eq_nil_iff]
    intro field hfield heq
    exact h (List.mem_map.mpr ⟨field, hfield, beq_iff_eq.mp heq⟩)
  have hall : fields.filter (·.1 != "state") = fields := by
    rw [List.filter_eq_self]
    intro field hfield
    exact bne_iff_ne.mpr fun heq => h (List.mem_map.mpr ⟨field, hfield, heq⟩)
  rw [ofJson?_eq, split?, List.filter_cons_of_pos (by rfl), hnone,
    List.filter_cons_of_neg (by simp), hall]
  rfl

theorem split?_obj_eq_some {fields : List (String × Json)} {state : String} {details : Json}
    (h : split? (.obj fields) = some (state, details)) :
    fields.lookup "state" = some (.str state) ∧
      details = .obj (fields.filter (·.1 != "state")) := by
  rw [lookup_eq_map_head?]
  unfold split? at h
  dsimp only at h
  split at h
  · next heq =>
    cases h
    exact ⟨by rw [heq]; rfl, rfl⟩
  · cases h

theorem split?_arr_eq_some {items : List Json} {state : String} {details : Json}
    (h : split? (.arr items) = some (state, details)) :
    ∃ rest, items = .str state :: rest ∧ details = .arr rest := by
  match items, h with
  | .str _ :: rest, h =>
    cases h
    exact ⟨rest, rfl, rfl⟩

/-- The details may be completed before they are read. -/
theorem ofDetails?_completed {o : BucketOutcome} {fields : List (String × Json)}
    (h : ofDetails? o.label (.obj fields) = some o) :
    ofDetails? o.label (.obj (completed o.detailForm fields)) = some o := by
  cases o with
  | succeeded | cancelled => rfl
  | failed exitCode reason =>
      -- The form is spelled out, since what is made of the fields is read off it.
      refine @bind_completed _ [("exit_code", some .null), ("reason", none)] _ fields _ (by decide)
        (fun f g hfields => ?_) h
      obtain ⟨hcode, hreason⟩ := List.forall_mem_cons.mp hfields
      refine Fields.bind_withDefault hcode rfl fun _ => ?_
      exact Fields.bind_required (hreason _ (List.mem_singleton_self _)) fun _ => rfl
  | timedOut secs =>
      refine @bind_completed _ [("timeout_secs", none)] _ fields _ (by decide)
        (fun f g hfields => ?_) h
      exact Fields.bind_required (hfields _ (List.mem_singleton_self _)) fun _ => rfl

theorem ofDetails?_positional {o : BucketOutcome} {items : List Json}
    (h : ofDetails? o.label (.arr items) = some o) :
    ofDetails? o.label (.obj ((o.detailForm.map Prod.fst).zip items)) = some o := by
  cases o with
  | succeeded | cancelled | failed | timedOut => exact bind_positional (by decide) h

theorem optional?_code (code : Int32) :
    optional? i32? (.int code.toInt) = some (some code) := by
  show (i32? (.int code.toInt)).map some = some (some code)
  rw [isCodec_i32.read_write, Option.map_some]

theorem ofDetails?_details (o : BucketOutcome) : ofDetails? o.label (.obj o.details) = some o := by
  cases o with
  | succeeded | cancelled => rfl
  | failed exitCode reason =>
      cases exitCode with
      | none => rfl
      | some code =>
          simp [ofDetails?, label, details, fields?, Fields.withDefault, Fields.required,
            List.lookup_cons, str?, optional?_code]
  | timedOut secs =>
      simp [ofDetails?, label, details, fields?, Fields.required, isCodec_u64.read_write]

theorem isCodec : IsCodec toJson ofJson? := by
  refine isCodec_of fun o => ?_
  have hstate : "state" ∉ o.details.map Prod.fst := by
    rw [names_details]
    exact notMem_detailForm o
  rw [toJson, ofJson?_tagged hstate, ofDetails?_details]

theorem ofJson?_eq_some {j : Json} {o : BucketOutcome} (h : ofJson? j = some o) :
    ∃ details, split? j = some (o.label, details) ∧ ofDetails? o.label details = some o := by
  rw [ofJson?_eq] at h
  obtain ⟨⟨state, details⟩, hsplit, hread⟩ := Option.bind_eq_some_iff.mp h
  obtain rfl := label_of_ofDetails? hread
  exact ⟨details, hsplit, hread⟩

theorem isRecord : IsRecord form toJson ofJson? where
  toIsCodec := isCodec
  written o := by
    refine ⟨_, rfl, ?_⟩
    rw [form, List.map_cons, List.map_cons, names_details]
  completes fields o h := by
    obtain ⟨details, hsplit, hread⟩ := ofJson?_eq_some h
    obtain ⟨hstate, rfl⟩ := split?_obj_eq_some hsplit
    have hcompleted : completed o.form fields = ("state", .str o.label) ::
        completed o.detailForm (fields.filter (·.1 != "state")) := by
      rw [form, completed, List.filterMap_cons, hstate]
      refine congrArg (_ :: ·) (List.filterMap_congr fun d hd => ?_)
      have hne : d.1 ≠ "state" := fun heq =>
        notMem_detailForm o (List.mem_map.mpr ⟨d, hd, heq⟩)
      rw [lookup_filter_of_ne hne]
    have htagged :
        "state" ∉ (completed o.detailForm (fields.filter (·.1 != "state"))).map Prod.fst :=
      fun hmem => notMem_detailForm o ((sublist_completed _ _).subset hmem)
    rw [hcompleted, ofJson?_tagged htagged]
    exact ofDetails?_completed hread
  positional items o h := by
    obtain ⟨details, hsplit, hread⟩ := ofJson?_eq_some h
    obtain ⟨items, rfl, rfl⟩ := split?_arr_eq_some hsplit
    have htagged : "state" ∉ ((o.detailForm.map Prod.fst).zip items).map Prod.fst :=
      fun hmem => notMem_detailForm o ((sublist_zip _ _).subset hmem)
    show ofJson? (.obj (("state", .str o.label) :: (o.detailForm.map Prod.fst).zip items)) = some o
    rw [ofJson?_tagged htagged]
    exact ofDetails?_positional hread

end CiPlan.BucketOutcome
