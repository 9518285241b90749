import CiPlan.Json
import Mathlib.Data.List.Nodup

/-!
# Reading back what is written

A written form and its reader fit together when what is written is read back (`IsCodec`).  Lists,
names among alternatives and numbers hand this on from what they consist of.

A record is written as an object of its fields.  What else may be read as it is brought to this form
first: `completed` keeps the known fields in their order and puts in the defaults of those that are
left out, and what stands in an array belongs to the fields by position (`IsRecord`).  Both follow
from what the reader makes of the fields, one by one (`isRecord_of_build`).
-/

namespace CiPlan.Json

/-- What is written is read back.  So when a value is read and written, doing this again changes
nothing. -/
structure IsCodec {α : Type} (write : α → Json) (read : Json → Option α) : Prop where
  read_write : ∀ a, read (write a) = some a
  normal : ∀ j j', (read j).map write = some j' → (read j').map write = some j'

/-- A record's fields, and the written defaults of those that may be left out. -/
abbrev Form := List (String × Option Json)

/-- The fields of the form in its order, as they are or else as their defaults. -/
def completed (form : Form) (fields : List (String × Json)) : List (String × Json) :=
  form.filterMap fun d => ((fields.lookup d.1).or d.2).map (d.1, ·)

/-- A record is written with all fields of its form and nothing else.  It is read from these whether
they were left out, stood among others, or were given by position. -/
structure IsRecord {α : Type} (form : α → Form) (write : α → Json) (read : Json → Option α) : Prop
    extends IsCodec write read where
  written : ∀ a, ∃ fields, write a = .obj fields ∧ fields.map Prod.fst = (form a).map Prod.fst
  completes : ∀ fields a, read (.obj fields) = some a →
    read (.obj (completed (form a) fields)) = some a
  positional : ∀ items a, read (.arr items) = some a →
    read (.obj (((form a).map Prod.fst).zip items)) = some a

section Codecs

variable {α : Type} {write : α → Json} {read : Json → Option α}

theorem isCodec_of (h : ∀ a, read (write a) = some a) : IsCodec write read := by
  refine ⟨h, fun j j' hj => ?_⟩
  obtain ⟨a, -, rfl⟩ := Option.map_eq_some_iff.mp hj
  rw [h, Option.map_some]

theorem isCodec_str : IsCodec .str str? :=
  isCodec_of fun _ => rfl

theorem isCodec_u64 : IsCodec .u64 u64? := by
  refine isCodec_of fun n => ?_
  simp [u64, nat, u64?, n.toNat_lt_size]

theorem isCodec_i32 : IsCodec (fun n : Int32 => .int n.toInt) i32? := by
  refine isCodec_of fun n => ?_
  rw [i32?, if_pos ⟨n.minValue_le_toInt, n.toInt_le⟩, Int32.ofInt_toInt]

/-- What is written one by one is read one by one. -/
theorem mapM_map_write {β : Type} {write : α → β} {read : β → Option α}
    (h : ∀ a, read (write a) = some a) (as : List α) : (as.map write).mapM read = some as := by
  induction as with
  | nil => rfl
  | cons a as ih =>
      rw [List.map_cons, List.mapM_cons, h, ih]
      rfl

/-- What is read one by one has been written one by one, if it can be written in one way only. -/
theorem eq_map_of_mapM {β : Type} {write : α → β} {read : β → Option α}
    (h : ∀ b a, read b = some a → b = write a) {bs : List β} {as : List α}
    (has : bs.mapM read = some as) : bs = as.map write := by
  induction bs generalizing as with
  | nil =>
      cases has
      rfl
  | cons b bs ih =>
      rw [List.mapM_cons] at has
      obtain ⟨a, ha, hrest⟩ := Option.bind_eq_some_iff.mp has
      obtain ⟨rest, hbs, heq⟩ := Option.bind_eq_some_iff.mp hrest
      cases heq
      rw [List.map_cons, ← h b a ha, ← ih hbs]

theorem IsCodec.list (h : IsCodec write read) :
    IsCodec (fun as => .arr (as.map write)) (list? read) :=
  isCodec_of fun as => mapM_map_write h.read_write as

theorem eq_str_of_str? {j : Json} {s : String} (h : j.str? = some s) : j = .str s := by
  cases j with
  | str => cases h; rfl
  | null | bool | int | real | arr | obj => cases h

theorem eq_strs_of_list? {j : Json} {xs : List String} (h : j.list? str? = some xs) :
    j = strs xs := by
  cases j with
  | arr items => exact congrArg Json.arr (eq_map_of_mapM (fun _ _ => eq_str_of_str?) h)
  | null | bool | int | real | str | obj => cases h

theorem lookup_cons_of_ne {β : Type} {k k' : String} {v : β} {entries : List (String × β)}
    (h : k ≠ k') : ((k', v) :: entries).lookup k = entries.lookup k := by
  rw [List.lookup_cons, beq_eq_false_iff_ne.mpr h]

/-- Alternatives with names of their own are found by their names. -/
theorem lookup_name {every : List α} {name : α → String} (hname : ∀ a b, name a = name b → a = b)
    {a : α} (ha : a ∈ every) : (every.map fun b => (name b, b)).lookup (name a) = some a := by
  induction every with
  | nil => cases ha
  | cons b every ih =>
      rw [List.map_cons]
      rcases List.mem_cons.mp ha with rfl | ha
      · exact List.lookup_cons_self
      · by_cases heq : name a = name b
        · rw [hname a b heq, List.lookup_cons_self]
        · rw [lookup_cons_of_ne heq, ih ha]

theorem isCodec_choice {every : List α} {name : α → String} (hevery : ∀ a, a ∈ every)
    (hname : ∀ a b, name a = name b → a = b) :
    IsCodec (fun a => .str (name a)) (choice? (every.map fun a => (name a, a))) :=
  isCodec_of fun a => lookup_name hname (hevery a)

end Codecs

section Fields

variable {form : Form} {names : List String} {fields : List (String × Json)} {f g : Fields}

theorem lookup_eq_none_of_notMem {n : String} (h : n ∉ fields.map Prod.fst) :
    fields.lookup n = none := by
  rw [List.lookup_eq_none_iff]
  intro field hfield
  simpa using fun heq => h (List.mem_map.mpr ⟨field, hfield, heq.symm⟩)

theorem lookup_eq_map_head? (n : String) (fields : List (String × Json)) :
    fields.lookup n = (fields.filter (·.1 == n)).head?.map Prod.snd := by
  induction fields with
  | nil => rfl
  | cons field fields ih =>
      obtain ⟨k, v⟩ := field
      by_cases hn : n = k
      · rw [hn, List.lookup_cons_self, List.filter_cons_of_pos (by simp)]
        rfl
      · rw [lookup_cons_of_ne hn, ih, List.filter_cons_of_neg (by simpa using Ne.symm hn)]

/-- The other fields are found without a field. -/
theorem lookup_filter_of_ne {n k : String} (h : k ≠ n) (fields : List (String × Json)) :
    (fields.filter (·.1 != n)).lookup k = fields.lookup k := by
  induction fields with
  | nil => rfl
  | cons field fields ih =>
      by_cases hn : field.1 = n
      · rw [List.filter_cons_of_neg (by simpa using hn), ih, lookup_cons_of_ne (hn ▸ h)]
      · rw [List.filter_cons_of_pos (by simpa using hn), List.lookup_cons, List.lookup_cons, ih]

/-- An object in which no name occurs twice has the fields that are found in it. -/
theorem fields?_of_nodup (h : (fields.map Prod.fst).Nodup) :
    fields? names (.obj fields) = some (fields.lookup ·) := by
  rw [fields?, if_pos]
  refine List.all_eq_true.mpr fun n _ => decide_eq_true ?_
  have hcount : (fields.filter (·.1 == n)).length = (fields.map Prod.fst).count n := by
    rw [List.count, List.countP_map, List.countP_eq_length_filter]
    rfl
  rw [hcount]
  exact List.nodup_iff_count_le_one.mp h n

theorem fields?_obj_eq_some (h : fields? names (.obj fields) = some f) : f = (fields.lookup ·) := by
  rw [fields?] at h
  split at h
  · cases h
    rfl
  · cases h

theorem sublist_completed (form : Form) (fields : List (String × Json)) :
    ((completed form fields).map Prod.fst).Sublist (form.map Prod.fst) := by
  induction form with
  | nil => exact .slnil
  | cons d form ih =>
      rw [completed, List.filterMap_cons]
      cases (fields.lookup d.1).or d.2 with
      | none => exact ih.cons _
      | some v => exact ih.cons_cons _

theorem sublist_zip (names : List String) (items : List Json) :
    ((names.zip items).map Prod.fst).Sublist names := by
  rw [List.zip_eq_zip_take_min, List.map_fst_zip (by simp)]
  exact List.take_sublist _ _

/-- Completed fields are as they were, or else as their defaults. -/
theorem lookup_completed (hform : (form.map Prod.fst).Nodup) {d : String × Option Json}
    (hd : d ∈ form) :
    (completed form fields).lookup d.1 = (fields.lookup d.1).or d.2 := by
  induction form with
  | nil => cases hd
  | cons c form ih =>
      obtain ⟨hc, hform⟩ := List.nodup_cons.mp hform
      have hsublist := sublist_completed form fields
      rcases List.mem_cons.mp hd with rfl | hd
      · rw [completed, List.filterMap_cons]
        cases (fields.lookup d.1).or d.2 with
        | none => exact lookup_eq_none_of_notMem fun hmem => hc (hsublist.subset hmem)
        | some v => exact List.lookup_cons_self
      · have hne : d.1 ≠ c.1 := fun heq => hc (List.mem_map.mpr ⟨d, hd, heq⟩)
        rw [← ih hform hd, completed, List.filterMap_cons]
        cases (fields.lookup c.1).or c.2 with
        | none => rfl
        | some v => exact lookup_cons_of_ne hne

/-- A field that is left out is read as its default. -/
theorem Fields.bind_withDefault {α β : Type} {n : String} {d : Json} {default : α}
    {read : Json → Option α} {rest rest' : α → Option β} (hg : g n = (f n).or (some d))
    (hd : read d = some default) (hrest : ∀ a, rest a = rest' a) :
    (g.withDefault n default read >>= rest) = (f.withDefault n default read >>= rest') := by
  have hfield : g.withDefault n default read = f.withDefault n default read := by
    rw [withDefault, withDefault, hg]
    cases f n with
    | none => exact hd
    | some j => rfl
  rw [hfield, funext hrest]

theorem Fields.bind_required {α β : Type} {n : String} {read : Json → Option α}
    {rest rest' : α → Option β} (hg : g n = (f n).or none) (hrest : ∀ a, rest a = rest' a) :
    (g.required n read >>= rest) = (f.required n read >>= rest') := by
  rw [required, required, hg, Option.or_none, funext hrest]

end Fields

section Records

variable {α : Type} {form : Form} {fields : α → List (String × Json)} {write : α → Json}
  {read : Json → Option α} {build : Fields → Option α}

/-- The fields of an object may be completed before they are read. -/
theorem bind_completed {fields : List (String × Json)} {a : α} (hform : (form.map Prod.fst).Nodup)
    (hbuild : ∀ f g : Fields, (∀ d ∈ form, g d.1 = (f d.1).or d.2) → build g = build f)
    (h : (fields? (form.map Prod.fst) (.obj fields)).bind build = some a) :
    (fields? (form.map Prod.fst) (.obj (completed form fields))).bind build = some a := by
  obtain ⟨f, hf, ha⟩ := Option.bind_eq_some_iff.mp h
  obtain rfl := fields?_obj_eq_some hf
  rw [fields?_of_nodup ((sublist_completed form fields).nodup hform), Option.bind_some, ← ha]
  exact hbuild _ _ fun d hd => lookup_completed hform hd

/-- What stands in an array may be given the names of the fields before it is read. -/
theorem bind_positional {names : List String} {items : List Json} {a : α} (hnames : names.Nodup)
    (h : (fields? names (.arr items)).bind build = some a) :
    (fields? names (.obj (names.zip items))).bind build = some a := by
  rw [fields?] at h
  split at h
  · rwa [fields?_of_nodup ((sublist_zip names items).nodup hnames)]
  · cases h

/-- Records whose reader makes them of their fields, one by one. -/
theorem isRecord_of_build (hform : (form.map Prod.fst).Nodup)
    (hwrite : ∀ a, write a = .obj (fields a))
    (hfields : ∀ a, (fields a).map Prod.fst = form.map Prod.fst)
    (hread : ∀ j, read j = (j.fields? (form.map Prod.fst)).bind build)
    (hself : ∀ a, build ((fields a).lookup ·) = some a)
    (hbuild : ∀ f g, (∀ d ∈ form, g d.1 = (f d.1).or d.2) → build g = build f) :
    IsRecord (fun _ => form) write read where
  toIsCodec := by
    refine isCodec_of fun a => ?_
    have hnodup : ((fields a).map Prod.fst).Nodup := hfields a ▸ hform
    rw [hwrite, hread, fields?_of_nodup hnodup, Option.bind_some, hself]
  written a := ⟨fields a, hwrite a, hfields a⟩
  completes fs a h := by
    rw [hread] at h ⊢
    exact bind_completed hform hbuild h
  positional items a h := by
    rw [hread] at h ⊢
    exact bind_positional hform h

end Records

end CiPlan.Json
