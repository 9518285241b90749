import CiPlan.Bindings
import CiPlan.Proofs.Records
import CiPlan.TestCase
import Mathlib.Data.List.Induction
import Mathlib.Data.String.Basic

/-!
# Sets and tables of texts as they are written

A set is written as the list of its members and a table of variables as an object, both in ascending
order.  They are read in any order: the reader inserts one after the other.  What is written is in
order already, so each is inserted at the end and the same set or table comes out
(`NameSet.ofList_self`, `Bindings.ofList_self`).
-/

namespace CiPlan

open Json

namespace NameSet

/-- A name above all others comes last. -/
theorem insertInto_eq_concat {x : String} {ys : List String} (h : ∀ y ∈ ys, y < x) :
    insertInto x ys = ys ++ [x] := by
  induction ys with
  | nil => rfl
  | cons y ys ih =>
      obtain ⟨hy, hys⟩ := List.forall_mem_cons.mp h
      rw [insertInto, if_neg (lt_asymm hy), if_neg (ne_of_gt hy), ih hys, List.cons_append]

/-- Names in ascending order are those of their set. -/
theorem names_ofList {xs : List String} (h : xs.Pairwise (· < ·)) : (ofList xs).names = xs := by
  induction xs using List.reverseRecOn with
  | nil => rfl
  | append_singleton xs x ih =>
      obtain ⟨hxs, -, hlast⟩ := List.pairwise_append.mp h
      rw [ofList_concat]
      show insertInto x (ofList xs).names = xs ++ [x]
      rw [ih hxs]
      exact insertInto_eq_concat fun y hy => hlast y hy x (List.mem_singleton_self x)

/-- The set of its own members is the set. -/
theorem ofList_self (s : NameSet) : ofList s.names = s := by
  obtain ⟨names, hsorted⟩ := s
  have hnames := names_ofList hsorted
  generalize ofList names = t at hnames
  subst hnames
  rfl

theorem isCodec : IsCodec toJson ofJson? := by
  refine isCodec_of fun s => ?_
  rw [ofJson?, toJson, strs, isCodec_str.list.read_write, Option.map_some, ofList_self]

/-- What is read as a set are its members in any order, each at least once. -/
theorem exists_of_ofJson? {j : Json} {s : NameSet} (h : ofJson? j = some s) :
    ∃ xs, j = strs xs ∧ s.names.Pairwise (· < ·) ∧ ∀ x, x ∈ s.names ↔ x ∈ xs := by
  obtain ⟨xs, hxs, rfl⟩ := Option.map_eq_some_iff.mp h
  refine ⟨xs, eq_strs_of_list? hxs, (ofList xs).sorted, fun x => ?_⟩
  have hcontains := contains_ofList xs x
  rw [contains, Bool.eq_iff_iff] at hcontains
  simpa using hcontains

end NameSet

namespace Bindings

/-- The table of a longer list. -/
theorem ofList_concat (entries : List (String × String)) (e : String × String) :
    ofList (entries ++ [e]) = (ofList entries).insert e.1 e.2 := by
  simp [ofList]

/-- A variable above all others comes last. -/
theorem insertInto_eq_concat {name text : String} {entries : List (String × String)}
    (h : ∀ e ∈ entries, e.1 < name) :
    insertInto name text entries = entries ++ [(name, text)] := by
  induction entries with
  | nil => rfl
  | cons e entries ih =>
      obtain ⟨he, hentries⟩ := List.forall_mem_cons.mp h
      rw [insertInto, if_neg (lt_asymm he), if_neg (ne_of_gt he), ih hentries, List.cons_append]

theorem entries_ofList {entries : List (String × String)} (h : entries.Pairwise (·.1 < ·.1)) :
    (ofList entries).entries = entries := by
  induction entries using List.reverseRecOn with
  | nil => rfl
  | append_singleton entries e ih =>
      obtain ⟨hentries, -, hlast⟩ := List.pairwise_append.mp h
      rw [ofList_concat]
      show insertInto e.1 e.2 (ofList entries).entries = entries ++ [e]
      rw [ih hentries]
      exact insertInto_eq_concat fun d hd => hlast d hd e (List.mem_singleton_self e)

theorem ofList_self (b : Bindings) : ofList b.entries = b := by
  obtain ⟨entries, hsorted⟩ := b
  have hentries := entries_ofList hsorted
  generalize ofList entries = t at hentries
  subst hentries
  rfl

theorem lookup_insertInto (name text k : String) (entries : List (String × String)) :
    (insertInto name text entries).lookup k =
      if k = name then some text else entries.lookup k := by
  induction entries with
  | nil =>
      by_cases hk : k = name
      · rw [hk, if_pos rfl, insertInto, List.lookup_cons_self]
      · rw [if_neg hk, insertInto, lookup_cons_of_ne hk]
  | cons e entries ih =>
      rw [insertInto]
      by_cases hk : k = name
      · subst hk
        rw [if_pos rfl]
        split_ifs with hlt heq
        · exact List.lookup_cons_self
        · exact List.lookup_cons_self
        · rw [lookup_cons_of_ne heq, ih, if_pos rfl]
      · rw [if_neg hk]
        split_ifs with hlt heq
        · exact lookup_cons_of_ne hk
        · rw [lookup_cons_of_ne hk, lookup_cons_of_ne (heq ▸ hk)]
        · rw [List.lookup_cons, List.lookup_cons, ih, if_neg hk]

/-- Of the texts of a name the last stands. -/
theorem get?_ofList (entries : List (String × String)) (name : String) :
    (ofList entries).get? name = entries.reverse.lookup name := by
  induction entries using List.reverseRecOn with
  | nil => rfl
  | append_singleton entries e ih =>
      rw [ofList_concat, List.reverse_concat]
      show (insertInto e.1 e.2 (ofList entries).entries).lookup name = _
      rw [lookup_insertInto, ← get?, ih]
      by_cases hname : name = e.1
      · rw [if_pos hname, hname, List.lookup_cons_self]
      · rw [if_neg hname, lookup_cons_of_ne hname]

/-- A variable as a field of an object. -/
def fieldOf (e : String × String) : String × Json := (e.1, .str e.2)

def ofField? (f : String × Json) : Option (String × String) := f.2.str?.map fun text => (f.1, text)

theorem ofField?_fieldOf (e : String × String) : ofField? (fieldOf e) = some e :=
  rfl

theorem eq_fieldOf_of_ofField? {f : String × Json} {e : String × String}
    (h : ofField? f = some e) : f = fieldOf e := by
  obtain ⟨text, htext, rfl⟩ := Option.map_eq_some_iff.mp h
  rw [fieldOf, ← eq_str_of_str? htext]

theorem isCodec : IsCodec toJson ofJson? := by
  refine isCodec_of fun b => ?_
  have hentries : (b.entries.map fieldOf).mapM ofField? = some b.entries :=
    mapM_map_write ofField?_fieldOf b.entries
  show ((b.entries.map fieldOf).mapM ofField?).map ofList = some b
  rw [hentries, Option.map_some, ofList_self]

/-- What is read as a table are its variables in any order, with other texts of a name before the
one that stands. -/
theorem exists_of_ofJson? {j : Json} {b : Bindings} (h : ofJson? j = some b) :
    ∃ entries : List (String × String), j = .obj (entries.map fieldOf) ∧
      b.entries.Pairwise (·.1 < ·.1) ∧ ∀ name, b.get? name = entries.reverse.lookup name := by
  cases j with
  | null | bool | int | real | str | arr => cases h
  | obj fields =>
      obtain ⟨entries, hentries, rfl⟩ := Option.map_eq_some_iff.mp h
      have hfields : fields = entries.map fieldOf :=
        eq_map_of_mapM (fun _ _ => eq_fieldOf_of_ofField?) hentries
      exact ⟨entries, congrArg Json.obj hfields, (ofList entries).sorted, get?_ofList entries⟩

end Bindings

end CiPlan
