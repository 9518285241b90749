import CiPlan.Json

/-!
# Environment variables

A process environment gives some names a text.  The variables that a profile sets are a finite table
of such names, listed in code point order of the names.
-/

namespace CiPlan

/-- The text of each variable that is set. -/
abbrev Environment := String → Option String

/-- A finite table of variables. -/
structure Bindings where
  /-- The names and their texts, least name first. -/
  entries : List (String × String)
  /-- Each name is below the ones after it. -/
  sorted : entries.Pairwise (·.1 < ·.1)
  deriving DecidableEq

namespace Bindings

/-- Puts a variable at its place; an earlier text of the name is replaced. -/
def insertInto (name text : String) : List (String × String) → List (String × String)
  | [] => [(name, text)]
  | (n, t) :: rest =>
    if name < n then (name, text) :: (n, t) :: rest
    else if name = n then (name, text) :: rest
    else (n, t) :: insertInto name text rest

theorem fst_mem_insertInto {name text : String} {entries : List (String × String)}
    {e : String × String} (h : e ∈ insertInto name text entries) :
    e.1 = name ∨ e ∈ entries := by
  induction entries with
  | nil => simp [insertInto] at h; simp [h]
  | cons d entries ih =>
    unfold insertInto at h
    split at h
    · rcases List.mem_cons.1 h with rfl | h
      · exact .inl rfl
      · exact .inr h
    · split at h
      · rcases List.mem_cons.1 h with rfl | h
        · exact .inl rfl
        · exact .inr (List.mem_cons_of_mem _ h)
      · rcases List.mem_cons.1 h with rfl | h
        · exact .inr List.mem_cons_self
        · rcases ih h with h | h
          · exact .inl h
          · exact .inr (List.mem_cons_of_mem _ h)

/-- Insertion keeps the order. -/
theorem sorted_insertInto {name text : String} {entries : List (String × String)}
    (h : entries.Pairwise (·.1 < ·.1)) :
    (insertInto name text entries).Pairwise (·.1 < ·.1) := by
  induction entries with
  | nil => simp [insertInto]
  | cons d entries ih =>
    have hd := List.pairwise_cons.1 h
    unfold insertInto
    split
    · next hlt =>
      refine List.pairwise_cons.2 ⟨?_, h⟩
      intro e he
      rcases List.mem_cons.1 he with rfl | he
      · exact hlt
      · exact String.lt_trans hlt (hd.1 e he)
    · split
      · next heq => exact List.pairwise_cons.2 ⟨fun e he => heq ▸ hd.1 e he, hd.2⟩
      · next hlt hne =>
        refine List.pairwise_cons.2 ⟨?_, ih hd.2⟩
        intro e he
        rcases fst_mem_insertInto he with h1 | h1
        · rw [h1]; exact Std.lt_of_le_of_ne (String.not_lt.1 hlt) (Ne.symm hne)
        · exact hd.1 e h1

def empty : Bindings := ⟨[], List.Pairwise.nil⟩

def insert (b : Bindings) (name text : String) : Bindings :=
  ⟨insertInto name text b.entries, sorted_insertInto b.sorted⟩

/-- Sets the variables of a list, from first to last. -/
def ofList (entries : List (String × String)) : Bindings :=
  entries.foldl (fun b e => b.insert e.1 e.2) empty

def get? (b : Bindings) (name : String) : Option String :=
  b.entries.lookup name

/-- Changes the texts and keeps the names. -/
def mapTexts (f : String → String → String) (b : Bindings) : Bindings :=
  ⟨b.entries.map fun e => (e.1, f e.1 e.2), List.pairwise_map.2 b.sorted⟩

def toJson (b : Bindings) : Json :=
  .obj (b.entries.map fun e => (e.1, .str e.2))

/-- Reads the written form; of a name that occurs twice the last text stands. -/
def ofJson? : Json → Option Bindings
  | .obj fields => (fields.mapM fun (f : String × Json) => f.2.str?.map fun t => (f.1, t)).map ofList
  | _ => none

end Bindings

end CiPlan
