/-!
# Sets of names

A finite set of texts, listed in code point order without repetition.  The tags of a test and the
terms of a selector are such sets; the order is the one in which they are written out.

Main statements: `contains_insert` and `contains_ofList` say what a set contains.
-/

namespace CiPlan

/-- A finite set of texts in code point order. -/
structure NameSet where
  /-- The members, least first. -/
  names : List String
  /-- Each member is below the ones after it, so none occurs twice. -/
  sorted : names.Pairwise (· < ·)
  deriving DecidableEq

namespace NameSet

/-- Puts a name at its place in an ascending list, unless it is there. -/
def insertInto (x : String) : List String → List String
  | [] => [x]
  | y :: ys => if x < y then x :: y :: ys else if x = y then y :: ys else y :: insertInto x ys

@[simp]
theorem mem_insertInto {x z : String} {ys : List String} :
    z ∈ insertInto x ys ↔ z = x ∨ z ∈ ys := by
  induction ys with
  | nil => simp [insertInto]
  | cons y ys ih =>
    unfold insertInto
    split
    · simp
    · split
      · next h => subst h; simp
      · simp only [List.mem_cons, ih]
        exact ⟨fun h => by rcases h with h | h | h <;> simp [h],
          fun h => by rcases h with h | h | h <;> simp [h]⟩

/-- Insertion keeps the order. -/
theorem sorted_insertInto {x : String} {ys : List String} (h : ys.Pairwise (· < ·)) :
    (insertInto x ys).Pairwise (· < ·) := by
  induction ys with
  | nil => simp [insertInto]
  | cons y ys ih =>
    have hy := List.pairwise_cons.1 h
    unfold insertInto
    split
    · next hxy =>
      refine List.pairwise_cons.2 ⟨?_, h⟩
      intro z hz
      rcases List.mem_cons.1 hz with rfl | hz
      · exact hxy
      · exact String.lt_trans hxy (hy.1 z hz)
    · split
      · exact h
      · next hxy hne =>
        refine List.pairwise_cons.2 ⟨?_, ih hy.2⟩
        intro z hz
        rcases mem_insertInto.1 hz with rfl | hz
        · exact Std.lt_of_le_of_ne (String.not_lt.1 hxy) (Ne.symm hne)
        · exact hy.1 z hz

def empty : NameSet := ⟨[], List.Pairwise.nil⟩

def insert (s : NameSet) (x : String) : NameSet :=
  ⟨insertInto x s.names, sorted_insertInto s.sorted⟩

/-- The set of the names in a list. -/
def ofList (xs : List String) : NameSet :=
  xs.foldl insert empty

def contains (s : NameSet) (x : String) : Bool :=
  s.names.contains x

def size (s : NameSet) : Nat :=
  s.names.length

def isEmpty (s : NameSet) : Bool :=
  s.names.isEmpty

/-- The members between braces, as a set is displayed. -/
def display (s : NameSet) : String :=
  "\x7b" ++ ", ".intercalate s.names ++ "\x7d"

@[simp]
theorem contains_empty (x : String) : empty.contains x = false := rfl

@[simp]
theorem contains_insert (s : NameSet) (x y : String) :
    (s.insert x).contains y = (y == x || s.contains y) := by
  rw [Bool.eq_iff_iff]
  simp [contains, insert]

/-- The set of a longer list. -/
theorem ofList_concat (xs : List String) (x : String) :
    ofList (xs ++ [x]) = (ofList xs).insert x := by
  simp [ofList]

/-- A list's set holds its elements. -/
theorem contains_ofList (xs : List String) (y : String) :
    (ofList xs).contains y = xs.contains y := by
  suffices h : ∀ s : NameSet, (xs.foldl insert s).contains y = (s.contains y || xs.contains y) by
    simpa [ofList, contains, empty] using h empty
  induction xs with
  | nil => simp
  | cons x xs ih =>
    intro s
    rw [List.foldl_cons, ih, contains_insert, List.contains_cons]
    cases s.contains y <;> cases (y == x) <;> simp

end NameSet

end CiPlan
