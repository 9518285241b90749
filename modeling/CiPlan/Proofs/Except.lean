import Mathlib.Data.List.Forall2

/-!
# Computations that may fail

When a computation in steps succeeds, each of its steps has.  The statements about plans, checks of
configurations and runs begin by taking such a computation apart.
-/

namespace CiPlan

variable {α β γ ε ε' : Type}

theorem ok_bind (a : α) (rest : α → Except ε β) : (.ok a >>= rest) = rest a :=
  rfl

theorem error_bind (e : ε) (rest : α → Except ε β) : (.error e >>= rest) = .error e :=
  rfl

theorem mapError_ok (f : ε → ε') (a : α) : (.ok a : Except ε α).mapError f = .ok a :=
  rfl

theorem mapError_error (f : ε → ε') (e : ε) :
    (.error e : Except ε α).mapError f = .error (f e) :=
  rfl

/-- A step and the rest succeed together. -/
theorem bind_eq_ok {x : Except ε α} {rest : α → Except ε β} {b : β} :
    (x >>= rest) = .ok b ↔ ∃ a, x = .ok a ∧ rest a = .ok b := by
  cases x with
  | error e =>
      constructor
      · intro h
        cases h
      · rintro ⟨a, h, -⟩
        cases h
  | ok a =>
      constructor
      · intro h
        exact ⟨a, rfl, h⟩
      · rintro ⟨a', ha, h⟩
        cases ha
        exact h

theorem map_eq_ok {x : Except ε α} {f : α → β} {b : β} :
    f <$> x = .ok b ↔ ∃ a, x = .ok a ∧ f a = b := by
  cases x with
  | error e =>
      constructor
      · intro h
        cases h
      · rintro ⟨a, h, -⟩
        cases h
  | ok a =>
      constructor
      · intro h
        cases h
        exact ⟨a, rfl, rfl⟩
      · rintro ⟨a', ha, rfl⟩
        cases ha
        rfl

theorem mapError_eq_ok {x : Except ε α} {f : ε → ε'} {a : α} :
    x.mapError f = .ok a ↔ x = .ok a := by
  cases x <;> simp [Except.mapError]

/-- A computation in steps fails with the failure of a step. -/
theorem bind_eq_error {x : Except ε α} {rest : α → Except ε β} {e : ε} :
    (x >>= rest) = .error e ↔ x = .error e ∨ ∃ a, x = .ok a ∧ rest a = .error e := by
  cases x with
  | error e' => simp [error_bind]
  | ok a => simp [ok_bind]

theorem mapError_eq_error {x : Except ε α} {f : ε → ε'} {e : ε'} :
    x.mapError f = .error e ↔ ∃ reason, x = .error reason ∧ e = f reason := by
  cases x with
  | error reason => simp [mapError_error, eq_comm]
  | ok a => simp [mapError_ok]

theorem map_eq_error {x : Except ε α} {f : α → β} {e : ε} :
    f <$> x = .error e ↔ x = .error e := by
  cases x <;> simp [Functor.map, Except.map]

/-- What is computed for the elements of a list is computed for each by itself. -/
theorem forall₂_of_mapM {f : α → Except ε β} {xs : List α} :
    ∀ {ys : List β}, xs.mapM f = .ok ys → List.Forall₂ (fun x y => f x = .ok y) xs ys := by
  induction xs with
  | nil =>
      intro ys h
      cases h
      exact .nil
  | cons x xs ih =>
      intro ys h
      rw [List.mapM_cons] at h
      obtain ⟨y, hy, hrest⟩ := bind_eq_ok.mp h
      obtain ⟨rest, hxs, hys⟩ := bind_eq_ok.mp hrest
      cases hys
      exact .cons hy (ih hxs)

/-- What can be computed for each element of a list can be computed for the list. -/
theorem exists_mapM_eq_ok {f : α → Except ε β} {xs : List α}
    (h : ∀ x ∈ xs, ∃ y, f x = .ok y) : ∃ ys, xs.mapM f = .ok ys := by
  induction xs with
  | nil => exact ⟨[], rfl⟩
  | cons x xs ih =>
      obtain ⟨y, hy⟩ := h x List.mem_cons_self
      obtain ⟨ys, hys⟩ := ih fun x hx => h x (List.mem_cons_of_mem _ hx)
      refine ⟨y :: ys, ?_⟩
      rw [List.mapM_cons, hy, hys]
      rfl

/-- What is changed in each result can be changed in the list of the results. -/
theorem mapM_map {f : α → Except ε β} (change : β → γ) (xs : List α) :
    (xs.mapM fun x => change <$> f x) = List.map change <$> xs.mapM f := by
  induction xs with
  | nil => rfl
  | cons x xs ih =>
      rw [List.mapM_cons, List.mapM_cons, ih]
      cases f x with
      | error e => rfl
      | ok y => cases xs.mapM f <;> rfl

/-- Steps that are only checks pass together. -/
theorem forM_eq_ok {f : α → Except ε Unit} {xs : List α} :
    xs.forM f = .ok () ↔ ∀ x ∈ xs, f x = .ok () := by
  induction xs with
  | nil => exact ⟨fun _ _ hx => (List.not_mem_nil hx).elim, fun _ => rfl⟩
  | cons x xs ih =>
      show (f x >>= fun _ => xs.forM f) = .ok () ↔ _
      rw [bind_eq_ok, List.forall_mem_cons, ← ih]
      constructor
      · rintro ⟨⟨⟩, h⟩
        exact h
      · intro h
        exact ⟨(), h⟩

/-- Steps that are only checks fail with the first that does not pass. -/
theorem forM_eq_error {f : α → Except ε Unit} {xs : List α} {e : ε} :
    xs.forM f = .error e ↔ ∃ before x after, xs = before ++ x :: after ∧
      (∀ y ∈ before, f y = .ok ()) ∧ f x = .error e := by
  induction xs with
  | nil =>
      constructor
      · intro h
        cases h
      · rintro ⟨before, x, after, h, -⟩
        simp at h
  | cons x xs ih =>
      show (f x >>= fun _ => xs.forM f) = .error e ↔ _
      rw [bind_eq_error, ih]
      constructor
      · rintro (h | ⟨⟨⟩, hx, before, y, after, rfl, hbefore, hy⟩)
        · exact ⟨[], x, xs, rfl, nofun, h⟩
        · exact ⟨x :: before, y, after, rfl, List.forall_mem_cons.mpr ⟨hx, hbefore⟩, hy⟩
      · rintro ⟨before, y, after, hsplit, hbefore, hy⟩
        cases before with
        | nil =>
            cases hsplit
            exact .inl hy
        | cons z before =>
            cases hsplit
            obtain ⟨hz, hbefore⟩ := List.forall_mem_cons.mp hbefore
            exact .inr ⟨(), hz, before, y, after, rfl, hbefore, hy⟩

theorem exists_of_forall₂ {related : α → β → Prop} {xs : List α} {ys : List β}
    (h : List.Forall₂ related xs ys) {x : α} (hx : x ∈ xs) : ∃ y ∈ ys, related x y := by
  induction h with
  | nil => cases hx
  | cons hab _ ih =>
      rcases List.mem_cons.mp hx with rfl | hx
      · exact ⟨_, List.mem_cons_self, hab⟩
      · obtain ⟨y, hy, hrelated⟩ := ih hx
        exact ⟨y, List.mem_cons_of_mem _ hy, hrelated⟩

/-! ## Computations that end alike -/

/-- Both computations fail, with the same failure, or both succeed, with related results. -/
inductive Alike (related : α → β → Prop) : Except ε α → Except ε β → Prop
  | error (e : ε) : Alike related (.error e) (.error e)
  | ok {a : α} {b : β} (h : related a b) : Alike related (.ok a) (.ok b)

/-- Computations end alike when they cannot be told apart by what is looked at in their results. -/
theorem alike_of_map_eq {f : α → γ} {g : β → γ} {x : Except ε α} {y : Except ε β}
    (h : f <$> x = g <$> y) : Alike (fun a b => f a = g b) x y := by
  cases x with
  | error e =>
      cases map_eq_error.mp h.symm
      exact .error e
  | ok a =>
      obtain ⟨b, rfl, hb⟩ := map_eq_ok.mp h.symm
      exact .ok hb.symm

theorem Alike.imp {related related' : α → β → Prop} {x : Except ε α} {y : Except ε β}
    (h : Alike related x y) (himp : ∀ a b, related a b → related' a b) :
    Alike related' x y := by
  cases h with
  | error e => exact .error e
  | ok h => exact .ok (himp _ _ h)

/-! ## Failures of one kind -/

/-- What a computation fails with is of some kind. -/
def FailsWith (kind : ε → Prop) (x : Except ε α) : Prop :=
  ∀ e, x = .error e → kind e

section FailsWith

variable {kind : ε → Prop}

theorem failsWith_ok (a : α) : FailsWith kind (.ok a) :=
  fun _ h => nomatch h

theorem failsWith_error {e : ε} (h : kind e) : FailsWith kind (.error e : Except ε α) := by
  intro e' he
  cases he
  exact h

/-- A failure of a computation in steps is that of a step. -/
theorem FailsWith.bind {x : Except ε α} {rest : α → Except ε β} (hx : FailsWith kind x)
    (hrest : ∀ a, x = .ok a → FailsWith kind (rest a)) : FailsWith kind (x >>= rest) := by
  cases x with
  | error e => exact failsWith_error (hx e rfl)
  | ok a => exact hrest a rfl

theorem FailsWith.map {x : Except ε α} (hx : FailsWith kind x) (f : α → β) :
    FailsWith kind (f <$> x) := by
  cases x with
  | error e => exact failsWith_error (hx e rfl)
  | ok a => exact failsWith_ok (f a)

theorem FailsWith.mapError {f : ε' → ε} (h : ∀ e, kind (f e)) (x : Except ε' α) :
    FailsWith kind (x.mapError f) := by
  cases x with
  | error e => exact failsWith_error (h e)
  | ok a => exact failsWith_ok a

theorem FailsWith.mapM {f : α → Except ε β} {xs : List α} (h : ∀ x ∈ xs, FailsWith kind (f x)) :
    FailsWith kind (xs.mapM f) := by
  induction xs with
  | nil => exact failsWith_ok []
  | cons x xs ih =>
      rw [List.mapM_cons]
      refine (h x List.mem_cons_self).bind fun y _ => ?_
      refine (ih fun x hx => h x (List.mem_cons_of_mem _ hx)).bind fun ys _ => ?_
      exact failsWith_ok (y :: ys)

theorem FailsWith.forM {f : α → Except ε Unit} {xs : List α} (h : ∀ x ∈ xs, FailsWith kind (f x)) :
    FailsWith kind (xs.forM f) := by
  induction xs with
  | nil => exact failsWith_ok ()
  | cons x xs ih =>
      show FailsWith kind (f x >>= fun _ => xs.forM f)
      exact (h x List.mem_cons_self).bind fun _ _ => ih fun x hx => h x (List.mem_cons_of_mem _ hx)

end FailsWith

end CiPlan
