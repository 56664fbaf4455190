import Mathlib.Data.List.Forall2

/-! # Steps that can fail

When a sequence of steps gives a result, each of its steps does. -/

namespace TypedCsv.Except

variable {ε ε' α β : Type}

/-- A result is one. -/
@[simp] theorem isOk_ok (a : α) : (Except.ok a : Except ε α).isOk = true := rfl

/-- An error is no result. -/
@[simp] theorem isOk_error (e : ε) : (Except.error e : Except ε α).isOk = false := rfl

/-- A result is the value of its step. -/
@[simp] theorem toOption_ok (a : α) : (Except.ok a : Except ε α).toOption = some a := rfl

/-- An error gives no value. -/
@[simp] theorem toOption_error (e : ε) : (Except.error e : Except ε α).toOption = none := rfl

/-- A sequence of two steps gives a result exactly if both do. -/
theorem bind_eq_ok_iff {x : Except ε α} {f : α → Except ε β} {b : β} :
    (x >>= f) = .ok b ↔ ∃ a, x = .ok a ∧ f a = .ok b := by
  cases x with
  | error e =>
    constructor
    · intro h
      cases h
    · rintro ⟨a, h, -⟩
      cases h
  | ok a =>
    constructor
    · exact fun h => ⟨a, rfl, h⟩
    · rintro ⟨a', h, hf⟩
      cases h
      exact hf

/-- A step with a function behind it gives a result exactly if the step does. -/
theorem map_eq_ok_iff {x : Except ε α} {f : α → β} {b : β} :
    x.map f = .ok b ↔ ∃ a, x = .ok a ∧ f a = b := by
  cases x <;> simp [Except.map]

/-- What is done to the errors of a step does not change its results. -/
@[simp] theorem mapError_eq_ok_iff {x : Except ε α} {f : ε → ε'} {a : α} :
    x.mapError f = .ok a ↔ x = .ok a := by
  cases x <;> simp [Except.mapError]

/-- A step for each element of a list gives a result exactly if all of them do. -/
theorem mapM_eq_ok_iff {f : α → Except ε β} {xs : List α} {ys : List β} :
    xs.mapM f = .ok ys ↔ List.Forall₂ (fun x y => f x = .ok y) xs ys := by
  induction xs generalizing ys with
  | nil => cases ys <;> simp [pure, Except.pure]
  | cons x xs ih =>
    simp only [List.mapM_cons, bind_eq_ok_iff, ih]
    constructor
    · rintro ⟨y, hy, ys', hys, h⟩
      cases h
      exact .cons hy hys
    · intro h
      cases h with
      | cons hy hys => exact ⟨_, hy, _, hys, rfl⟩

/-- A step that gives one fixed result where a condition holds gives, over a list, these results
exactly if the condition holds of all elements. -/
theorem mapM_eq_ok_iff_map {f : α → Except ε β} {holds : α → Prop} {g : α → β}
    (h : ∀ x y, f x = .ok y ↔ holds x ∧ y = g x) {xs : List α} {ys : List β} :
    xs.mapM f = .ok ys ↔ (∀ x ∈ xs, holds x) ∧ ys = xs.map g := by
  rw [mapM_eq_ok_iff]
  induction xs generalizing ys with
  | nil => simp
  | cons x xs ih =>
    rw [List.forall₂_cons_left_iff, List.forall_mem_cons, List.map_cons]
    constructor
    · rintro ⟨y, ys', hy, hys, rfl⟩
      obtain ⟨hx, rfl⟩ := (h x y).1 hy
      obtain ⟨hxs, rfl⟩ := ih.1 hys
      exact ⟨⟨hx, hxs⟩, rfl⟩
    · rintro ⟨⟨hx, hxs⟩, rfl⟩
      exact ⟨g x, xs.map g, (h x _).2 ⟨hx, rfl⟩, ih.2 ⟨hxs, rfl⟩, rfl⟩

/-- Each result comes from one of the elements. -/
theorem exists_of_mem_forall₂ {related : α → β → Prop} {xs : List α} {ys : List β}
    (h : List.Forall₂ related xs ys) {y : β} (hy : y ∈ ys) : ∃ x ∈ xs, related x y := by
  induction h with
  | nil => cases hy
  | cons hfirst _ ih =>
    obtain rfl | hy := List.mem_cons.1 hy
    · exact ⟨_, List.mem_cons_self, hfirst⟩
    · obtain ⟨x, hx, hxy⟩ := ih hy
      exact ⟨x, List.mem_cons_of_mem _ hx, hxy⟩

/-- A step for each element of a list gives results in a relation to the elements of another list
exactly if each step does. -/
theorem exists_mapM_eq_ok_forall₂_iff {γ : Type} {f : α → Except ε β} {related : β → γ → Prop}
    {xs : List α} {zs : List γ} :
    (∃ ys, xs.mapM f = .ok ys ∧ List.Forall₂ related ys zs) ↔
      List.Forall₂ (fun x z => ∃ y, f x = .ok y ∧ related y z) xs zs := by
  simp only [mapM_eq_ok_iff]
  induction xs generalizing zs with
  | nil => simp
  | cons x xs ih =>
    constructor
    · rintro ⟨ys, hys, hzs⟩
      cases hys with
      | cons hy hys =>
        cases hzs with
        | cons hz hzs => exact .cons ⟨_, hy, hz⟩ (ih.1 ⟨_, hys, hzs⟩)
    · intro h
      cases h with
      | cons hx hxs =>
        obtain ⟨y, hy, hz⟩ := hx
        obtain ⟨ys, hys, hzs⟩ := ih.2 hxs
        exact ⟨y :: ys, .cons hy hys, .cons hz hzs⟩

/-- A step for each element of a list gives some result exactly if each of them gives one. -/
theorem exists_mapM_eq_ok_iff {f : α → Except ε β} {xs : List α} :
    (∃ ys, xs.mapM f = .ok ys) ↔ ∀ x ∈ xs, ∃ y, f x = .ok y := by
  induction xs with
  | nil => simp [pure, Except.pure]
  | cons x xs ih =>
    rw [List.forall_mem_cons, ← ih]
    simp only [mapM_eq_ok_iff]
    constructor
    · rintro ⟨_, h⟩
      cases h with
      | cons hy hys => exact ⟨⟨_, hy⟩, _, hys⟩
    · rintro ⟨⟨y, hy⟩, ys, hys⟩
      exact ⟨y :: ys, .cons hy hys⟩

end TypedCsv.Except
