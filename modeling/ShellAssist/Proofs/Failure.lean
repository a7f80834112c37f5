import ShellAssist.Failure
import Mathlib.Data.List.Forall2

namespace ShellAssist

/-!
# Steps that may fail

What is known of the parts of a computation that gave a result, or that gave none.

* `bind_ok_iff`, `fails_bind_iff` — a step behind another;
* `map_ok_iff`, `map_error_iff` — what is made of a result;
* `mapM_ok_iff`, `fails_mapM_iff` — a step for every element of a list.
-/

/-- A step behind another gives a result if both do. -/
theorem bind_ok_iff {α β : Type} {step : Except Failure α} {next : α → Except Failure β} {y : β} :
    step >>= next = .ok y ↔ ∃ x, step = .ok x ∧ next x = .ok y := by
  cases step with
  | error failure => exact ⟨nofun, fun ⟨_, h, _⟩ => nomatch h⟩
  | ok x => exact ⟨fun h => ⟨x, rfl, h⟩, fun ⟨_, hx, h⟩ => Except.ok.inj hx ▸ h⟩

/-- What is made of a result is there if the result is. -/
theorem map_ok_iff {α β : Type} {f : α → β} {step : Except Failure α} {y : β} :
    step.map f = .ok y ↔ ∃ x, step = .ok x ∧ f x = y := by
  cases step with
  | error failure => exact ⟨nofun, fun ⟨_, h, _⟩ => nomatch h⟩
  | ok x => exact ⟨fun h => ⟨x, rfl, Except.ok.inj h⟩, fun ⟨_, hx, h⟩ => by
      rw [Except.ok.inj hx, ← h]
      rfl⟩

/-- What is made of a result fails as that does. -/
theorem map_error_iff {α β : Type} {f : α → β} {step : Except Failure α} {failure : Failure} :
    step.map f = .error failure ↔ step = .error failure := by
  cases step with
  | error failure' => exact ⟨fun h => congrArg _ (Except.error.inj h), fun h => h ▸ rfl⟩
  | ok x => exact ⟨nofun, nofun⟩

/-- What is made of a result in two steps is made of it in one. -/
theorem map_map {α β γ : Type} (f : α → β) (g : β → γ) (step : Except Failure α) :
    (step.map f).map g = step.map fun x => g (f x) := by
  cases step <;> rfl

/-- Only what is made of the result itself counts. -/
theorem map_congr {α β : Type} {f g : α → β} {step : Except Failure α}
    (h : ∀ x, step = .ok x → f x = g x) : step.map f = step.map g := by
  cases step with
  | error failure => rfl
  | ok x => exact congrArg Except.ok (h x rfl)

/-- A list is mapped without failing just if each of its elements is. -/
theorem mapM_ok_iff {α β : Type} {f : α → Except Failure β} {xs : List α} {ys : List β} :
    xs.mapM f = .ok ys ↔ List.Forall₂ (fun x y => f x = .ok y) xs ys := by
  -- With the results general: their head and tail are given by the first two steps.
  induction xs generalizing ys with
  | nil =>
    rw [List.forall₂_nil_left_iff]
    exact ⟨fun h => (Except.ok.inj h).symm, fun h => h ▸ rfl⟩
  | cons x xs ih =>
    rw [List.mapM_cons, List.forall₂_cons_left_iff]
    constructor
    · intro h
      obtain ⟨y, hx, h⟩ := bind_ok_iff.mp h
      obtain ⟨rest, hxs, h⟩ := bind_ok_iff.mp h
      exact ⟨y, rest, hx, ih.mp hxs, (Except.ok.inj h).symm⟩
    · rintro ⟨y, rest, hx, hxs, rfl⟩
      rw [hx, ih.mpr hxs]
      rfl

/-- What a list is mapped to comes of its elements. -/
theorem exists_of_mem_mapM {α β : Type} {f : α → Except Failure β} {xs : List α} {ys : List β}
    (h : xs.mapM f = .ok ys) {y : β} (hy : y ∈ ys) : ∃ x, f x = .ok y := by
  have hall := mapM_ok_iff.mp h
  clear h
  induction hall with
  | nil => cases hy
  | cons hxy _ ih =>
    rcases List.mem_cons.mp hy with rfl | hy
    · exact ⟨_, hxy⟩
    · exact ih hy

/-! ### Steps that fail -/

/-- The step gives no result. -/
def Fails {α : Type} (step : Except Failure α) : Prop :=
  ∃ failure, step = .error failure

section Fails

variable {α β : Type} {step : Except Failure α}

@[simp] theorem not_fails_ok (x : α) : ¬ Fails (.ok x : Except Failure α) := by
  rintro ⟨failure, h⟩
  cases h

@[simp] theorem fails_error (failure : Failure) : Fails (.error failure : Except Failure α) :=
  ⟨failure, rfl⟩

theorem not_fails_iff : ¬ Fails step ↔ ∃ x, step = .ok x := by
  cases step with
  | error failure => exact ⟨fun h => absurd (fails_error failure) h, fun ⟨_, h⟩ => nomatch h⟩
  | ok x => exact ⟨fun _ => ⟨x, rfl⟩, fun _ => not_fails_ok x⟩

/-- A step behind another fails if either does. -/
theorem fails_bind_iff {next : α → Except Failure β} :
    Fails (step >>= next) ↔ Fails step ∨ ∃ x, step = .ok x ∧ Fails (next x) := by
  cases step with
  | error failure => exact ⟨fun _ => .inl (fails_error failure), fun _ => fails_error failure⟩
  | ok x =>
    constructor
    · exact fun h => .inr ⟨x, rfl, h⟩
    · rintro (h | ⟨y, hy, h⟩)
      · exact absurd h (not_fails_ok x)
      · exact Except.ok.inj hy ▸ h

theorem fails_map_iff {f : α → β} : Fails (step.map f) ↔ Fails step := by
  cases step with
  | error failure => exact ⟨fun _ => fails_error failure, fun _ => fails_error failure⟩
  | ok x => exact ⟨fun h => absurd h (not_fails_ok _), fun h => absurd h (not_fails_ok x)⟩

/-- A list is not mapped just if one of its elements is not. -/
theorem fails_mapM_iff {f : α → Except Failure β} {xs : List α} :
    Fails (xs.mapM f) ↔ ∃ x ∈ xs, Fails (f x) := by
  induction xs with
  | nil =>
    rw [List.mapM_nil]
    exact ⟨fun h => absurd h (not_fails_ok _), fun ⟨_, hx, _⟩ => nomatch hx⟩
  | cons x xs ih =>
    rw [List.mapM_cons, fails_bind_iff, List.exists_mem_cons_iff, ← ih]
    cases hx : f x with
    | error failure => exact ⟨fun _ => .inl (fails_error _), fun _ => .inl (fails_error _)⟩
    | ok y =>
      -- Past a first element that succeeds only the rest can fail; consing it cannot.
      constructor
      · rintro (h | ⟨_, -, h⟩)
        · exact absurd h (not_fails_ok y)
        · rcases fails_bind_iff.mp h with h | ⟨ys, -, h⟩
          · exact .inr h
          · exact absurd h (not_fails_ok _)
      · rintro (h | h)
        · exact absurd h (not_fails_ok y)
        · exact .inr ⟨y, rfl, fails_bind_iff.mpr (.inl h)⟩

end Fails

end ShellAssist
