import ShellAssist.Proofs.Host.Action

namespace ShellAssist

/-!
# Steps in related worlds

Two steps are taken in two worlds that are related in some way. They go along with each other if they
come to the same and leave related worlds behind. A program then goes along with itself if each of its
parts does.

* `InStep`, `Action.InStep` — steps that come to the same in related worlds;
* `Action.InStep.read` — steps that only read their worlds;
* `Action.InStep.orElse` — steps that cannot fail any more.
-/

variable {α β : Type}

/-- Taken in related worlds, the steps give the same result and leave related worlds behind. -/
def InStep (R : World → World → Prop) (step₁ step₂ : StateM World α) : Prop :=
  ∀ w₁ w₂, R w₁ w₂ → (step₁ w₁).1 = (step₂ w₂).1 ∧ R (step₁ w₁).2 (step₂ w₂).2

/-- The same of steps that may fail: they fail in the same way. -/
def Action.InStep (R : World → World → Prop) (action₁ action₂ : Action α) : Prop :=
  ShellAssist.InStep R action₁.run action₂.run

variable {R : World → World → Prop}

/-! ### Steps that do not fail -/

namespace InStep

variable {step₁ step₂ : StateM World α} {next₁ next₂ : α → StateM World β}

/-- A value is the same in related worlds. -/
theorem pure (x : α) : InStep R (Pure.pure x) (Pure.pure x) :=
  fun _ _ hw => ⟨rfl, hw⟩

/-- Steps that go along may follow each other. -/
theorem bind (h : InStep R step₁ step₂) (hnext : ∀ x, InStep R (next₁ x) (next₂ x)) :
    InStep R (step₁ >>= next₁) (step₂ >>= next₂) := by
  intro w₁ w₂ hw
  obtain ⟨hresult, hworlds⟩ := h w₁ w₂ hw
  rw [bind_run, bind_run, hresult]
  exact hnext _ _ _ hworlds

end InStep

/-! ### Steps that may fail -/

namespace Action.InStep

variable {action₁ action₂ : Action α} {next₁ next₂ : α → Action β}

/-- A value is the same in related worlds. -/
theorem pure (x : α) : Action.InStep R (Pure.pure x) (Pure.pure x) :=
  ShellAssist.InStep.pure _

/-- A failure is the same. -/
theorem throw (failure : Failure) :
    Action.InStep R (MonadExcept.throw failure : Action α) (MonadExcept.throw failure) :=
  ShellAssist.InStep.pure _

/-- So is a result that is there already. -/
theorem ofExcept (result : Except Failure α) :
    Action.InStep R (ExceptT.mk (Pure.pure result)) (ExceptT.mk (Pure.pure result)) :=
  ShellAssist.InStep.pure _

/-- Actions that go along may follow each other. -/
theorem bind (h : action₁.InStep R action₂) (hnext : ∀ x, (next₁ x).InStep R (next₂ x)) :
    (action₁ >>= next₁).InStep R (action₂ >>= next₂) := by
  show ShellAssist.InStep R (action₁.run >>= ExceptT.bindCont next₁)
    (action₂.run >>= ExceptT.bindCont next₂)
  refine ShellAssist.InStep.bind h fun result => ?_
  cases result with
  | error failure => exact ShellAssist.InStep.pure _
  | ok x => exact hnext x

/-- Steps may read their worlds if they go on alike in related ones. -/
theorem get_bind {next₁ next₂ : World → Action β}
    (h : ∀ w₁ w₂, R w₁ w₂ → (next₁ w₁).InStep R (next₂ w₂)) :
    (get >>= next₁ : Action β).InStep R (get >>= next₂) :=
  fun w₁ w₂ hw => h w₁ w₂ hw w₁ w₂ hw

/-- Steps that only read their worlds come to the same if they read the same in related ones. -/
theorem read {f₁ f₂ : World → Except Failure α} (h : ∀ w₁ w₂, R w₁ w₂ → f₁ w₁ = f₂ w₂) :
    Action.InStep R (do let w ← get; ExceptT.mk (Pure.pure (f₁ w)))
      (do let w ← get; ExceptT.mk (Pure.pure (f₂ w))) := by
  refine get_bind fun w₁ w₂ hw => ?_
  rw [h w₁ w₂ hw]
  exact ofExcept _

/-- A step that cannot fail goes along as an action. -/
theorem lift {step₁ step₂ : StateM World α} (h : ShellAssist.InStep R step₁ step₂) :
    Action.InStep R (liftM step₁) (liftM step₂) :=
  ShellAssist.InStep.bind h fun _ => ShellAssist.InStep.pure _

/-- So does an action with a substitute for its failure. -/
theorem orElse (h : action₁.InStep R action₂) (substitute : α) :
    ShellAssist.InStep R (action₁.orElse substitute) (action₂.orElse substitute) := by
  intro w₁ w₂ hw
  obtain ⟨hresult, hworlds⟩ := h w₁ w₂ hw
  simp only [ExceptT.run] at hresult hworlds
  rw [Action.orElse, Action.orElse]
  rcases h₁ : action₁ w₁ with ⟨result₁, w₁'⟩
  rcases h₂ : action₂ w₂ with ⟨result₂, w₂'⟩
  rw [h₁, h₂] at hresult hworlds
  obtain rfl : result₁ = result₂ := hresult
  cases result₁ with
  | error failure => exact ⟨rfl, hworlds⟩
  | ok x => exact ⟨rfl, hworlds⟩

/-- So does an action for each element of a list. -/
theorem mapM {f : β → Action α} (h : ∀ y, (f y).InStep R (f y)) (ys : List β) :
    (ys.mapM f).InStep R (ys.mapM f) := by
  induction ys with
  | nil =>
    rw [List.mapM_nil]
    exact pure _
  | cons y ys ih =>
    rw [List.mapM_cons]
    exact bind (h y) fun x => bind ih fun xs => pure _

end Action.InStep

end ShellAssist
