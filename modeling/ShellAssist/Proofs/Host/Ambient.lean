import ShellAssist.Proofs.Host.InStep

namespace ShellAssist

/-!
# Steps that do not see the process environment

The environment of the process is a part of the world. A step that reads everything but that comes
to the same in two worlds that differ in nothing else.

* `World.within` — the world as it is for a process with this environment;
* `Indifferent` — a step that comes to the same within two environments;
* `indifferent_iff_inStep` — that it goes along with itself in `OneWorld`.
-/

/-- The world as it is for a process with this environment. -/
def World.within (w : World) (e : Environment) : World :=
  { w with environment := e }

namespace World

variable (w : World) (e : Environment)

@[simp] theorem within_environment : (w.within e).environment = e := rfl

@[simp] theorem within_disk : (w.within e).disk = w.disk := rfl

@[simp] theorem within_nesting : (w.within e).nesting = w.nesting := rfl

@[simp] theorem within_cwd : (w.within e).cwd = w.cwd := rfl

@[simp] theorem within_users : (w.within e).users = w.users := rfl

@[simp] theorem within_clock : (w.within e).clock = w.clock := rfl

@[simp] theorem within_workingDirectory : (w.within e).workingDirectory = w.workingDirectory := rfl

/-- Time passes in the same way for all processes. -/
theorem within_later : (w.within e).later = w.later.within e := by
  have hreadings : (w.within e).readings = w.readings := rfl
  rw [later, later, hreadings]
  cases w.readings <;> rfl

/-- Processes whose environments name the same zone have the same local time. -/
theorem within_offset {e₁ e₂ : Environment}
    (h : Environment.get? e₁ "TZ" = Environment.get? e₂ "TZ") :
    (w.within e₁).offset = (w.within e₂).offset :=
  congrArg w.zones h

end World

/-- Both are one world, as it is for processes with these environments. -/
def OneWorld (e₁ e₂ : Environment) (w₁ w₂ : World) : Prop :=
  ∃ w : World, w₁ = w.within e₁ ∧ w₂ = w.within e₂

variable {α β : Type} {e₁ e₂ : Environment} {P : α → Prop} {R : β → Prop}

/-- The step comes to the same for processes with these environments: it gives the same result, which
has a property, and leaves the same world behind. -/
def Indifferent (e₁ e₂ : Environment) (step : StateM World α) (P : α → Prop) : Prop :=
  ∀ w : World, ∃ (x : α) (w' : World), P x ∧ step (w.within e₁) = (x, w'.within e₁) ∧
    step (w.within e₂) = (x, w'.within e₂)

/-! ### Steps -/

namespace Indifferent

variable {step : StateM World α} {next : α → StateM World β}

/-- A value is the same for all processes. -/
theorem pure {x : α} (hx : P x) : Indifferent e₁ e₂ (Pure.pure x) P :=
  fun w => ⟨x, w, hx, rfl, rfl⟩

/-- A step behind another comes to the same, from whatever that gave. -/
theorem bind (h : Indifferent e₁ e₂ step P) (hnext : ∀ x, P x → Indifferent e₁ e₂ (next x) R) :
    Indifferent e₁ e₂ (step >>= next) R := by
  intro w
  obtain ⟨x, w', hx, h₁, h₂⟩ := h w
  obtain ⟨y, w'', hy, hnext₁, hnext₂⟩ := hnext x hx w'
  refine ⟨y, w'', hy, ?_, ?_⟩
  · show next (step (w.within e₁)).1 (step (w.within e₁)).2 = _
    rw [h₁, hnext₁]
  · show next (step (w.within e₂)).1 (step (w.within e₂)).2 = _
    rw [h₂, hnext₂]

/-- What is made of a result is the same as well. -/
theorem map {f : α → β} (h : Indifferent e₁ e₂ step fun x => R (f x)) :
    Indifferent e₁ e₂ (f <$> step) R := by
  intro w
  obtain ⟨x, w', hx, h₁, h₂⟩ := h w
  refine ⟨f x, w', hx, ?_, ?_⟩
  · show (f (step (w.within e₁)).1, (step (w.within e₁)).2) = _
    rw [h₁]
  · show (f (step (w.within e₂)).1, (step (w.within e₂)).2) = _
    rw [h₂]

/-- A step may read the world if it goes on in the same way whatever the environment in it. -/
theorem get_bind {next : World → StateM World β}
    (hsame : ∀ w : World, next (w.within e₂) = next (w.within e₁))
    (h : ∀ w : World, Indifferent e₁ e₂ (next (w.within e₁)) R) :
    Indifferent e₁ e₂ (get >>= next) R := by
  intro w
  obtain ⟨x, w', hx, h₁, h₂⟩ := h w w
  exact ⟨x, w', hx, h₁, (congrFun (hsame w) (w.within e₂)).trans h₂⟩

/-- A step that may fail comes to the same with a substitute for its result. -/
theorem orElse {action : Action α} (h : Indifferent e₁ e₂ action.run fun _ => True) (substitute : α) :
    Indifferent e₁ e₂ (action.orElse substitute) fun _ => True := by
  intro w
  obtain ⟨result, w', -, h₁, h₂⟩ := h w
  rw [ExceptT.run] at h₁ h₂
  simp only [Action.orElse, h₁, h₂]
  cases result with
  | error failure => exact ⟨substitute, w', trivial, rfl, rfl⟩
  | ok x => exact ⟨x, w', trivial, rfl, rfl⟩

end Indifferent

/-- A step that goes along with itself in one world, as it is for both processes, comes to the same for
them. -/
theorem indifferent_iff_inStep {step : StateM World α} :
    Indifferent e₁ e₂ step (fun _ => True) ↔ InStep (OneWorld e₁ e₂) step step := by
  constructor
  · rintro h _ _ ⟨w, rfl, rfl⟩
    obtain ⟨x, w', -, h₁, h₂⟩ := h w
    rw [h₁, h₂]
    exact ⟨rfl, w', rfl, rfl⟩
  · intro h w
    obtain ⟨hresult, w', hw₁, hw₂⟩ := h _ _ ⟨w, rfl, rfl⟩
    exact ⟨(step (w.within e₁)).1, w', trivial, Prod.ext rfl hw₁, Prod.ext hresult.symm hw₂⟩

/-! ### Commands and notices -/

/-- What a command comes to is up to the world, not to the environment in it. -/
theorem indifferent_output (args : List String) (timeout : Option Number.Double)
    (cwd input : Option String) (acceptedCodes : List Int) :
    Indifferent e₁ e₂ (World.output args timeout cwd input acceptedCodes).run fun _ => True :=
  fun w => ⟨_, (World.output args timeout cwd input acceptedCodes w).2, trivial,
    by simp only [ExceptT.run, output_eq]; rfl, by simp only [ExceptT.run, output_eq]; rfl⟩

/-- What is logged is up to the step that logs it. -/
theorem indifferent_note (severity : Severity) (component text : String) :
    Indifferent e₁ e₂ (World.note severity component text) fun _ => True :=
  fun w => ⟨(), w.noted severity component text, trivial, rfl, rfl⟩

/-- So is what is logged of an unknown name. -/
theorem indifferent_noteMismatch (kind : String) (name : Option String) (fallback : String) :
    Indifferent e₁ e₂ (World.noteMismatch kind name fallback) fun _ => True :=
  indifferent_note _ _ _

end ShellAssist
