import ShellAssist.Host.World

namespace ShellAssist

/-!
# Steps that leave the disk alone

Completion reads the disk and runs commands, but changes no file. What a step finds is then known
from the disk that it starts on, whatever else it does to the world.

* `Finds` — on this disk, which stays as it is, the result of a step is one of these;
* `Action.Finds` — the same of a step that may fail;
* `Action.Finds.orElse` — a step that cannot fail any more;
* `output_eq` — what running a command does;
* `output_eq_error_iff` — when the system refuses to wait for it.
-/

variable {α β : Type} {d : Disk} {P Q : α → Prop} {R : β → Prop}

/-- Started on a disk, the step leaves it as it is and gives a result with a property. -/
def Finds (d : Disk) (step : StateM World α) (P : α → Prop) : Prop :=
  ∀ w : World, w.disk = d → (step w).2.disk = d ∧ P (step w).1

/-- Started on a disk, the step leaves it as it is, and any result has a property. -/
def Action.Finds (d : Disk) (action : Action α) (P : α → Prop) : Prop :=
  ∀ w : World, w.disk = d → (action w).2.disk = d ∧ ∀ x, (action w).1 = .ok x → P x

/-! ### Steps that do not fail -/

/-- A step behind another starts on what that gives. -/
theorem bind_run (step : StateM World α) (next : α → StateM World β) (w : World) :
    (step >>= next) w = next (step w).1 (step w).2 :=
  rfl

namespace Finds

variable {step : StateM World α} {next : α → StateM World β}

/-- What is found has whatever follows from what it has. -/
theorem mono (h : Finds d step P) (hPQ : ∀ x, P x → Q x) : Finds d step Q :=
  fun w hw => ⟨(h w hw).1, hPQ _ (h w hw).2⟩

/-- A value is found on every disk. -/
theorem pure {x : α} (hx : P x) : Finds d (Pure.pure x) P :=
  fun _ hw => ⟨hw, hx⟩

/-- A step behind another starts on the same disk, from what that has found. -/
theorem bind (h : Finds d step P) (hnext : ∀ x, P x → Finds d (next x) R) :
    Finds d (step >>= next) R := by
  intro w hw
  obtain ⟨hdisk, hx⟩ := h w hw
  exact hnext _ hx _ hdisk

end Finds

/-! ### Steps that may fail -/

namespace Action

/-- A step behind another runs where that gave a result. -/
theorem bind_run (action : Action α) (next : α → Action β) (w : World) :
    (action >>= next) w = match action w with
      | (.ok x, w') => next x w'
      | (.error e, w') => (.error e, w') := by
  show (match action w with | (r, w') => ExceptT.bindCont next r w') = _
  rcases action w with ⟨e | x, w'⟩ <;> rfl

/-- Reading the world leaves it as it is. -/
theorem get_run (w : World) : (get : Action World) w = (.ok w, w) :=
  rfl

/-- What is computed from values leaves the world as it is, whether it fails or not. -/
theorem ofExcept_run (result : Except Failure α) (w : World) :
    (ExceptT.mk (Pure.pure result) : Action α) w = (result, w) :=
  rfl

/-- A step that cannot fail does not fail among others that may. -/
theorem lift_run (step : StateM World α) (w : World) :
    (liftM step : Action α) w = (.ok (step w).1, (step w).2) :=
  rfl

/-- A substitute for the result leaves the same world behind. -/
theorem snd_orElse (action : Action α) (substitute : α) (w : World) :
    (action.orElse substitute w).2 = (action w).2 := by
  rw [orElse]
  rcases action w with ⟨e | x, w'⟩ <;> rfl

namespace Finds

variable {action : Action α} {next : α → Action β}

/-- What is found has whatever follows from what it has. -/
theorem mono (h : action.Finds d P) (hPQ : ∀ x, P x → Q x) : action.Finds d Q :=
  fun w hw => ⟨(h w hw).1, fun x hx => hPQ x ((h w hw).2 x hx)⟩

/-- A value is found on every disk. -/
theorem pure {x : α} (hx : P x) : Action.Finds d (Pure.pure x) P := by
  refine fun w hw => ⟨hw, fun y hy => ?_⟩
  rw [← show x = y from Except.ok.inj hy]
  exact hx

/-- A step behind another that gave a result starts on the same disk, from what that has found. -/
theorem bind (h : action.Finds d P) (hnext : ∀ x, P x → (next x).Finds d R) :
    (action >>= next).Finds d R := by
  intro w hw
  obtain ⟨hdisk, hx⟩ := h w hw
  rw [bind_run]
  rcases haction : action w with ⟨e | x, w'⟩
  · rw [haction] at hdisk
    exact ⟨hdisk, nofun⟩
  · rw [haction] at hdisk hx
    exact hnext x (hx x rfl) w' hdisk

/-- The world that a step reads has the disk. -/
theorem get : Action.Finds d MonadState.get fun w => w.disk = d := by
  refine fun w hw => ⟨hw, fun w' hw' => ?_⟩
  rw [← show w = w' from Except.ok.inj hw']
  exact hw

/-- A step that cannot fail finds the same among others that may. -/
theorem lift {step : StateM World α} (h : ShellAssist.Finds d step P) :
    Action.Finds d (liftM step) P := by
  refine fun w hw => ⟨(h w hw).1, fun x hx => ?_⟩
  rw [← show (step w).1 = x from Except.ok.inj hx]
  exact (h w hw).2

/-- A computation finds its result, if it has one. -/
theorem ofExcept {r : Except Failure α} (h : ∀ x, r = .ok x → P x) :
    Action.Finds d (ExceptT.mk (Pure.pure r)) P :=
  fun _ hw => ⟨hw, h⟩

/-- What fails finds nothing. -/
theorem throw (failure : Failure) : Action.Finds d (MonadExcept.throw failure) P :=
  fun _ hw => ⟨hw, nofun⟩

/-- A step with a substitute for its result does not fail. -/
theorem orElse (h : action.Finds d P) {substitute : α} (hsubstitute : P substitute) :
    ShellAssist.Finds d (action.orElse substitute) P := by
  intro w hw
  obtain ⟨hdisk, hx⟩ := h w hw
  rcases haction : action w with ⟨e | x, w'⟩
  · rw [haction] at hdisk
    simp only [Action.orElse, haction]
    exact ⟨hdisk, hsubstitute⟩
  · rw [haction] at hdisk hx
    simp only [Action.orElse, haction]
    exact ⟨hdisk, hx x rfl⟩

/-- What a step finds that goes through a list is what it finds for each of its elements. -/
theorem mapM {f : β → Action α} {xs : List β} (h : ∀ x ∈ xs, (f x).Finds d P) :
    (xs.mapM f).Finds d fun found => ∀ y ∈ found, P y := by
  induction xs with
  | nil =>
    rw [List.mapM_nil]
    exact pure (by simp)
  | cons x xs ih =>
    rw [List.mapM_cons]
    refine bind (h x (by simp)) fun y hy => ?_
    refine bind (ih fun z hz => h z (by simp [hz])) fun ys hys => pure ?_
    intro z hz
    rcases List.mem_cons.mp hz with rfl | hz
    · exact hy
    · exact hys z hz

end Finds

end Action

/-! ### Commands -/

/-- What a run comes to, given what the program does: the system waits for none that it has started
longer than it can. -/
def Call.result (call : Call) (outcome : Outcome) : Except Failure Outcome :=
  match World.waitFailure? call.timeout with
  | some failure => if outcome.isStarted then .error failure else .ok outcome
  | none => .ok outcome

variable (args : List String) (timeout : Option Number.Double) (cwd input : Option String)
  (acceptedCodes : List Int)

/-- Running a command uses up an answer and records the call, whatever it comes to. -/
theorem output_eq (w : World) :
    World.output args timeout cwd input acceptedCodes w
      = ((Call.result { args, cwd, timeout, input } (World.answer args w.commands).1).map
          (·.accepted? acceptedCodes),
        { w with commands := (World.answer args w.commands).2,
                 calls := { args, cwd, timeout, input } :: w.calls }) := by
  have hrun : World.run { args, cwd, timeout, input } w
      = (Call.result { args, cwd, timeout, input } (World.answer args w.commands).1,
        { w with commands := (World.answer args w.commands).2,
                 calls := { args, cwd, timeout, input } :: w.calls }) := rfl
  rw [World.output, Action.bind_run, hrun]
  cases Call.result _ _ <;> rfl

/-- A run fails just if its program is started and may take longer than the system waits. -/
theorem output_eq_error_iff {w : World} {failure : Failure} :
    (World.output args timeout cwd input acceptedCodes w).1 = .error failure ↔
      World.waitFailure? timeout = some failure ∧
        (World.answer args w.commands).1.isStarted = true := by
  rw [output_eq, Call.result]
  cases World.waitFailure? timeout with
  | none => exact iff_of_false nofun (by simp)
  | some failure' =>
    cases hstarted : (World.answer args w.commands).1.isStarted with
    | true => simp [Except.map]
    | false => exact iff_of_false nofun (by simp)

/-- A time limit is refused because it does not fit a range. -/
theorem kind_of_waitFailure {failure : Failure} (h : World.waitFailure? timeout = some failure) :
    failure.kind = .overflow := by
  obtain ⟨seconds, -, h⟩ := Option.bind_eq_some_iff.mp h
  dsimp only at h
  split at h
  · cases h
  · split at h
    · rw [← Option.some.inj h]
      rfl
    · split at h <;> rw [← Option.some.inj h] <;> rfl

/-- Running a command leaves the disk alone. -/
theorem finds_output :
    Action.Finds d (World.output args timeout cwd input acceptedCodes) fun _ => True :=
  fun w hw => by rw [output_eq]; exact ⟨hw, fun _ _ => trivial⟩

/-- A run of a command is recorded, whatever it comes to. -/
theorem calls_output (w : World) :
    (World.output args timeout cwd input acceptedCodes w).2.calls
      = { args, cwd, timeout, input } :: w.calls := by
  rw [output_eq]

end ShellAssist
