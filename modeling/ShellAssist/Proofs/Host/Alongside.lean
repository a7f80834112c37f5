import ShellAssist.Proofs.Host.InStep
import Mathlib.Data.List.Basic

namespace ShellAssist

/-!
# Steps side by side

Two steps are taken side by side in two worlds that are the same but for the commands run so far. Some
commands are hidden: they may have been run in one world and not in the other. As long as the steps
run no hidden command they come to the same, and run the same commands.

* `Alongside` — the two worlds, with the commands that both have run meanwhile;
* `OnlyRuns` — a step that leaves all the world alone, but for the commands that it runs;
* `inStep_output` — running a command that is not hidden;
* `alongside_output` — a hidden command leaves a world alongside the one in which it was not run.
-/

/-- Both worlds differ from a third one in the commands run and the answers to come only. The answers
to commands that are not hidden are the same, and both have run the same commands, none of them
hidden, in front of those given. -/
structure Alongside (hidden : List String → Bool) (v : World) (calls₁ calls₂ : List Call)
    (w₁ w₂ : World) : Prop where
  left : ∃ commands calls, w₁ = { v with commands, calls }
  right : ∃ commands calls, w₂ = { v with commands, calls }
  answers : w₁.commands.filter (fun a => !hidden a.1) = w₂.commands.filter fun a => !hidden a.1
  made : ∃ made, (∀ call ∈ made, hidden call.args = false) ∧ w₁.calls = made ++ calls₁ ∧
    w₂.calls = made ++ calls₂

theorem Alongside.refl (hidden : List String → Bool) (w : World) :
    Alongside hidden w w.calls w.calls w w where
  left := ⟨w.commands, w.calls, rfl⟩
  right := ⟨w.commands, w.calls, rfl⟩
  answers := rfl
  made := ⟨[], by simp, rfl, rfl⟩

theorem Alongside.environment_eq {hidden : List String → Bool} {v w₁ w₂ : World}
    {calls₁ calls₂ : List Call} (h : Alongside hidden v calls₁ calls₂ w₁ w₂) :
    w₁.environment = w₂.environment := by
  obtain ⟨⟨_, _, rfl⟩, ⟨_, _, rfl⟩, -, -⟩ := h
  rfl

theorem Alongside.users_eq {hidden : List String → Bool} {v w₁ w₂ : World}
    {calls₁ calls₂ : List Call} (h : Alongside hidden v calls₁ calls₂ w₁ w₂) :
    w₁.users = w₂.users := by
  obtain ⟨⟨_, _, rfl⟩, ⟨_, _, rfl⟩, -, -⟩ := h
  rfl

/-! ### Steps that only run commands -/

/-- The step changes nothing of the world but the commands that were run, and what is left of their
answers. -/
def OnlyRuns {α : Type} (step : StateM World α) : Prop :=
  ∀ w : World, ∃ commands calls, (step w).2 = { w with commands, calls }

/-- A step that goes along with itself whatever it runs changes nothing but the commands run. -/
theorem OnlyRuns.of_inStep {α : Type} {step : StateM World α}
    (h : ∀ w, InStep (Alongside (fun _ => false) w w.calls w.calls) step step) : OnlyRuns step :=
  fun w => (h w w w (Alongside.refl _ w)).2.left

/-! ### Commands -/

variable {hidden : List String → Bool} {v w₁ w₂ : World} {calls₁ calls₂ : List Call}

/-- The answer to a command that is not hidden is up to those of such commands. -/
theorem answer_of_not_hidden {args : List String} (h : hidden args = false)
    (commands : List (List String × Outcome)) :
    (World.answer args (commands.filter fun a => !hidden a.1)).1 = (World.answer args commands).1 ∧
      (World.answer args (commands.filter fun a => !hidden a.1)).2
        = (World.answer args commands).2.filter fun a => !hidden a.1 := by
  induction commands with
  | nil => exact ⟨rfl, rfl⟩
  | cons a rest ih =>
    obtain ⟨expected, outcome⟩ := a
    by_cases hargs : expected = args
    · -- Whether it is the last answer to this command is seen among the visible ones.
      subst hargs
      have hlater : (rest.filter fun a => !hidden a.1).any (fun a => a.1 = expected)
          = rest.any fun a => a.1 = expected := by
        rw [List.any_filter, Bool.eq_iff_iff, List.any_eq_true, List.any_eq_true]
        refine exists_congr fun a => and_congr_right fun _ => ?_
        rw [Bool.and_eq_true, decide_eq_true_iff]
        refine and_iff_right_of_imp fun hsame => ?_
        rw [hsame, h]
        rfl
      rw [List.filter_cons_of_pos (by simpa using h), World.answer, World.answer, if_pos rfl,
        if_pos rfl, hlater]
      split
      · exact ⟨rfl, rfl⟩
      · exact ⟨rfl, (List.filter_cons_of_pos (by simpa using h)).symm⟩
    · obtain ⟨houtcome, hleft⟩ := ih
      cases hexpected : hidden expected with
      | true => simp [World.answer, hargs, hexpected, houtcome, hleft]
      | false => simp [World.answer, hargs, hexpected, houtcome, hleft]

/-- The answer to a hidden command leaves all others. -/
theorem answer_of_hidden {args : List String} (h : hidden args = true)
    (commands : List (List String × Outcome)) :
    (World.answer args commands).2.filter (fun a => !hidden a.1)
      = commands.filter fun a => !hidden a.1 := by
  -- The outcome used up belongs to a hidden call, so the visible ones stay.
  induction commands with
  | nil => rfl
  | cons a rest ih =>
    obtain ⟨expected, outcome⟩ := a
    by_cases hargs : expected = args
    · subst hargs
      rw [World.answer, if_pos rfl, List.filter_cons_of_neg (by simpa using h)]
      split
      · rfl
      · exact List.filter_cons_of_neg (by simpa using h)
    · rw [World.answer, if_neg hargs]
      cases hexpected : hidden expected with
      | true => simp [hexpected, ih]
      | false => simp [hexpected, ih]

variable (args : List String) (timeout : Option Number.Double) (cwd input : Option String)
  (acceptedCodes : List Int)

/-- A command that is not hidden comes to the same in worlds alongside each other. -/
theorem inStep_output (h : hidden args = false) :
    (World.output args timeout cwd input acceptedCodes).InStep
      (Alongside hidden v calls₁ calls₂)
      (World.output args timeout cwd input acceptedCodes) := by
  rintro w₁ w₂ ⟨⟨commands₁, _, rfl⟩, ⟨commands₂, _, rfl⟩, hanswers, made, hvisible, rfl, rfl⟩
  simp only [ExceptT.run]
  obtain ⟨houtcome₁, hleft₁⟩ := answer_of_not_hidden h commands₁
  obtain ⟨houtcome₂, hleft₂⟩ := answer_of_not_hidden h commands₂
  dsimp only at hanswers
  rw [hanswers] at houtcome₁ hleft₁
  rw [output_eq, output_eq]
  refine ⟨?_, ⟨_, _, rfl⟩, ⟨_, _, rfl⟩, hleft₁.symm.trans hleft₂, ?_⟩
  · dsimp only
    rw [← houtcome₁, houtcome₂]
  · exact ⟨_ :: made, List.forall_mem_cons.mpr ⟨h, hvisible⟩, rfl, rfl⟩

/-- A hidden command leaves a world alongside the one in which it was not run. -/
theorem alongside_output (h : hidden args = true) (w : World) :
    Alongside hidden w ({ args, cwd, timeout, input } :: w.calls) w.calls
      (World.output args timeout cwd input acceptedCodes w).2 w := by
  rw [output_eq]
  exact ⟨⟨_, _, rfl⟩, ⟨w.commands, w.calls, rfl⟩, answer_of_hidden h w.commands,
    [], by simp, rfl, rfl⟩

end ShellAssist
