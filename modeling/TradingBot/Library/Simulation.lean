import TradingBot.Library.Machine

namespace Library

universe u v w z x

/-! Two machines, one of which does, step by step, what the other allows. -/

namespace Machine

variable {State : Type u} {Action : Type v} {Abstract : Type w}
  {AbstractAction : Type z} {machine : Machine State Action}
  {target : Machine Abstract AbstractAction}

/-- If the actions that a step stands for lead from what its state stands for
to what the next one stands for, then a run stands for the run of all its
actions. -/
theorem run_simulates (abstraction : State → Abstract)
    (visible : State → Action → List AbstractAction)
    (invariant : State → Prop) {state final : State} {actions : List Action}
    (start : invariant state)
    (preserved : ∀ state action next, invariant state →
      machine.step state action = some next → invariant next)
    (simulated : ∀ state action next, invariant state →
      machine.step state action = some next →
      target.run (abstraction state) (visible state action) =
        some (abstraction next))
    (ran : machine.run state actions = some final) :
    target.run (abstraction state) (machine.record visible state actions) =
      some (abstraction final) := by
  induction actions generalizing state with
  | nil =>
      cases ran
      rfl
  | cons action rest induction =>
      obtain ⟨next, stepped, ran⟩ := run_cons_eq_some.mp ran
      simp only [record, stepped]
      exact run_trans (simulated state action next start stepped)
        (induction (preserved state action next start stepped) ran)

variable {Event : Type x}

theorem record_append {observe : State → Action → List Event}
    {state middle : State} {first second : List Action}
    (ran : machine.run state first = some middle) :
    machine.record observe state (first ++ second) =
      machine.record observe state first ++
        machine.record observe middle second := by
  induction first generalizing state with
  | nil =>
      cases ran
      rfl
  | cons action rest induction =>
      obtain ⟨next, stepped, ran⟩ := run_cons_eq_some.mp ran
      simp only [List.cons_append, record, stepped]
      rw [induction ran, List.append_assoc]

/-- `machine` can get from `state` to `final` in steps that let an observer see
`events`. -/
def Performs (machine : Machine State Action)
    (observe : State → Action → List Event) (state : State)
    (events : List Event) (final : State) : Prop :=
  ∃ actions, machine.run state actions = some final ∧
    machine.record observe state actions = events

section Performs

variable {observe : State → Action → List Event} {state middle final : State}

theorem Performs.refl (state : State) :
    machine.Performs observe state [] state := ⟨[], rfl, rfl⟩

theorem Performs.single {action : Action}
    (stepped : machine.step state action = some final) :
    machine.Performs observe state (observe state action) final :=
  ⟨[action], run_single stepped, by simp [record, stepped]⟩

theorem Performs.trans {events more : List Event}
    (first : machine.Performs observe state events middle)
    (second : machine.Performs observe middle more final) :
    machine.Performs observe state (events ++ more) final := by
  obtain ⟨actions, ran, rfl⟩ := first
  obtain ⟨later, continued, rfl⟩ := second
  exact ⟨actions ++ later, run_trans ran continued, record_append ran⟩

/-- A step that an observer does not see, and then the rest. -/
theorem Performs.silently {action : Action} {events : List Event}
    (stepped : machine.step state action = some middle)
    (hidden : observe state action = [])
    (rest : machine.Performs observe middle events final) :
    machine.Performs observe state events final := by
  have first : machine.Performs observe state (observe state action) middle :=
    .single stepped
  rw [hidden] at first
  exact first.trans rest

end Performs

/-- If `target` can perform what every step lets an observer see, then it can
perform what a run does. -/
theorem performs_of_run {observe : State → Action → List Event}
    {seen : Abstract → AbstractAction → List Event}
    (related : State → Abstract → Prop) {state final : State}
    {performer : Abstract} {actions : List Action}
    (start : related state performer)
    (matched : ∀ state action next performer, related state performer →
      machine.step state action = some next →
      ∃ later, target.Performs seen performer (observe state action) later ∧
        related next later)
    (ran : machine.run state actions = some final) :
    ∃ last, target.Performs seen performer
        (machine.record observe state actions) last ∧
      related final last := by
  induction actions generalizing state performer with
  | nil =>
      cases ran
      exact ⟨performer, .refl performer, start⟩
  | cons action rest induction =>
      obtain ⟨next, stepped, ran⟩ := run_cons_eq_some.mp ran
      obtain ⟨middle, first, related⟩ :=
        matched state action next performer start stepped
      obtain ⟨last, second, related⟩ := induction related ran
      simp only [record, stepped]
      exact ⟨last, first.trans second, related⟩

end Machine

end Library
