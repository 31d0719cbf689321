import Mathlib.Algebra.BigOperators.Group.List.Basic
import Mathlib.Algebra.Order.Ring.Nat

namespace Library

universe u v w z

/-- A guarded machine: `step state action` is `none` where the action is not
enabled, so one definition is replayed, searched and reasoned about. -/
structure Machine (State : Type u) (Action : Type v) where
  init : State
  step : State → Action → Option State

namespace Machine

variable {State : Type u} {Action : Type v} (machine : Machine State Action)

def run : State → List Action → Option State
  | state, [] => some state
  | state, action :: rest =>
      match machine.step state action with
      | none => none
      | some next => run next rest

def Reachable (state : State) : Prop :=
  ∃ actions, machine.run machine.init actions = some state

/-- Every step of a run meets a condition on the state before it. -/
def Along (condition : State → Action → Prop) : State → List Action → Prop
  | _, [] => True
  | state, action :: rest =>
      condition state action ∧
        match machine.step state action with
        | none => True
        | some next => Along condition next rest

def Throughout (property : State → Prop) : State → List Action → Prop
  | state, [] => property state
  | state, action :: rest =>
      property state ∧
        match machine.step state action with
        | none => True
        | some next => Throughout property next rest

/-- What a run lets an observer see. -/
def record {Event : Type w} (observe : State → Action → List Event) :
    State → List Action → List Event
  | _, [] => []
  | state, action :: rest =>
      match machine.step state action with
      | none => []
      | some next => observe state action ++ record observe next rest

instance decidableAlong (condition : State → Action → Prop)
    [∀ state action, Decidable (condition state action)] :
    ∀ state actions, Decidable (machine.Along condition state actions)
  | _, [] => isTrue trivial
  | state, action :: rest =>
      match equation : machine.step state action with
      | none => decidable_of_iff (condition state action)
          (by simp [Along, equation])
      | some next =>
          have := decidableAlong condition next rest
          decidable_of_iff
            (condition state action ∧ machine.Along condition next rest)
            (by simp [Along, equation])

instance decidableThroughout (property : State → Prop)
    [DecidablePred property] :
    ∀ state actions, Decidable (machine.Throughout property state actions)
  | state, [] => inferInstanceAs (Decidable (property state))
  | state, action :: rest =>
      match equation : machine.step state action with
      | none => decidable_of_iff (property state)
          (by simp [Throughout, equation])
      | some next =>
          have := decidableThroughout property next rest
          decidable_of_iff
            (property state ∧ machine.Throughout property next rest)
            (by simp [Throughout, equation])

variable {machine}

@[simp] theorem run_nil (state : State) :
    machine.run state [] = some state := rfl

theorem run_cons_eq_some {state final : State} {action : Action}
    {rest : List Action} :
    machine.run state (action :: rest) = some final ↔
      ∃ next, machine.step state action = some next ∧
        machine.run next rest = some final := by
  cases equation : machine.step state action with
  | none => simp [run, equation]
  | some next => simp [run, equation]

theorem run_append_eq_some {state final : State}
    {first second : List Action} :
    machine.run state (first ++ second) = some final ↔
      ∃ middle, machine.run state first = some middle ∧
        machine.run middle second = some final := by
  induction first generalizing state with
  | nil => simp
  | cons action rest induction =>
      simp only [List.cons_append, run_cons_eq_some, induction]
      constructor
      · intro ran
        obtain ⟨next, stepped, middle, before, after⟩ := ran
        exact ⟨middle, ⟨next, stepped, before⟩, after⟩
      · intro ran
        obtain ⟨middle, ⟨next, stepped, before⟩, after⟩ := ran
        exact ⟨next, stepped, middle, before, after⟩

theorem run_concat_eq_some {state final : State} {actions : List Action}
    {action : Action} :
    machine.run state (actions ++ [action]) = some final ↔
      ∃ middle, machine.run state actions = some middle ∧
        machine.step middle action = some final := by
  simp [run_append_eq_some, run_cons_eq_some]

theorem run_trans {state middle final : State} {first second : List Action}
    (before : machine.run state first = some middle)
    (after : machine.run middle second = some final) :
    machine.run state (first ++ second) = some final :=
  run_append_eq_some.mpr ⟨middle, before, after⟩

theorem run_single {state next : State} {action : Action}
    (stepped : machine.step state action = some next) :
    machine.run state [action] = some next :=
  run_cons_eq_some.mpr ⟨next, stepped, rfl⟩

theorem Reachable.init : machine.Reachable machine.init := ⟨[], rfl⟩

theorem Reachable.run {state final : State} {actions : List Action}
    (reached : machine.Reachable state)
    (ran : machine.run state actions = some final) :
    machine.Reachable final := by
  obtain ⟨before, reached⟩ := reached
  exact ⟨before ++ actions, run_trans reached ran⟩

theorem Reachable.step {state next : State}
    (reached : machine.Reachable state) (action : Action)
    (stepped : machine.step state action = some next) :
    machine.Reachable next :=
  reached.run (run_single stepped)

theorem along_cons {condition : State → Action → Prop} {state next : State}
    {action : Action} {rest : List Action}
    (stepped : machine.step state action = some next) :
    machine.Along condition state (action :: rest) ↔
      condition state action ∧ machine.Along condition next rest := by
  simp [Along, stepped]

theorem throughout_cons {property : State → Prop} {state next : State}
    {action : Action} {rest : List Action}
    (stepped : machine.step state action = some next) :
    machine.Throughout property state (action :: rest) ↔
      property state ∧ machine.Throughout property next rest := by
  simp [Throughout, stepped]

/-- Each action that is taken or fails meets the condition in the state that
the actions before it lead to. -/
theorem along_iff {condition : State → Action → Prop} {state : State}
    {actions : List Action} :
    machine.Along condition state actions ↔
      ∀ earlier action later middle, actions = earlier ++ action :: later →
        machine.run state earlier = some middle → condition middle action := by
  induction actions generalizing state with
  | nil => simp [Along]
  | cons first rest induction =>
      constructor
      · intro along earlier action later middle split ran
        cases earlier with
        | nil =>
            cases ran
            cases split
            exact along.1
        | cons _ earlier =>
            cases split
            obtain ⟨next, stepped, ran⟩ := run_cons_eq_some.mp ran
            exact induction.mp ((along_cons stepped).mp along).2 earlier action
              later middle rfl ran
      · intro always
        refine ⟨always [] first rest state rfl rfl, ?_⟩
        cases stepped : machine.step state first with
        | none => trivial
        | some next =>
            refine induction.mpr fun earlier action later middle split ran => ?_
            exact always (first :: earlier) action later middle (by rw [split]; rfl)
              (run_cons_eq_some.mpr ⟨next, stepped, ran⟩)

theorem throughout_iff {property : State → Prop} {state : State}
    {actions : List Action} :
    machine.Throughout property state actions ↔
      ∀ earlier later final, actions = earlier ++ later →
        machine.run state earlier = some final → property final := by
  induction actions generalizing state with
  | nil =>
      constructor
      · intro holds earlier later final split ran
        obtain ⟨rfl, rfl⟩ := List.nil_eq_append_iff.mp split
        cases ran
        exact holds
      · exact fun always => always [] [] state rfl rfl
  | cons first rest induction =>
      constructor
      · intro throughout earlier later final split ran
        cases earlier with
        | nil =>
            cases ran
            exact throughout.1
        | cons _ earlier =>
            cases split
            obtain ⟨next, stepped, ran⟩ := run_cons_eq_some.mp ran
            exact induction.mp ((throughout_cons stepped).mp throughout).2
              earlier later final rfl ran
      · intro always
        refine ⟨always [] (first :: rest) state rfl rfl, ?_⟩
        cases stepped : machine.step state first with
        | none => trivial
        | some next =>
            refine induction.mpr fun earlier later final split ran => ?_
            exact always (first :: earlier) later final (by rw [split]; rfl)
              (run_cons_eq_some.mpr ⟨next, stepped, ran⟩)

theorem Throughout.final {property : State → Prop} {state final : State}
    {actions : List Action}
    (throughout : machine.Throughout property state actions)
    (ran : machine.run state actions = some final) : property final :=
  throughout_iff.mp throughout actions [] final (List.append_nil _).symm ran

theorem Throughout.and {first second : State → Prop} {state : State}
    {actions : List Action}
    (left : machine.Throughout first state actions)
    (right : machine.Throughout second state actions) :
    machine.Throughout (fun state => first state ∧ second state) state
      actions := by
  rw [throughout_iff] at left right ⊢
  intro earlier later final split ran
  exact ⟨left earlier later final split ran, right earlier later final split ran⟩

theorem Along.and {first second : State → Action → Prop} {state : State}
    {actions : List Action}
    (left : machine.Along first state actions)
    (right : machine.Along second state actions) :
    machine.Along (fun state action => first state action ∧ second state action)
      state actions := by
  rw [along_iff] at left right ⊢
  intro earlier action later middle split ran
  exact ⟨left earlier action later middle split ran,
    right earlier action later middle split ran⟩

theorem along_of_forall {condition : State → Action → Prop}
    {actions : List Action}
    (always : ∀ action ∈ actions, ∀ state, condition state action)
    (state : State) : machine.Along condition state actions := by
  rw [along_iff]
  rintro earlier action later middle rfl _
  exact always action (by simp) middle

theorem along_trivial (state : State) (actions : List Action) :
    machine.Along (fun _ _ => True) state actions :=
  along_of_forall (fun _ _ _ => trivial) state

theorem Throughout.along {property : State → Prop}
    {condition : State → Action → Prop}
    (detects : ∀ state action,
      (∀ next, machine.step state action = some next → property next) →
        condition state action)
    {state : State} {actions : List Action}
    (throughout : machine.Throughout property state actions) :
    machine.Along condition state actions := by
  rw [throughout_iff] at throughout
  rw [along_iff]
  intro earlier action later middle split ran
  refine detects middle action fun next stepped => ?_
  exact throughout (earlier ++ [action]) later next (by simp [split])
    (run_trans ran (run_single stepped))

theorem along_append {condition : State → Action → Prop}
    {state middle : State} {first second : List Action}
    (ran : machine.run state first = some middle) :
    machine.Along condition state (first ++ second) ↔
      machine.Along condition state first ∧
        machine.Along condition middle second := by
  induction first generalizing state with
  | nil =>
      cases ran
      simp [Along]
  | cons action rest induction =>
      obtain ⟨next, stepped, ran⟩ := run_cons_eq_some.mp ran
      simp only [List.cons_append, along_cons stepped, induction ran, and_assoc]

theorem along_congr {invariant : State → Prop}
    {first second : State → Action → Prop}
    (preserved : ∀ state action next, invariant state →
      machine.step state action = some next → invariant next)
    (agree : ∀ state action, invariant state →
      (first state action ↔ second state action))
    {state : State} {actions : List Action} (start : invariant state) :
    machine.Along first state actions ↔
      machine.Along second state actions := by
  induction actions generalizing state with
  | nil => exact Iff.rfl
  | cons action rest induction =>
      cases equation : machine.step state action with
      | none => simp [Along, equation, agree state action start]
      | some next =>
          rw [along_cons equation, along_cons equation,
            agree state action start,
            induction (preserved state action next start equation)]

section Invariants

variable {condition : State → Action → Prop} (invariant : State → Prop)

/-- The induction rule: an invariant that every conditioned step preserves
holds at the end of every run whose steps meet the condition. -/
theorem run_preserves {state final : State} {actions : List Action}
    (start : invariant state)
    (along : machine.Along condition state actions)
    (ran : machine.run state actions = some final)
    (preserved : ∀ state action next, invariant state →
      condition state action → machine.step state action = some next →
      invariant next) :
    invariant final := by
  induction actions generalizing state with
  | nil =>
      cases ran
      exact start
  | cons action rest induction =>
      obtain ⟨next, stepped, ran⟩ := run_cons_eq_some.mp ran
      rw [along_cons stepped] at along
      exact induction (preserved state action next start along.1 stepped)
        along.2 ran

/-- The induction rule for a state together with what has been observed. -/
theorem run_record_preserves {Event : Type w}
    {observe : State → Action → List Event}
    (invariant : State → List Event → Prop) {state final : State}
    {actions : List Action} {seen : List Event}
    (start : invariant state seen)
    (ran : machine.run state actions = some final)
    (preserved : ∀ state seen action next, invariant state seen →
      machine.step state action = some next →
      invariant next (seen ++ observe state action)) :
    invariant final (seen ++ machine.record observe state actions) := by
  induction actions generalizing state seen with
  | nil =>
      cases ran
      simpa [record] using start
  | cons action rest induction =>
      obtain ⟨next, stepped, ran⟩ := run_cons_eq_some.mp ran
      have tail := induction (preserved state seen action next start stepped) ran
      simpa [record, stepped] using tail

theorem throughout_of_preserves {property : State → Prop} {state : State}
    {actions : List Action}
    (start : invariant state)
    (along : machine.Along condition state actions)
    (implies : ∀ state, invariant state → property state)
    (preserved : ∀ state action next, invariant state →
      condition state action → machine.step state action = some next →
      invariant next) :
    machine.Throughout property state actions := by
  induction actions generalizing state with
  | nil => exact implies state start
  | cons action rest induction =>
      cases equation : machine.step state action with
      | none => simp [Throughout, equation, implies state start]
      | some next =>
          rw [along_cons equation] at along
          rw [throughout_cons equation]
          exact ⟨implies state start,
            induction (preserved state action next start along.1 equation) along.2⟩

theorem along_of_preserves {goal : State → Action → Prop} {state : State}
    {actions : List Action}
    (start : invariant state)
    (along : machine.Along condition state actions)
    (implies : ∀ state action, invariant state → condition state action →
      goal state action)
    (preserved : ∀ state action next, invariant state →
      condition state action → machine.step state action = some next →
      invariant next) :
    machine.Along goal state actions := by
  induction actions generalizing state with
  | nil => trivial
  | cons action rest induction =>
      obtain ⟨meets, later⟩ := along
      refine ⟨implies state action start meets, ?_⟩
      cases equation : machine.step state action with
      | none => trivial
      | some next =>
          rw [equation] at later
          exact induction (preserved state action next start meets equation)
            later

theorem reachable_preserves {state : State}
    (init : invariant machine.init)
    (reached : machine.Reachable state)
    (preserved : ∀ state action next, invariant state →
      machine.step state action = some next → invariant next) :
    invariant state := by
  obtain ⟨actions, ran⟩ := reached
  exact run_preserves invariant init (along_trivial _ _) ran
    fun state action next holds _ stepped =>
      preserved state action next holds stepped

end Invariants

/-- What the steps of a run cost is paid out of a potential and of what the
actions allow. -/
theorem cost_le_of_potential {potential : State → Nat}
    {cost allowance : Action → Nat} (invariant : State → Prop)
    (permitted : Action → Prop) {state final : State} {actions : List Action}
    (start : invariant state) (permits : ∀ action ∈ actions, permitted action)
    (preserved : ∀ state action next, invariant state → permitted action →
      machine.step state action = some next → invariant next)
    (paid : ∀ state action next, invariant state → permitted action →
      machine.step state action = some next →
      potential next + cost action ≤ potential state + allowance action)
    (ran : machine.run state actions = some final) :
    (actions.map cost).sum + potential final ≤
      potential state + (actions.map allowance).sum := by
  induction actions generalizing state with
  | nil =>
      cases ran
      simp
  | cons action rest induction =>
      obtain ⟨next, stepped, ran⟩ := run_cons_eq_some.mp ran
      have allowed := permits action (by simp)
      have first := paid state action next start allowed stepped
      have later := induction
        (preserved state action next start allowed stepped)
        (fun other member => permits other (by simp [member])) ran
      rw [List.map_cons, List.sum_cons, List.map_cons, List.sum_cons]
      omega

/-- A rank that every step lowers, but for what its action allows, bounds the
length of a run. -/
theorem length_le_of_rank {rank : State → Nat} {allowance : Action → Nat}
    (invariant : State → Prop) {state final : State} {actions : List Action}
    (start : invariant state)
    (preserved : ∀ state action next, invariant state →
      machine.step state action = some next → invariant next)
    (lowered : ∀ state action next, invariant state →
      machine.step state action = some next →
      rank next + 1 ≤ rank state + allowance action)
    (ran : machine.run state actions = some final) :
    actions.length + rank final ≤ rank state + (actions.map allowance).sum := by
  have paid : (actions.map fun _ => 1).sum + rank final ≤
      rank state + (actions.map allowance).sum :=
    cost_le_of_potential invariant (fun _ => True) start (fun _ _ => trivial)
      (fun state action next holds _ => preserved state action next holds)
      (fun state action next holds _ => lowered state action next holds) ran
  simpa using paid

end Machine

end Library
