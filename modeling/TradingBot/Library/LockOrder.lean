import TradingBot.Library.Machine
import Mathlib.Logic.Function.Basic
import Mathlib.Logic.Relation
import Mathlib.Order.BooleanAlgebra.Set

namespace Library

/-! Threads that lock mutexes, and why taking them by rising rank never
deadlocks. -/

inductive LockStep (Mutex : Type*) where
  | acquire (mutex : Mutex)
  | release (mutex : Mutex)
  | block
  deriving DecidableEq

/-- The steps of a scope that holds a mutex throughout. -/
def locked {Mutex : Type*} (mutex : Mutex) (body : List (LockStep Mutex)) :
    List (LockStep Mutex) :=
  .acquire mutex :: body ++ [.release mutex]

/-- Who holds each mutex, and what each thread has left of its call. -/
structure LockState (Thread Mutex : Type*) where
  owner : Mutex → Option Thread
  program : Thread → List (LockStep Mutex)

inductive LockAction (Thread Call : Type*) where
  | call (thread : Thread) (call : Call)
  | advance (thread : Thread)

namespace LockState

variable {Thread Mutex Call : Type*}

def init : LockState Thread Mutex where
  owner := fun _ => none
  program := fun _ => []

section Step

variable [DecidableEq Thread] [DecidableEq Mutex]

def setProgram (state : LockState Thread Mutex) (thread : Thread)
    (program : List (LockStep Mutex)) : LockState Thread Mutex :=
  { state with program := Function.update state.program thread program }

def setOwner (state : LockState Thread Mutex) (mutex : Mutex)
    (owner : Option Thread) : LockState Thread Mutex :=
  { state with owner := Function.update state.owner mutex owner }

/-- A thread at `acquire` waits until the mutex is free. -/
def advance (state : LockState Thread Mutex) (thread : Thread) :
    Option (LockState Thread Mutex) :=
  match state.program thread with
  | [] => none
  | .acquire mutex :: rest =>
      if state.owner mutex = none then
        some ((state.setOwner mutex (some thread)).setProgram thread rest)
      else none
  | .release mutex :: rest =>
      some ((state.setOwner mutex none).setProgram thread rest)
  | .block :: rest => some (state.setProgram thread rest)

variable (locks : Call → List (LockStep Mutex))
  (allowed : Thread → Call → Bool)

def step (state : LockState Thread Mutex) :
    LockAction Thread Call → Option (LockState Thread Mutex)
  | .call thread call =>
      if (state.program thread).isEmpty ∧ allowed thread call then
        some (state.setProgram thread (locks call))
      else none
  | .advance thread => state.advance thread

def machine : Machine (LockState Thread Mutex) (LockAction Thread Call) where
  init := init
  step := step locks allowed

end Step

def held (state : LockState Thread Mutex) (thread : Thread) : Set Mutex :=
  {mutex | state.owner mutex = some thread}

def Requests (state : LockState Thread Mutex) (thread : Thread)
    (mutex : Mutex) : Prop :=
  ∃ rest, state.program thread = .acquire mutex :: rest

def WaitsFor (state : LockState Thread Mutex) (thread other : Thread) : Prop :=
  ∃ mutex, state.Requests thread mutex ∧ state.owner mutex = some other

end LockState

section Ordered

variable {Mutex α : Type*} [Preorder α] (rank : Mutex → α)

/-- Each mutex is acquired with only lower ones held, only held ones are
released, and none is held at the end. -/
def Ordered : Set Mutex → List (LockStep Mutex) → Prop
  | held, [] => held = ∅
  | held, .acquire mutex :: rest =>
      (∀ other ∈ held, rank other < rank mutex) ∧
        Ordered (insert mutex held) rest
  | held, .release mutex :: rest =>
      mutex ∈ held ∧ Ordered (held \ {mutex}) rest
  | held, .block :: rest => Ordered held rest

/-- The steps can come before any that are ordered with the same mutexes
held. -/
def Steady (held : Set Mutex) (steps : List (LockStep Mutex)) : Prop :=
  ∀ rest, Ordered rank held rest → Ordered rank held (steps ++ rest)

variable {rank} {held : Set Mutex} {first second : List (LockStep Mutex)}

theorem steady_nil : Steady rank held [] := fun _ ordered => ordered

theorem Steady.append (left : Steady rank held first)
    (right : Steady rank held second) : Steady rank held (first ++ second) := by
  intro rest ordered
  rw [List.append_assoc]
  exact left _ (right _ ordered)

theorem steady_flatMap {β : Type*} {entries : List β}
    {steps : β → List (LockStep Mutex)}
    (each : ∀ entry ∈ entries, Steady rank held (steps entry)) :
    Steady rank held (entries.flatMap steps) := by
  induction entries with
  | nil => exact steady_nil
  | cons entry rest induction =>
      rw [List.flatMap_cons]
      exact (each entry List.mem_cons_self).append
        (induction fun other member => each other (List.mem_cons_of_mem _ member))

/-- A locked scope keeps the order if its mutex is above the held ones and its
body keeps the order inside. -/
theorem Steady.locked {mutex : Mutex}
    (above : ∀ other ∈ held, rank other < rank mutex)
    (body : Steady rank (insert mutex held) first) :
    Steady rank held (locked mutex first) := by
  intro rest ordered
  have fresh : mutex ∉ held := fun member => (above mutex member).false
  have released : insert mutex held \ {mutex} = held :=
    Set.insert_sdiff_self_of_notMem fresh
  rw [Library.locked, List.cons_append, List.cons_append, List.append_assoc]
  refine ⟨above, body _ ⟨Set.mem_insert _ _, ?_⟩⟩
  rw [released]
  exact ordered

theorem Steady.ordered (steady : Steady rank ∅ first) :
    Ordered rank ∅ first := by
  have alone := steady [] rfl
  rwa [List.append_nil] at alone

end Ordered

section Uses

variable {Mutex : Type*} {mutex other : Mutex}

def Uses (mutex : Mutex) (steps : List (LockStep Mutex)) : Prop :=
  .acquire mutex ∈ steps ∨ .release mutex ∈ steps

instance [DecidableEq Mutex] (steps : List (LockStep Mutex)) :
    Decidable (Uses mutex steps) :=
  inferInstanceAs (Decidable (_ ∨ _))

@[simp] theorem uses_nil : ¬ Uses mutex [] := by simp [Uses]

@[simp] theorem uses_append {first second : List (LockStep Mutex)} :
    Uses mutex (first ++ second) ↔ Uses mutex first ∨ Uses mutex second := by
  simp only [Uses, List.mem_append]
  tauto

@[simp] theorem uses_locked {body : List (LockStep Mutex)} :
    Uses mutex (locked other body) ↔ mutex = other ∨ Uses mutex body := by
  simp only [Uses, locked, List.mem_append, List.mem_cons,
    LockStep.acquire.injEq, LockStep.release.injEq, reduceCtorEq, false_or,
    List.not_mem_nil, or_false]
  tauto

theorem uses_flatMap {β : Type*} {entries : List β}
    {steps : β → List (LockStep Mutex)} :
    Uses mutex (entries.flatMap steps) ↔
      ∃ entry ∈ entries, Uses mutex (steps entry) := by
  induction entries with
  | nil => simp
  | cons entry rest induction => simp [List.flatMap_cons, induction]

end Uses

namespace LockState

variable {Thread Mutex Call α : Type*} [Preorder α] {rank : Mutex → α}

/-- Every thread has an ordered rest of its call before it. -/
def Disciplined (rank : Mutex → α) (state : LockState Thread Mutex) : Prop :=
  ∀ thread, Ordered rank (state.held thread) (state.program thread)

theorem Disciplined.requests {state : LockState Thread Mutex}
    (disciplined : state.Disciplined rank) {thread : Thread}
    {mutex other : Mutex} (requests : state.Requests thread mutex)
    (holds : state.owner other = some thread) : rank other < rank mutex := by
  obtain ⟨rest, waiting⟩ := requests
  have ordered := disciplined thread
  rw [waiting] at ordered
  exact ordered.1 other holds

theorem Disciplined.no_self_request {state : LockState Thread Mutex}
    (disciplined : state.Disciplined rank) {thread : Thread} {mutex : Mutex}
    (requests : state.Requests thread mutex) :
    state.owner mutex ≠ some thread := fun holds =>
  (disciplined.requests requests holds).false

/-- Along a chain of waiting threads the requested mutexes rise. -/
theorem Disciplined.requests_of_chain {state : LockState Thread Mutex}
    (disciplined : state.Disciplined rank) {thread last : Thread}
    (chain : Relation.TransGen state.WaitsFor thread last) :
    ∃ mutex other, state.Requests thread mutex ∧
      state.owner other = some last ∧ rank mutex ≤ rank other := by
  induction chain with
  | single waits =>
      obtain ⟨mutex, requests, holds⟩ := waits
      exact ⟨mutex, mutex, requests, holds, le_refl _⟩
  | tail _ waits induction =>
      obtain ⟨mutex, other, requests, holds, below⟩ := induction
      obtain ⟨following, followingRequests, followingHolds⟩ := waits
      have rises := disciplined.requests followingRequests holds
      exact ⟨mutex, following, requests, followingHolds,
        below.trans rises.le⟩

theorem Disciplined.no_cycle {state : LockState Thread Mutex}
    (disciplined : state.Disciplined rank) (thread : Thread) :
    ¬ Relation.TransGen state.WaitsFor thread thread := by
  intro cycle
  obtain ⟨mutex, other, requests, holds, below⟩ :=
    disciplined.requests_of_chain cycle
  exact ((disciplined.requests requests holds).trans_le below).false

theorem disciplined_init : (init : LockState Thread Mutex).Disciplined rank := by
  intro thread
  ext mutex
  simp [held, init]

section Owner

variable [DecidableEq Mutex]

theorem held_setOwner_self (state : LockState Thread Mutex) (thread : Thread)
    (mutex : Mutex) :
    (state.setOwner mutex (some thread)).held thread =
      insert mutex (state.held thread) := by
  ext other
  rcases eq_or_ne other mutex with rfl | differ
  · simp [held, setOwner]
  · simp [held, setOwner, differ]

theorem held_setOwner_none (state : LockState Thread Mutex) (thread : Thread)
    (mutex : Mutex) :
    (state.setOwner mutex none).held thread = state.held thread \ {mutex} := by
  ext other
  rcases eq_or_ne other mutex with rfl | differ
  · simp [held, setOwner]
  · simp [held, setOwner, differ]

theorem held_setOwner_other {state : LockState Thread Mutex}
    {other : Thread} {mutex : Mutex} (notHeld : state.owner mutex ≠ some other)
    {owner : Option Thread} (notOther : owner ≠ some other) :
    (state.setOwner mutex owner).held other = state.held other := by
  ext key
  rcases eq_or_ne key mutex with rfl | apart
  · simp [held, setOwner, notHeld, notOther]
  · simp [held, setOwner, apart]

end Owner

section Step

variable [DecidableEq Thread]

/-- One thread moves on, and the mutexes of the others stay theirs. -/
theorem Disciplined.move {state moved : LockState Thread Mutex}
    (disciplined : state.Disciplined rank) {thread : Thread}
    {program : List (LockStep Mutex)}
    (others : ∀ other ≠ thread, moved.held other = state.held other)
    (kept : moved.program = state.program)
    (ordered : Ordered rank (moved.held thread) program) :
    (moved.setProgram thread program).Disciplined rank := by
  intro other
  show Ordered rank (moved.held other)
    (Function.update moved.program thread program other)
  rcases eq_or_ne other thread with rfl | differ
  · rw [Function.update_self]
    exact ordered
  · rw [Function.update_of_ne differ, others other differ, kept]
    exact disciplined other

variable [DecidableEq Mutex]

theorem Disciplined.advance {state next : LockState Thread Mutex}
    (disciplined : state.Disciplined rank) {thread : Thread}
    (stepped : state.advance thread = some next) : next.Disciplined rank := by
  have ordered := disciplined thread
  unfold LockState.advance at stepped
  split at stepped
  next => cases stepped
  next mutex rest program =>
      rw [program] at ordered
      split at stepped
      next free =>
          cases stepped
          refine disciplined.move (fun other differ => ?_) rfl ?_
          · apply held_setOwner_other
            · simp [free]
            · simpa using differ.symm
          · rw [held_setOwner_self]
            exact ordered.2
      next => cases stepped
  next mutex rest program =>
      rw [program] at ordered
      cases stepped
      refine disciplined.move (fun other differ => ?_) rfl ?_
      · have owned : state.owner mutex = some thread := ordered.1
        apply held_setOwner_other
        · simpa [owned] using differ.symm
        · simp
      · rw [held_setOwner_none]
        exact ordered.2
  next rest program =>
      rw [program] at ordered
      cases stepped
      exact disciplined.move (fun _ _ => rfl) rfl ordered

theorem Disciplined.step {locks : Call → List (LockStep Mutex)}
    {allowed : Thread → Call → Bool}
    (ordered : ∀ call, Ordered rank ∅ (locks call))
    {state next : LockState Thread Mutex} {action : LockAction Thread Call}
    (disciplined : state.Disciplined rank)
    (stepped : state.step locks allowed action = some next) :
    next.Disciplined rank := by
  cases action with
  | advance thread => exact disciplined.advance stepped
  | call thread call =>
      simp only [LockState.step, Option.ite_none_right_eq_some,
        Option.some.injEq, List.isEmpty_iff] at stepped
      obtain ⟨⟨idle, _⟩, rfl⟩ := stepped
      have nothing := disciplined thread
      rw [idle] at nothing
      have nothing : state.held thread = ∅ := nothing
      refine disciplined.move (fun _ _ => rfl) rfl ?_
      rw [nothing]
      exact ordered call

/-- Threads whose calls all take their mutexes by rising rank never request
what they hold and never wait in a cycle. -/
theorem deadlock_free {locks : Call → List (LockStep Mutex)}
    {allowed : Thread → Call → Bool}
    (ordered : ∀ call, Ordered rank ∅ (locks call))
    {state : LockState Thread Mutex}
    (reached : (machine locks allowed).Reachable state) :
    (∀ thread mutex, state.Requests thread mutex →
        state.owner mutex ≠ some thread) ∧
      ∀ thread, ¬ Relation.TransGen state.WaitsFor thread thread := by
  have disciplined : state.Disciplined rank :=
    Machine.reachable_preserves (Disciplined rank) disciplined_init reached
      fun _ _ _ disciplined stepped => disciplined.step ordered stepped
  exact ⟨fun _ _ requests => disciplined.no_self_request requests,
    disciplined.no_cycle⟩

omit [Preorder α] [DecidableEq Mutex] in
/-- Moving on with a given rest of the program. -/
private theorem advance_others {state moved : LockState Thread Mutex}
    {thread : Thread} {program : List (LockStep Mutex)}
    (kept : moved.program = state.program) {other : Thread}
    (differ : other ≠ thread) :
    (moved.setProgram thread program).program other = state.program other := by
  rw [← kept]
  exact Function.update_of_ne differ _ _

/-- A thread gets through steps that are ordered and acquire nothing that
another thread holds. -/
theorem runs_through (locks : Call → List (LockStep Mutex))
    (allowed : Thread → Call → Bool) {state : LockState Thread Mutex}
    {thread : Thread} {before after rest : List (LockStep Mutex)}
    (program : state.program thread = before ++ after)
    (ordered : Ordered rank (state.held thread) (before ++ rest))
    (unclaimed : ∀ mutex other, other ≠ thread →
      state.owner mutex = some other → .acquire mutex ∉ before) :
    ∃ final, (machine locks allowed).run state
        (List.replicate before.length (.advance thread)) = some final ∧
      final.program thread = after ∧ Ordered rank (final.held thread) rest ∧
      ∀ other ≠ thread, final.program other = state.program other ∧
        final.held other = state.held other := by
  induction before generalizing state with
  | nil => exact ⟨state, rfl, program, ordered, fun _ _ => ⟨rfl, rfl⟩⟩
  | cons first before induction =>
      have goes : ∀ moved : LockState Thread Mutex,
          state.advance thread = some (moved.setProgram thread (before ++ after)) →
          moved.program = state.program →
          (∀ other ≠ thread, moved.held other = state.held other) →
          Ordered rank (moved.held thread) (before ++ rest) →
          ∃ final, (machine locks allowed).run state
              (List.replicate (first :: before).length (.advance thread)) =
                some final ∧
            final.program thread = after ∧
            Ordered rank (final.held thread) rest ∧
            ∀ other ≠ thread, final.program other = state.program other ∧
              final.held other = state.held other := by
        intro moved advanced sameProgram sameHeld movedOrdered
        have own : (moved.setProgram thread (before ++ after)).program thread =
            before ++ after := Function.update_self _ _ _
        obtain ⟨final, ran, reached, finalOrdered, others⟩ := induction own
          movedOrdered fun mutex other differ owns => by
            have owned : mutex ∈ state.held other := sameHeld other differ ▸ owns
            exact fun member => unclaimed mutex other differ owned
              (List.mem_cons_of_mem _ member)
        refine ⟨final, Machine.run_cons_eq_some.mpr ⟨_, advanced, ran⟩, reached,
          finalOrdered, fun other differ => ?_⟩
        obtain ⟨otherProgram, otherHeld⟩ := others other differ
        exact ⟨otherProgram.trans (advance_others sameProgram differ),
          otherHeld.trans (sameHeld other differ)⟩
      cases first with
      | acquire mutex =>
          have free : state.owner mutex = none := by
            cases owner : state.owner mutex with
            | none => rfl
            | some other =>
                by_cases own : other = thread
                · subst own
                  exact absurd (ordered.1 mutex owner) (lt_irrefl _)
                · exact absurd List.mem_cons_self
                    (unclaimed mutex other own owner)
          refine goes (state.setOwner mutex (some thread))
            (by simp [LockState.advance, program, free]) rfl
            (fun other differ => ?_) ?_
          · exact held_setOwner_other (by simp [free])
              (by simpa using differ.symm)
          · rw [held_setOwner_self]
            exact ordered.2
      | release mutex =>
          have owned : state.owner mutex = some thread := ordered.1
          refine goes (state.setOwner mutex none)
            (by simp [LockState.advance, program]) rfl
            (fun other differ => ?_) ?_
          · exact held_setOwner_other (by simpa [owned] using differ.symm)
              (by simp)
          · rw [held_setOwner_none]
            exact ordered.2
      | block =>
          exact goes state (by simp [LockState.advance, program]) rfl
            (fun _ _ => rfl) ordered

omit [DecidableEq Thread] [DecidableEq Mutex] in
/-- What is left to release tells what is held. -/
theorem held_of_ordered_release {held : Set Mutex} {mutex : Mutex}
    (ordered : Ordered rank held [.release mutex]) : held = {mutex} := by
  obtain ⟨member, rest⟩ := ordered
  exact Set.Subset.antisymm (Set.sdiff_eq_empty.mp rest)
    (Set.singleton_subset_iff.mpr member)

end Step

end LockState

end Library
