import TradingBot.Library.Linearization
import TradingBot.Library.Machine
import Mathlib.Logic.Function.Basic

namespace Library

/-! Objects whose parts are guarded by mutexes.  A call runs one section under
the mutex of one part, an access of the part at a time, or reads an atomic view
of a part without its mutex. -/

universe u v w x y z

/-- The code of the sections under one mutex: `exit` tells where a section ends
and what it returns. -/
structure SectionCode (Part : Type u) (Point : Type v) (Call : Type w)
    (Result : Type x) where
  enter : Call → Point
  step : Point → Part → Part × Point
  exit : Point → Option Result

namespace SectionCode

variable {Part : Type u} {Point : Type v} {Call : Type w}
  {Result : Type x} (code : SectionCode Part Point Call Result)

/-- The section of a call that found the part as it was before has come to a
point, with the part as it is now. -/
inductive Within (call : Call) (before : Part) : Part → Point → Prop
  | enter : Within call before before (code.enter call)
  | step {part : Part} {point : Point}
      (within : Within call before part point)
      (inside : code.exit point = none) :
      Within call before (code.step point part).1 (code.step point part).2

/-- Run on its own, a section does what the specification does in one step; the
view of the part changes at once, where the section commits. -/
structure Implements {View : Type y}
    (apply : Part → Call → Part × Result) (view : Part → View)
    (committed : Point → Bool) : Prop where
  enters : ∀ call, committed (code.enter call) = false
  stays : ∀ point part, code.exit point = none → committed point = true →
    committed (code.step point part).2 = true
  exits : ∀ point result, code.exit point = some result →
    committed point = true
  returns : ∀ call before part point result,
    code.Within call before part point → code.exit point = some result →
      (part, result) = apply before call
  hidden : ∀ call before part point,
    code.Within call before part point → committed point = false →
      view part = view before
  shown : ∀ call before part point,
    code.Within call before part point → committed point = true →
      view part = view (apply before call).1

end SectionCode

inductive Access (Mutex : Type u) (Call : Mutex → Type v) where
  | locked (mutex : Mutex) (call : Call mutex)
  | atomic (mutex : Mutex)

inductive CallStage (Mutex : Type u) (Point : Mutex → Type v) (Result : Type x)
    where
  | waiting
  | inside (mutex : Mutex) (point : Point mutex)
  | answered (result : Result)
  | returned

section Object

variable {Mutex : Type u} {Part : Mutex → Type v} {Point : Mutex → Type v}
  {View : Mutex → Type v} {Call : Mutex → Type v} {Operation : Type w}
  {Result : Type x}

variable (Part Point View Call Operation Result) in
structure LockedObject where
  access : Operation → Access Mutex Call
  code : ∀ mutex,
    SectionCode (Part mutex) (Point mutex) (Call mutex) Result
  view : ∀ mutex, Part mutex → View mutex
  read : ∀ mutex, View mutex → Operation → Result

variable (Part Point Operation Result) in
/-- A call's ticket is its position in `calls`. -/
structure ObjectState where
  parts : ∀ mutex, Part mutex
  owner : Mutex → Option Nat
  calls : List (Operation × CallStage Mutex Point Result)

variable (Operation) in
inductive ObjectAction where
  | invoke (operation : Operation)
  | advance (ticket : Nat)

namespace LockedObject

variable [DecidableEq Mutex]
  (object : LockedObject Part Point View Call Operation Result)

/-- One step of a call whose stage is given: what it leaves of the parts and of
the owners, and its next stage. -/
def move (state : ObjectState Part Point Operation Result) (ticket : Nat)
    (operation : Operation) :
    CallStage Mutex Point Result →
      Option (ObjectState Part Point Operation Result)
  | .waiting =>
      match object.access operation with
      | .locked mutex call =>
          if state.owner mutex = none then
            some { state with
              owner := Function.update state.owner mutex (some ticket)
              calls := state.calls.set ticket
                (operation, .inside mutex ((object.code mutex).enter call)) }
          else none
      | .atomic mutex =>
          some { state with
            calls := state.calls.set ticket
              (operation,
                .answered (object.read mutex
                  (object.view mutex (state.parts mutex)) operation)) }
  | .inside mutex point =>
      match (object.code mutex).exit point with
      | none =>
          let moved := (object.code mutex).step point (state.parts mutex)
          some { state with
            parts := Function.update state.parts mutex moved.1
            calls := state.calls.set ticket
              (operation, .inside mutex moved.2) }
      | some result =>
          some { state with
            owner := Function.update state.owner mutex none
            calls := state.calls.set ticket (operation, .answered result) }
  | .answered _ =>
      some { state with calls := state.calls.set ticket (operation, .returned) }
  | .returned => none

def step (state : ObjectState Part Point Operation Result) :
    ObjectAction Operation → Option (ObjectState Part Point Operation Result)
  | .invoke operation =>
      some { state with calls := state.calls ++ [(operation, .waiting)] }
  | .advance ticket =>
      match state.calls[ticket]? with
      | none => none
      | some (operation, stage) => object.move state ticket operation stage

def init (start : ∀ mutex, Part mutex) :
    ObjectState Part Point Operation Result where
  parts := start
  owner := fun _ => none
  calls := []

def machine (start : ∀ mutex, Part mutex) :
    Machine (ObjectState Part Point Operation Result)
      (ObjectAction Operation) where
  init := init start
  step := object.step

/-- What the callers see of a step. -/
def observe (state : ObjectState Part Point Operation Result) :
    ObjectAction Operation → List (CallEvent Operation Result)
  | .invoke operation => [.invoked state.calls.length operation]
  | .advance ticket =>
      match state.calls[ticket]? with
      | some (_, .answered result) => [.returned ticket result]
      | _ => []

/-- The specification of the whole object from those of its parts. -/
def sequential (apply : ∀ mutex, Part mutex → Call mutex → Part mutex × Result)
    (parts : ∀ mutex, Part mutex) (operation : Operation) :
    (∀ mutex, Part mutex) × Result :=
  match object.access operation with
  | .locked mutex call =>
      let applied := apply mutex (parts mutex) call
      (Function.update parts mutex applied.1, applied.2)
  | .atomic mutex =>
      (parts, object.read mutex (object.view mutex (parts mutex)) operation)

section Explanation

variable (apply : ∀ mutex, Part mutex → Call mutex → Part mutex × Result)
  (committed : ∀ mutex, Point mutex → Bool)

/-- What is known of a call at a stage, given the calls that have taken effect
and the parts as these leave them. -/
def StageHolds (state : ObjectState Part Point Operation Result)
    (order : List (CompletedCall Operation Result))
    (effect : ∀ mutex, Part mutex) (ticket : Nat) (operation : Operation) :
    CallStage Mutex Point Result → Prop
  | .waiting => ∀ call ∈ order, call.ticket ≠ ticket
  | .inside mutex point =>
      state.owner mutex = some ticket ∧
        ∃ call before, object.access operation = .locked mutex call ∧
          (object.code mutex).Within call before (state.parts mutex) point ∧
          if committed mutex point = true then
            effect mutex = (apply mutex before call).1 ∧
              ⟨ticket, operation, (apply mutex before call).2⟩ ∈ order
          else effect mutex = before ∧ ∀ call ∈ order, call.ticket ≠ ticket
  | .answered result => ⟨ticket, operation, result⟩ ∈ order
  | .returned => True

structure Explains (start : ∀ mutex, Part mutex)
    (state : ObjectState Part Point Operation Result)
    (events : List (CallEvent Operation Result))
    (order : List (CompletedCall Operation Result))
    (effect : ∀ mutex, Part mutex) : Prop where
  linear : Linearization (object.sequential apply) start events order effect
  wellFormed : WellFormed events
  tickets : ∀ ticket operation, .invoked ticket operation ∈ events ↔
    ∃ stage, state.calls[ticket]? = some (operation, stage)
  returns : ∀ ticket result, .returned ticket result ∈ events →
    ∃ operation, state.calls[ticket]? = some (operation, .returned)
  free : ∀ mutex, state.owner mutex = none →
    effect mutex = state.parts mutex
  owned : ∀ mutex ticket, state.owner mutex = some ticket →
    ∃ operation point, state.calls[ticket]? = some (operation, .inside mutex point)
  stages : ∀ ticket operation stage,
    state.calls[ticket]? = some (operation, stage) →
      object.StageHolds apply committed state order effect ticket operation stage

variable {object apply committed} {start effect : ∀ mutex, Part mutex}
  {state : ObjectState Part Point Operation Result}
  {events : List (CallEvent Operation Result)}
  {order : List (CompletedCall Operation Result)}

omit [DecidableEq Mutex] in
/-- A call knows what it knew while the parts it owns stay as they are and no
call with its ticket takes effect. -/
theorem StageHolds.frame {next : ObjectState Part Point Operation Result}
    {later : List (CompletedCall Operation Result)}
    {laterEffect : ∀ mutex, Part mutex} {ticket : Nat} {operation : Operation}
    {stage : CallStage Mutex Point Result}
    (holds : object.StageHolds apply committed state order effect ticket
      operation stage)
    (kept : ∀ mutex, state.owner mutex = some ticket →
      next.owner mutex = some ticket ∧ next.parts mutex = state.parts mutex ∧
        laterEffect mutex = effect mutex)
    (grows : order ⊆ later)
    (others : ∀ call ∈ later, call ∈ order ∨ call.ticket ≠ ticket) :
    object.StageHolds apply committed next later laterEffect ticket operation
      stage := by
  have pending : (∀ call ∈ order, call.ticket ≠ ticket) →
      ∀ call ∈ later, call.ticket ≠ ticket := by
    intro before call member
    rcases others call member with earlier | other
    · exact before call earlier
    · exact other
  cases stage with
  | waiting => exact pending holds
  | inside mutex point =>
      obtain ⟨own, call, before, accessed, within, effective⟩ := holds
      obtain ⟨ownNow, sameParts, sameEffect⟩ := kept mutex own
      refine ⟨ownNow, call, before, accessed, sameParts ▸ within, ?_⟩
      rw [sameEffect]
      split
      next done =>
          rw [if_pos done] at effective
          exact ⟨effective.1, grows effective.2⟩
      next undone =>
          rw [if_neg undone] at effective
          exact ⟨effective.1, pending effective.2⟩
  | answered result => exact grows holds
  | returned => trivial

/-- One call moves on; the others own what they owned. -/
theorem Explains.advance
    (explains : object.Explains apply committed start state events order effect)
    {ticket : Nat} {operation : Operation}
    {stage nextStage : CallStage Mutex Point Result}
    (found : state.calls[ticket]? = some (operation, stage))
    (running : ∀ result, .returned ticket result ∉ events)
    {next : ObjectState Part Point Operation Result}
    {laterEvents : List (CallEvent Operation Result)}
    {later : List (CompletedCall Operation Result)}
    {laterEffect : ∀ mutex, Part mutex}
    (moved : next.calls = state.calls.set ticket (operation, nextStage))
    (linear : Linearization (object.sequential apply) start laterEvents later
      laterEffect)
    (wellFormed : WellFormed laterEvents)
    (sameInvocations : ∀ other otherOperation,
      .invoked other otherOperation ∈ laterEvents ↔
        .invoked other otherOperation ∈ events)
    (newReturns : ∀ other result, .returned other result ∈ laterEvents →
      .returned other result ∈ events ∨ other = ticket ∧ nextStage = .returned)
    (grows : order ⊆ later)
    (others : ∀ call ∈ later, call ∈ order ∨ call.ticket = ticket)
    (kept : ∀ mutex other, other ≠ ticket → state.owner mutex = some other →
      next.owner mutex = some other ∧ next.parts mutex = state.parts mutex ∧
        laterEffect mutex = effect mutex)
    (notTaken : ∀ mutex other, other ≠ ticket → next.owner mutex = some other →
      state.owner mutex = some other)
    (free : ∀ mutex, next.owner mutex = none →
      laterEffect mutex = next.parts mutex)
    (owned : ∀ mutex, next.owner mutex = some ticket →
      ∃ point, nextStage = .inside mutex point)
    (holds : object.StageHolds apply committed next later laterEffect ticket
      operation nextStage) :
    object.Explains apply committed start next laterEvents later
      laterEffect := by
  have inRange : ticket < state.calls.length :=
    (List.getElem?_eq_some_iff.mp found).1
  have own : next.calls[ticket]? = some (operation, nextStage) := by
    rw [moved, List.getElem?_set_self inRange]
  have other : ∀ other, other ≠ ticket →
      next.calls[other]? = state.calls[other]? := by
    intro other differ
    rw [moved, List.getElem?_set_ne differ.symm]
  refine ⟨linear, wellFormed, ?_, ?_, free, ?_, ?_⟩
  · intro key keyOperation
    rw [sameInvocations, explains.tickets]
    rcases eq_or_ne key ticket with rfl | differ
    · simp [own, found]
    · rw [other key differ]
  · intro key result returned
    rcases newReturns key result returned with earlier | ⟨rfl, rfl⟩
    · have differ : key ≠ ticket := by
        intro same
        exact running result (same ▸ earlier)
      rw [other key differ]
      exact explains.returns key result earlier
    · exact ⟨operation, own⟩
  · intro mutex key owns
    rcases eq_or_ne key ticket with rfl | differ
    · obtain ⟨point, rfl⟩ := owned mutex owns
      exact ⟨operation, point, own⟩
    · rw [other key differ]
      exact explains.owned mutex key (notTaken mutex key differ owns)
  · intro key keyOperation keyStage keyFound
    rcases eq_or_ne key ticket with rfl | differ
    · rw [own] at keyFound
      cases keyFound
      exact holds
    · rw [other key differ] at keyFound
      refine (explains.stages key keyOperation keyStage keyFound).frame
        (fun mutex owns => kept mutex key differ owns) grows
        fun call member => ?_
      rcases others call member with earlier | same
      · exact .inl earlier
      · exact .inr (same ▸ differ.symm)

theorem explains_init (start : ∀ mutex, Part mutex) :
    object.Explains apply committed start (init start) [] [] start where
  linear := .nil start
  wellFormed := .nil
  tickets := by simp [init]
  returns := by simp
  free := fun _ _ => rfl
  owned := by simp [init]
  stages := by simp [init]

theorem Explains.invoke
    (explains : object.Explains apply committed start state events order effect)
    (operation : Operation) :
    object.Explains apply committed start
      { state with calls := state.calls ++ [(operation, .waiting)] }
      (events ++ [.invoked state.calls.length operation]) order effect := by
  have fresh : ∀ other,
      CallEvent.invoked state.calls.length other ∉ events := by
    intro other member
    obtain ⟨stage, found⟩ := (explains.tickets _ _).mp member
    simp at found
  have earlier : ∀ (ticket : Nat) entry, state.calls[ticket]? = some entry →
      (state.calls ++ [(operation, .waiting)])[ticket]? = some entry := by
    intro ticket entry found
    have inRange := (List.getElem?_eq_some_iff.mp found).1
    rw [List.getElem?_append_left inRange, found]
  refine ⟨explains.linear.invoke fresh operation,
    explains.wellFormed.invoke fresh operation, ?_, ?_, explains.free, ?_, ?_⟩
  · intro ticket other
    rw [List.mem_append, explains.tickets, List.getElem?_append]
    split
    next inRange =>
        have differ : ticket ≠ state.calls.length := inRange.ne
        simp [differ]
    next outside =>
        have absent : state.calls[ticket]? = none :=
          List.getElem?_eq_none (Nat.not_lt.mp outside)
        rcases eq_or_ne ticket state.calls.length with rfl | differ
        · simp [eq_comm]
        · have beyond : ticket - state.calls.length ≠ 0 := by omega
          simp [absent, differ, beyond]
  · intro ticket result member
    have returned : CallEvent.returned ticket result ∈ events := by
      simpa using member
    obtain ⟨other, found⟩ := explains.returns ticket result returned
    exact ⟨other, earlier _ _ found⟩
  · intro mutex ticket owns
    obtain ⟨other, point, found⟩ := explains.owned mutex ticket owns
    exact ⟨other, point, earlier _ _ found⟩
  · intro ticket other stage found
    rw [List.getElem?_append] at found
    split at found
    next => exact explains.stages ticket other stage found
    next outside =>
        -- the new call has taken no effect: its ticket was not given before
        obtain ⟨rfl, rfl⟩ : other = operation ∧ stage = .waiting := by
          cases shift : ticket - state.calls.length <;> simp_all
        intro call member same
        have invoked := explains.linear.invoked call member
        obtain ⟨stage, called⟩ := (explains.tickets _ _).mp invoked
        exact outside (same ▸ (List.getElem?_eq_some_iff.mp called).1)

theorem Explains.invoked
    (explains : object.Explains apply committed start state events order effect)
    {ticket : Nat} {operation : Operation}
    {stage : CallStage Mutex Point Result}
    (found : state.calls[ticket]? = some (operation, stage)) :
    .invoked ticket operation ∈ events :=
  (explains.tickets ticket operation).mpr ⟨stage, found⟩

theorem Explains.running
    (explains : object.Explains apply committed start state events order effect)
    {ticket : Nat} {operation : Operation}
    {stage : CallStage Mutex Point Result}
    (found : state.calls[ticket]? = some (operation, stage))
    (unfinished : stage ≠ .returned) (result : Result) :
    .returned ticket result ∉ events := by
  intro member
  obtain ⟨other, returned⟩ := explains.returns ticket result member
  rw [found] at returned
  cases returned
  exact unfinished rfl

theorem Explains.respond
    (explains : object.Explains apply committed start state events order effect)
    {ticket : Nat} {operation : Operation} {result : Result}
    (found : state.calls[ticket]? = some (operation, .answered result)) :
    object.Explains apply committed start
      { state with calls := state.calls.set ticket (operation, .returned) }
      (events ++ [.returned ticket result]) order effect := by
  have placed : ⟨ticket, operation, result⟩ ∈ order :=
    explains.stages ticket operation _ found
  have running := explains.running found (by simp)
  refine explains.advance found running rfl (explains.linear.respond placed)
    (explains.wellFormed.respond (explains.invoked found) running result) ?_ ?_
    (List.Subset.refl _) (fun _ member => .inl member)
    (fun _ _ _ owns => ⟨owns, rfl, rfl⟩) (fun _ _ _ owns => owns) explains.free
    ?_ trivial
  · intro other otherOperation
    simp
  · intro other otherResult member
    rcases List.mem_append.mp member with earlier | last
    · exact .inl earlier
    · cases List.mem_singleton.mp last
      exact .inr ⟨rfl, rfl⟩
  · intro mutex owns
    obtain ⟨other, point, inside⟩ := explains.owned mutex ticket owns
    rw [found] at inside
    cases inside

theorem Explains.lock
    (explains : object.Explains apply committed start state events order effect)
    (implements : ∀ mutex, (object.code mutex).Implements (apply mutex)
      (object.view mutex) (committed mutex))
    {ticket : Nat} {operation : Operation} {mutex : Mutex} {call : Call mutex}
    (found : state.calls[ticket]? = some (operation, .waiting))
    (accessed : object.access operation = .locked mutex call)
    (unowned : state.owner mutex = none) :
    object.Explains apply committed start
      { state with
        owner := Function.update state.owner mutex (some ticket)
        calls := state.calls.set ticket
          (operation, .inside mutex ((object.code mutex).enter call)) }
      events order effect := by
  have pending := explains.stages ticket operation _ found
  refine explains.advance found (explains.running found (by simp)) rfl
    explains.linear explains.wellFormed (fun _ _ => Iff.rfl)
    (fun _ _ member => .inl member) (List.Subset.refl _)
    (fun _ member => .inl member) ?_ ?_ ?_ ?_ ?_
  · intro key other differ owns
    have apart : key ≠ mutex := by
      rintro rfl
      simp [unowned] at owns
    exact ⟨by simpa [apart] using owns, rfl, rfl⟩
  · intro key other differ owns
    rcases eq_or_ne key mutex with rfl | apart
    · simp [differ.symm] at owns
    · simpa [apart] using owns
  · intro key unownedNow
    rcases eq_or_ne key mutex with rfl | apart
    · simp at unownedNow
    · exact explains.free key (by simpa [apart] using unownedNow)
  · intro key owns
    rcases eq_or_ne key mutex with rfl | apart
    · exact ⟨_, rfl⟩
    · have owned : state.owner key = some ticket := by simpa [apart] using owns
      obtain ⟨_, _, inside⟩ := explains.owned key ticket owned
      rw [found] at inside
      cases inside
  · refine ⟨by simp, call, state.parts mutex, accessed, .enter, ?_⟩
    rw [if_neg (by simp [(implements mutex).enters call])]
    exact ⟨explains.free mutex unowned, pending⟩

/-- The view of a part is what the calls that have taken effect make it, even
while a section changes the part. -/
theorem Explains.view_eq
    (explains : object.Explains apply committed start state events order effect)
    (implements : ∀ mutex, (object.code mutex).Implements (apply mutex)
      (object.view mutex) (committed mutex)) (mutex : Mutex) :
    object.view mutex (state.parts mutex) =
      object.view mutex (effect mutex) := by
  cases owner : state.owner mutex with
  | none => rw [explains.free mutex owner]
  | some ticket =>
      obtain ⟨operation, point, found⟩ := explains.owned mutex ticket owner
      obtain ⟨_, call, before, _, within, effective⟩ :=
        explains.stages ticket operation _ found
      split at effective
      next done =>
          rw [effective.1]
          exact (implements mutex).shown call before _ point within done
      next undone =>
          rw [effective.1]
          exact (implements mutex).hidden call before _ point within
            (by simpa using undone)

theorem Explains.readView
    (explains : object.Explains apply committed start state events order effect)
    (implements : ∀ mutex, (object.code mutex).Implements (apply mutex)
      (object.view mutex) (committed mutex))
    {ticket : Nat} {operation : Operation} {mutex : Mutex}
    (found : state.calls[ticket]? = some (operation, .waiting))
    (accessed : object.access operation = .atomic mutex) :
    ∃ later laterEffect, object.Explains apply committed start
      { state with
        calls := state.calls.set ticket
          (operation,
            .answered (object.read mutex
              (object.view mutex (state.parts mutex)) operation)) }
      events later laterEffect := by
  have pending : ∀ call ∈ order, call.ticket ≠ ticket :=
    explains.stages ticket operation _ found
  have commits := explains.linear.commit (explains.invoked found) pending
  have sequential : object.sequential apply effect operation =
      (effect, object.read mutex (object.view mutex (state.parts mutex))
        operation) := by
    simp [LockedObject.sequential, accessed, explains.view_eq implements mutex]
  rw [sequential] at commits
  refine ⟨_, effect, explains.advance found (explains.running found (by simp))
    rfl commits explains.wellFormed (fun _ _ => Iff.rfl)
    (fun _ _ member => .inl member) (List.subset_append_left _ _) ?_
    (fun _ _ _ owns => ⟨owns, rfl, rfl⟩) (fun _ _ _ owns => owns)
    explains.free ?_ (List.mem_append_right _ List.mem_cons_self)⟩
  · intro call member
    rcases List.mem_append.mp member with earlier | last
    · exact .inl earlier
    · exact .inr (by rw [List.mem_singleton.mp last])
  · intro key owns
    obtain ⟨_, _, inside⟩ := explains.owned key ticket owns
    rw [found] at inside
    cases inside

/-- A section accesses its part; the call may take effect with that. -/
theorem Explains.accessPart
    (explains : object.Explains apply committed start state events order effect)
    {ticket : Nat} {operation : Operation} {mutex : Mutex}
    {point : Point mutex}
    (found : state.calls[ticket]? = some (operation, .inside mutex point))
    {part : Part mutex} {after : Point mutex}
    {later : List (CompletedCall Operation Result)}
    {laterEffect : ∀ mutex, Part mutex}
    (linear : Linearization (object.sequential apply) start events later
      laterEffect)
    (grows : order ⊆ later)
    (others : ∀ call ∈ later, call ∈ order ∨ call.ticket = ticket)
    (elsewhere : ∀ key, key ≠ mutex → laterEffect key = effect key)
    (holds : object.StageHolds apply committed
      { state with
        parts := Function.update state.parts mutex part
        calls := state.calls.set ticket (operation, .inside mutex after) }
      later laterEffect ticket operation (.inside mutex after)) :
    object.Explains apply committed start
      { state with
        parts := Function.update state.parts mutex part
        calls := state.calls.set ticket (operation, .inside mutex after) }
      events later laterEffect := by
  obtain ⟨own, _⟩ := explains.stages ticket operation _ found
  have apart : ∀ key, state.owner key ≠ some ticket → key ≠ mutex := by
    rintro key notOwn rfl
    exact notOwn own
  refine explains.advance found (explains.running found (by simp)) rfl linear
    explains.wellFormed (fun _ _ => Iff.rfl) (fun _ _ member => .inl member)
    grows others ?_ (fun _ _ _ owns => owns) ?_ ?_ holds
  · intro key other differ owns
    have apart := apart key (by simpa [owns] using differ)
    exact ⟨owns, Function.update_of_ne apart _ _, elsewhere key apart⟩
  · intro key unowned
    have unowned : state.owner key = none := unowned
    have apart := apart key (by simp [unowned])
    rw [elsewhere key apart, explains.free key unowned]
    exact (Function.update_of_ne apart _ _).symm
  · intro key owns
    obtain ⟨_, _, inside⟩ := explains.owned key ticket owns
    rw [found] at inside
    cases inside
    exact ⟨after, rfl⟩

theorem Explains.work
    (explains : object.Explains apply committed start state events order effect)
    (implements : ∀ mutex, (object.code mutex).Implements (apply mutex)
      (object.view mutex) (committed mutex))
    {ticket : Nat} {operation : Operation} {mutex : Mutex}
    {point : Point mutex}
    (found : state.calls[ticket]? = some (operation, .inside mutex point))
    (inside : (object.code mutex).exit point = none) :
    ∃ later laterEffect, object.Explains apply committed start
      { state with
        parts := Function.update state.parts mutex
          ((object.code mutex).step point (state.parts mutex)).1
        calls := state.calls.set ticket
          (operation, .inside mutex
            ((object.code mutex).step point (state.parts mutex)).2) }
      events later laterEffect := by
  obtain ⟨own, call, before, accessed, within, effective⟩ :=
    explains.stages ticket operation _ found
  have steps := within.step inside
  have moved : (object.code mutex).Within call before
      (Function.update state.parts mutex
        ((object.code mutex).step point (state.parts mutex)).1 mutex)
      ((object.code mutex).step point (state.parts mutex)).2 := by
    rw [Function.update_self]
    exact steps
  split at effective
  next done =>
      have still := (implements mutex).stays point (state.parts mutex) inside done
      refine ⟨order, effect, explains.accessPart found explains.linear
        (List.Subset.refl _) (fun _ member => .inl member) (fun _ _ => rfl)
        ⟨own, call, before, accessed, moved, ?_⟩⟩
      rw [if_pos still]
      exact effective
  next undone =>
      obtain ⟨unchanged, pending⟩ := effective
      cases commits : committed mutex
          ((object.code mutex).step point (state.parts mutex)).2 with
      | false =>
          refine ⟨order, effect, explains.accessPart found explains.linear
            (List.Subset.refl _) (fun _ member => .inl member) (fun _ _ => rfl)
            ⟨own, call, before, accessed, moved, ?_⟩⟩
          rw [if_neg (by simp [commits])]
          exact ⟨unchanged, pending⟩
      | true =>
          have linear := explains.linear.commit (explains.invoked found) pending
          have sequential : object.sequential apply effect operation =
              (Function.update effect mutex (apply mutex before call).1,
                (apply mutex before call).2) := by
            simp [LockedObject.sequential, accessed, unchanged]
          rw [sequential] at linear
          refine ⟨_, _, explains.accessPart found linear
            (List.subset_append_left _ _) ?_
            (fun key apart => Function.update_of_ne apart _ _)
            ⟨own, call, before, accessed, moved, ?_⟩⟩
          · intro other member
            rcases List.mem_append.mp member with earlier | last
            · exact .inl earlier
            · exact .inr (by rw [List.mem_singleton.mp last])
          · rw [if_pos commits]
            exact ⟨Function.update_self _ _ _,
              List.mem_append_right _ List.mem_cons_self⟩

theorem Explains.unlock
    (explains : object.Explains apply committed start state events order effect)
    (implements : ∀ mutex, (object.code mutex).Implements (apply mutex)
      (object.view mutex) (committed mutex))
    {ticket : Nat} {operation : Operation} {mutex : Mutex}
    {point : Point mutex} {result : Result}
    (found : state.calls[ticket]? = some (operation, .inside mutex point))
    (exits : (object.code mutex).exit point = some result) :
    object.Explains apply committed start
      { state with
        owner := Function.update state.owner mutex none
        calls := state.calls.set ticket (operation, .answered result) }
      events order effect := by
  obtain ⟨own, call, before, accessed, within, effective⟩ :=
    explains.stages ticket operation _ found
  rw [if_pos ((implements mutex).exits point result exits)] at effective
  have returns := (implements mutex).returns call before _ point result within
    exits
  rw [Prod.ext_iff] at returns
  obtain ⟨sameParts, sameResult⟩ := returns
  have others : ∀ key other, other ≠ ticket → state.owner key = some other →
      key ≠ mutex := by
    rintro key other differ owns rfl
    rw [own] at owns
    cases owns
    exact differ rfl
  refine explains.advance found (explains.running found (by simp)) rfl
    explains.linear explains.wellFormed (fun _ _ => Iff.rfl)
    (fun _ _ member => .inl member) (List.Subset.refl _)
    (fun _ member => .inl member) ?_ ?_ ?_ ?_ ?_
  · intro key other differ owns
    exact ⟨by simpa [others key other differ owns] using owns, rfl, rfl⟩
  · intro key other differ owns
    rcases eq_or_ne key mutex with rfl | apart
    · simp at owns
    · simpa [apart] using owns
  · intro key unowned
    rcases eq_or_ne key mutex with rfl | apart
    · exact effective.1.trans sameParts.symm
    · exact explains.free key (by simpa [apart] using unowned)
  · intro key owns
    rcases eq_or_ne key mutex with rfl | apart
    · simp at owns
    · have owned : state.owner key = some ticket := by simpa [apart] using owns
      obtain ⟨_, _, inside⟩ := explains.owned key ticket owned
      rw [found] at inside
      cases inside
      exact absurd rfl apart
  · show ⟨ticket, operation, result⟩ ∈ order
    rw [show result = _ from sameResult]
    exact effective.2

theorem Explains.step
    (explains : object.Explains apply committed start state events order effect)
    (implements : ∀ mutex, (object.code mutex).Implements (apply mutex)
      (object.view mutex) (committed mutex))
    {action : ObjectAction Operation}
    {next : ObjectState Part Point Operation Result}
    (stepped : object.step state action = some next) :
    ∃ later laterEffect, object.Explains apply committed start next
      (events ++ observe state action) later laterEffect := by
  cases action with
  | invoke operation =>
      cases stepped
      exact ⟨order, effect, explains.invoke operation⟩
  | advance ticket =>
      cases found : state.calls[ticket]? with
      | none => simp [LockedObject.step, found] at stepped
      | some entry =>
          obtain ⟨operation, stage⟩ := entry
          simp only [LockedObject.step, found] at stepped
          cases stage with
          | waiting =>
              have unseen : events ++ observe state (.advance ticket) = events := by
                simp [observe, found]
              rw [unseen]
              cases accessed : object.access operation with
              | locked mutex call =>
                  simp only [move, accessed, Option.ite_none_right_eq_some,
                    Option.some.injEq] at stepped
                  obtain ⟨unowned, rfl⟩ := stepped
                  exact ⟨order, effect,
                    explains.lock implements found accessed unowned⟩
              | atomic mutex =>
                  simp only [move, accessed, Option.some.injEq] at stepped
                  subst stepped
                  exact explains.readView implements found accessed
          | inside mutex point =>
              have unseen : events ++ observe state (.advance ticket) = events := by
                simp [observe, found]
              rw [unseen]
              cases exits : (object.code mutex).exit point with
              | none =>
                  simp only [move, exits, Option.some.injEq] at stepped
                  subst stepped
                  exact explains.work implements found exits
              | some result =>
                  simp only [move, exits, Option.some.injEq] at stepped
                  subst stepped
                  exact ⟨order, effect, explains.unlock implements found exits⟩
          | answered result =>
              cases stepped
              have seen : observe state (.advance ticket) =
                  [.returned ticket result] := by
                simp [observe, found]
              rw [seen]
              exact ⟨order, effect, explains.respond found⟩
          | returned => simp [move] at stepped

/-- Sections that implement their specification under a mutex, and reads of
views that change only where the sections commit: every run of overlapping
calls is explained by one order of whole calls. -/
theorem linearizable
    (implements : ∀ mutex, (object.code mutex).Implements (apply mutex)
      (object.view mutex) (committed mutex))
    {final : ObjectState Part Point Operation Result}
    {actions : List (ObjectAction Operation)}
    (ran : (object.machine start).run (init start) actions = some final) :
    Linearizable (object.sequential apply) start
      ((object.machine start).record observe (init start) actions) := by
  have explained := Machine.run_record_preserves
    (fun state events => ∃ order effect,
      object.Explains apply committed start state events order effect)
    ⟨[], start, explains_init start⟩ ran
    fun state seen action next holds stepped => by
      obtain ⟨order, effect, explains⟩ := holds
      exact explains.step implements stepped
  obtain ⟨order, effect, explains⟩ := explained
  exact ⟨explains.wellFormed, order, effect, explains.linear⟩

end Explanation

end LockedObject

end Object

end Library
