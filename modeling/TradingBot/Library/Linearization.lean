import TradingBot.Library.Trace
import Mathlib.Data.List.Nodup

namespace Library

/-! Calls of an object that overlap in time, and orders of them in which each
call gets the result it would get if it were made alone. -/

universe u v w

/-- What the callers see; a ticket belongs to one call. -/
inductive CallEvent (Operation : Type v) (Result : Type w) where
  | invoked (ticket : Nat) (operation : Operation)
  | returned (ticket : Nat) (result : Result)

structure CompletedCall (Operation : Type v) (Result : Type w) where
  ticket : Nat
  operation : Operation
  result : Result

section Order

variable {State : Type u} {Operation : Type v} {Result : Type w}
  (apply : State → Operation → State × Result)

/-- The calls made one after another, each with the result it gets. -/
def Replays (state : State) :
    List (CompletedCall Operation Result) → State → Prop
  | [], final => final = state
  | call :: rest, final =>
      (apply state call.operation).2 = call.result ∧
        Replays (apply state call.operation).1 rest final

/-- An order of calls that explains what the callers have seen: it may contain
calls that have not returned, and it never puts a call before one that had
returned when it was invoked. -/
structure Linearization (start : State)
    (events : List (CallEvent Operation Result))
    (order : List (CompletedCall Operation Result)) (final : State) : Prop where
  replays : Replays apply start order final
  distinct : (order.map CompletedCall.ticket).Nodup
  invoked : ∀ call ∈ order, .invoked call.ticket call.operation ∈ events
  returned : ∀ ticket result, .returned ticket result ∈ events →
    ∃ call ∈ order, call.ticket = ticket ∧ call.result = result
  realTime : ∀ first ∈ order, ∀ second ∈ order,
    List.Sublist [.returned first.ticket first.result,
      .invoked second.ticket second.operation] events →
    List.Sublist [first, second] order

/-- No ticket is given twice, and a call returns at most once, after its
invocation. -/
structure WellFormed (events : List (CallEvent Operation Result)) : Prop where
  invokedOnce : ∀ before after ticket operation,
    events = before ++ .invoked ticket operation :: after →
    ∀ other, CallEvent.invoked ticket other ∉ before
  returnedOnce : ∀ before after ticket result,
    events = before ++ .returned ticket result :: after →
    (∃ operation, CallEvent.invoked ticket operation ∈ before) ∧
      ∀ other, CallEvent.returned ticket other ∉ before

def Linearizable (start : State)
    (events : List (CallEvent Operation Result)) : Prop :=
  WellFormed events ∧
    ∃ order final, Linearization apply start events order final

variable {apply}

theorem replays_concat {state final : State}
    {calls : List (CompletedCall Operation Result)}
    {call : CompletedCall Operation Result}
    (before : Replays apply state calls final)
    (result : (apply final call.operation).2 = call.result) :
    Replays apply state (calls ++ [call]) (apply final call.operation).1 := by
  induction calls generalizing state with
  | nil =>
      cases before
      exact ⟨result, rfl⟩
  | cons first rest induction => exact ⟨before.1, induction before.2⟩

/-- A specification that another one simulates step by step. -/
theorem Replays.map {Abstract : Type*}
    {abstractApply : Abstract → Operation → Abstract × Result}
    {abstraction : State → Abstract}
    (simulates : ∀ state operation,
      abstractApply (abstraction state) operation =
        (abstraction (apply state operation).1, (apply state operation).2))
    {state final : State} {calls : List (CompletedCall Operation Result)}
    (replays : Replays apply state calls final) :
    Replays abstractApply (abstraction state) calls (abstraction final) := by
  induction calls generalizing state with
  | nil =>
      cases replays
      rfl
  | cons call rest induction =>
      rw [Replays, simulates]
      exact ⟨replays.1, induction replays.2⟩

namespace WellFormed

theorem nil : WellFormed ([] : List (CallEvent Operation Result)) :=
  ⟨fun _ _ _ _ split => by simp at split, fun _ _ _ _ split => by simp at split⟩

variable {events : List (CallEvent Operation Result)}

/-- Where an event stands in a list that one event was added to. -/
private theorem concat_split {event last : CallEvent Operation Result}
    {before after : List (CallEvent Operation Result)}
    (split : events ++ [last] = before ++ event :: after) :
    (events = before ∧ last = event) ∨
      ∃ rest, events = before ++ event :: rest := by
  induction after using List.reverseRecOn with
  | nil =>
      obtain ⟨same, lastSame⟩ := List.append_inj' split rfl
      exact .inl ⟨same, by simpa using lastSame⟩
  | append_singleton rest final _ =>
      rw [← List.cons_append, ← List.append_assoc] at split
      exact .inr ⟨rest, (List.append_inj' split rfl).1⟩

theorem invoke (wellFormed : WellFormed events) {ticket : Nat}
    (fresh : ∀ operation, CallEvent.invoked ticket operation ∉ events)
    (operation : Operation) :
    WellFormed (events ++ [.invoked ticket operation]) := by
  constructor
  · intro before after other otherOperation split
    rcases concat_split split with ⟨rfl, same⟩ | ⟨rest, earlier⟩
    · cases same
      exact fresh
    · exact wellFormed.invokedOnce before rest other otherOperation earlier
  · intro before after other result split
    rcases concat_split split with ⟨_, same⟩ | ⟨rest, earlier⟩
    · cases same
    · exact wellFormed.returnedOnce before rest other result earlier

theorem respond (wellFormed : WellFormed events) {ticket : Nat}
    {operation : Operation}
    (invoked : CallEvent.invoked ticket operation ∈ events)
    (pending : ∀ result, CallEvent.returned ticket result ∉ events)
    (result : Result) :
    WellFormed (events ++ [.returned ticket result]) := by
  constructor
  · intro before after other otherOperation split
    rcases concat_split split with ⟨_, same⟩ | ⟨rest, earlier⟩
    · cases same
    · exact wellFormed.invokedOnce before rest other otherOperation earlier
  · intro before after other otherResult split
    rcases concat_split split with ⟨rfl, same⟩ | ⟨rest, earlier⟩
    · cases same
      exact ⟨⟨operation, invoked⟩, pending⟩
    · exact wellFormed.returnedOnce before rest other otherResult earlier

end WellFormed

namespace Linearization

variable {start final : State} {events : List (CallEvent Operation Result)}
  {order : List (CompletedCall Operation Result)}

theorem nil (start : State) : Linearization apply start [] [] start where
  replays := rfl
  distinct := List.nodup_nil
  invoked := by simp
  returned := by simp
  realTime := by simp

/-- A new invocation leaves the order as it is. -/
theorem invoke (linear : Linearization apply start events order final)
    {ticket : Nat}
    (fresh : ∀ operation, CallEvent.invoked ticket operation ∉ events)
    (operation : Operation) :
    Linearization apply start (events ++ [.invoked ticket operation]) order
      final where
  replays := linear.replays
  distinct := linear.distinct
  invoked := fun call member =>
    List.mem_append_left _ (linear.invoked call member)
  returned := by
    intro other result member
    have earlier : CallEvent.returned other result ∈ events := by
      simpa using member
    exact linear.returned other result earlier
  realTime := by
    intro first firstMember second secondMember sublist
    rcases pair_sublist_concat.mp sublist with earlier | ⟨_, last⟩
    · exact linear.realTime first firstMember second secondMember earlier
    · have invoked := linear.invoked second secondMember
      rw [last] at invoked
      exact absurd invoked (fresh operation)

/-- An invoked call takes effect after those that already have. -/
theorem commit (linear : Linearization apply start events order final)
    {ticket : Nat} {operation : Operation}
    (invoked : CallEvent.invoked ticket operation ∈ events)
    (pending : ∀ call ∈ order, call.ticket ≠ ticket) :
    Linearization apply start events
      (order ++ [⟨ticket, operation, (apply final operation).2⟩])
      (apply final operation).1 where
  replays := replays_concat linear.replays rfl
  distinct := by
    rw [List.map_append, List.map_singleton, List.nodup_append]
    refine ⟨linear.distinct, List.nodup_singleton _, ?_⟩
    intro other member last lastMember same
    obtain ⟨call, callMember, rfl⟩ := List.mem_map.mp member
    rw [List.mem_singleton.mp lastMember] at same
    exact pending call callMember same
  invoked := by
    intro call member
    rcases List.mem_append.mp member with earlier | last
    · exact linear.invoked call earlier
    · cases List.mem_singleton.mp last
      exact invoked
  returned := by
    intro other result member
    obtain ⟨call, earlier, same⟩ := linear.returned other result member
    exact ⟨call, List.mem_append_left _ earlier, same⟩
  realTime := by
    intro first firstMember second secondMember sublist
    have returned : CallEvent.returned first.ticket first.result ∈ events :=
      sublist.subset List.mem_cons_self
    -- what has returned already has its place
    obtain ⟨call, callMember, sameTicket, _⟩ :=
      linear.returned first.ticket first.result returned
    have earlier : first ∈ order := by
      rcases List.mem_append.mp firstMember with earlier | last
      · exact earlier
      · rw [List.mem_singleton.mp last] at sameTicket
        exact absurd sameTicket (pending call callMember)
    rcases List.mem_append.mp secondMember with secondEarlier | last
    · exact (linear.realTime first earlier second secondEarlier sublist).trans
        (List.sublist_append_left _ _)
    · rw [List.mem_singleton.mp last]
      exact pair_sublist_concat.mpr (.inr ⟨earlier, rfl⟩)

theorem respond (linear : Linearization apply start events order final)
    {call : CompletedCall Operation Result} (member : call ∈ order) :
    Linearization apply start
      (events ++ [.returned call.ticket call.result]) order final where
  replays := linear.replays
  distinct := linear.distinct
  invoked := fun other otherMember =>
    List.mem_append_left _ (linear.invoked other otherMember)
  returned := by
    intro ticket result returned
    rcases List.mem_append.mp returned with earlier | last
    · exact linear.returned ticket result earlier
    · cases List.mem_singleton.mp last
      exact ⟨call, member, rfl, rfl⟩
  realTime := by
    intro first firstMember second secondMember sublist
    rcases pair_sublist_concat.mp sublist with earlier | ⟨_, last⟩
    · exact linear.realTime first firstMember second secondMember earlier
    · cases last

theorem map {Abstract : Type*}
    {abstractApply : Abstract → Operation → Abstract × Result}
    {abstraction : State → Abstract}
    (simulates : ∀ state operation,
      abstractApply (abstraction state) operation =
        (abstraction (apply state operation).1, (apply state operation).2))
    (linear : Linearization apply start events order final) :
    Linearization abstractApply (abstraction start) events order
      (abstraction final) :=
  { linear with replays := linear.replays.map simulates }

end Linearization

/-- What one specification explains, one that it simulates explains too. -/
theorem Linearizable.map {Abstract : Type*}
    {abstractApply : Abstract → Operation → Abstract × Result}
    {abstraction : State → Abstract}
    (simulates : ∀ state operation,
      abstractApply (abstraction state) operation =
        (abstraction (apply state operation).1, (apply state operation).2))
    {start : State} {events : List (CallEvent Operation Result)}
    (linearizable : Linearizable apply start events) :
    Linearizable abstractApply (abstraction start) events := by
  obtain ⟨wellFormed, order, final, linear⟩ := linearizable
  exact ⟨wellFormed, order, abstraction final, linear.map simulates⟩

/-- Each result is the answer of some state that the calls can lead to. -/
theorem Replays.answer {state final : State}
    {calls : List (CompletedCall Operation Result)} (invariant : State → Prop)
    (start : invariant state)
    (preserved : ∀ state operation, invariant state →
      invariant (apply state operation).1)
    (replays : Replays apply state calls final)
    {call : CompletedCall Operation Result} (member : call ∈ calls) :
    ∃ between, invariant between ∧
      (apply between call.operation).2 = call.result := by
  induction calls generalizing state with
  | nil => cases member
  | cons first rest induction =>
      rcases List.mem_cons.mp member with rfl | later
      · exact ⟨state, start, replays.1⟩
      · exact induction (preserved state first.operation start) replays.2 later

theorem Linearizable.answer {start : State}
    {events : List (CallEvent Operation Result)} (invariant : State → Prop)
    (init : invariant start)
    (preserved : ∀ state operation, invariant state →
      invariant (apply state operation).1)
    (linearizable : Linearizable apply start events) {ticket : Nat}
    {result : Result} (returned : .returned ticket result ∈ events) :
    ∃ between operation, invariant between ∧
      (apply between operation).2 = result := by
  obtain ⟨_, order, final, linear⟩ := linearizable
  obtain ⟨call, member, _, rfl⟩ := linear.returned ticket result returned
  obtain ⟨between, holds, answered⟩ :=
    linear.replays.answer invariant init preserved member
  exact ⟨between, call.operation, holds, answered⟩

end Order

end Library
