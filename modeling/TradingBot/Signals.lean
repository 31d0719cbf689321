import TradingBot.Listener
import Mathlib.Tactic.Linarith
import Mathlib.Data.List.Induction
import Mathlib.Data.List.Nodup

namespace TradingBot

/-! The signals of a stream of ticks, as the listener finds them. -/

/-- A tick as `MarketSimulator` builds it. -/
structure MarketTick.Simulated (tick : MarketTick) : Prop where
  symbol : tick.symbol = "AAPL"
  floor : 50 ≤ tick.lastPrice
  bid : tick.bid = tick.lastPrice - 1 / 100
  ask : tick.ask = tick.lastPrice + 1 / 100

theorem MarketTick.simulated_iff (tick : MarketTick) :
    tick.Simulated ↔
      tick.symbol = "AAPL" ∧ 50 ≤ tick.lastPrice ∧
        tick.bid = tick.lastPrice - 1 / 100 ∧
        tick.ask = tick.lastPrice + 1 / 100 :=
  ⟨fun simulated =>
      ⟨simulated.symbol, simulated.floor, simulated.bid, simulated.ask⟩,
    fun ⟨symbol, floor, bid, ask⟩ => ⟨symbol, floor, bid, ask⟩⟩

instance : DecidablePred MarketTick.Simulated :=
  fun tick => decidable_of_iff _ tick.simulated_iff.symm

def simulatedTick (lastPrice : Rat) : MarketTick :=
  { (default : MarketTick) with
    symbol := "AAPL", lastPrice, bid := lastPrice - 1 / 100,
    ask := lastPrice + 1 / 100 }

/-- A tick that is a signal, its position in the stream, and its order. -/
structure Signal where
  index : Nat
  tick : MarketTick
  order : Order
  deriving DecidableEq

/-- Order ids start at 1000 and count the signals. -/
def orderIdAt (position : Nat) : UInt64 := UInt64.ofNat (1000 + position)

def Signal.request (signal : Signal) (position : Nat) : ExecutionRequest :=
  requestFor (orderIdAt position) signal.order signal.tick.timestamp

namespace DemoStrategyListener

def afterTicks (ticks : List MarketTick) : DemoStrategyListener :=
  ticks.foldl afterTick init

@[simp] theorem afterTicks_append (ticks : List MarketTick)
    (tick : MarketTick) :
    afterTicks (ticks ++ [tick]) = (afterTicks ticks).afterTick tick := by
  simp [afterTicks]

def signalAfter (earlier : List MarketTick) (tick : MarketTick) :
    Option Signal :=
  ((afterTicks earlier).signal tick).map fun order =>
    { index := earlier.length, tick, order }

def signals (ticks : List MarketTick) : List Signal :=
  (List.range ticks.length).filterMap fun index =>
    (ticks[index]?).bind (signalAfter (ticks.take index))

@[simp] theorem signals_nil : signals [] = [] := rfl

theorem signals_append (ticks : List MarketTick) (tick : MarketTick) :
    signals (ticks ++ [tick]) =
      signals ticks ++ (signalAfter ticks tick).toList := by
  have earlier : ∀ index ∈ List.range ticks.length,
      ((ticks ++ [tick])[index]?).bind
          (signalAfter ((ticks ++ [tick]).take index)) =
        (ticks[index]?).bind (signalAfter (ticks.take index)) := by
    intro index member
    have within : index < ticks.length := List.mem_range.mp member
    rw [List.getElem?_append_left within, List.take_append_of_le_length within.le]
  rw [signals, List.length_append, List.length_singleton, List.range_succ,
    List.filterMap_append, List.filterMap_congr earlier]
  simp [signals, List.filterMap_cons]
  cases signalAfter ticks tick <;> rfl

theorem signals_prefix (ticks later : List MarketTick) :
    signals ticks <+: signals (ticks ++ later) := by
  induction later using List.reverseRecOn with
  | nil => simp
  | append_singleton rest tick induction =>
      rw [← List.append_assoc, signals_append]
      exact induction.trans (List.prefix_append ..)

theorem length_signals (ticks : List MarketTick) :
    (signals ticks).length = (afterTicks ticks).tradeCount := by
  induction ticks using List.reverseRecOn with
  | nil => rfl
  | append_singleton rest tick induction =>
      rw [signals_append, List.length_append, induction, afterTicks_append, afterTick,
        signalAfter]
      cases (afterTicks rest).signal tick <;> rfl

theorem afterTicks_tradeCount_le (ticks : List MarketTick) :
    (afterTicks ticks).tradeCount ≤ maxTrades := by
  induction ticks using List.reverseRecOn with
  | nil => exact Nat.zero_le _
  | append_singleton rest tick induction =>
      rw [afterTicks_append]
      exact afterTick_tradeCount_le induction

theorem length_signals_le (ticks : List MarketTick) :
    (signals ticks).length ≤ maxTrades :=
  (length_signals ticks).trans_le (afterTicks_tradeCount_le ticks)

end DemoStrategyListener

def requestsOf (signals : List Signal) : List ExecutionRequest :=
  signals.zipIdx.map fun entry => entry.1.request entry.2

@[simp] theorem requestsOf_nil : requestsOf [] = [] := rfl

theorem requestsOf_append (signals : List Signal) (signal : Signal) :
    requestsOf (signals ++ [signal]) =
      requestsOf signals ++ [signal.request signals.length] := by
  simp [requestsOf, List.zipIdx_append]

theorem mem_requestsOf {signals : List Signal} {request : ExecutionRequest} :
    request ∈ requestsOf signals ↔
      ∃ position, ∃ signal : Signal, signals[position]? = some signal ∧
        request = signal.request position := by
  simp only [requestsOf, List.mem_map, Prod.exists,
    List.mem_zipIdx_iff_getElem?]
  constructor
  · intro listed
    obtain ⟨signal, position, found, rfl⟩ := listed
    exact ⟨position, signal, found, rfl⟩
  · intro requested
    obtain ⟨position, signal, found, rfl⟩ := requested
    exact ⟨signal, position, found, rfl⟩

theorem requestsOf_priority {signals : List Signal}
    {request : ExecutionRequest} (member : request ∈ requestsOf signals) :
    request.priority = .high := by
  obtain ⟨position, signal, _, rfl⟩ := mem_requestsOf.mp member
  rfl

theorem orderIdAt_toNat {position : Nat} (small : position < 5) :
    (orderIdAt position).toNat = 1000 + position := by
  rw [orderIdAt, UInt64.toNat_ofNat']
  omega

theorem orderIdAt_inj {first second : Nat} (firstSmall : first < 5)
    (secondSmall : second < 5) (same : orderIdAt first = orderIdAt second) :
    first = second := by
  have equal := congrArg UInt64.toNat same
  rw [orderIdAt_toNat firstSmall, orderIdAt_toNat secondSmall] at equal
  omega

/-- The next order id is a new one. -/
theorem orderId_ne_next {signals : List Signal} {request : ExecutionRequest}
    (room : signals.length < 5) (member : request ∈ requestsOf signals) :
    request.orderId ≠ orderIdAt signals.length := by
  intro same
  obtain ⟨position, signal, found, rfl⟩ := mem_requestsOf.mp member
  have within := (List.getElem?_eq_some_iff.mp found).1
  have equal := orderIdAt_inj (by omega) room same
  omega

theorem requestsOf_ids_nodup {signals : List Signal}
    (few : signals.length ≤ 5) :
    ((requestsOf signals).map ExecutionRequest.orderId).Nodup := by
  induction signals using List.reverseRecOn with
  | nil => simp
  | append_singleton rest signal induction =>
      rw [List.length_append, List.length_singleton] at few
      rw [requestsOf_append, List.map_append, List.map_singleton,
        List.nodup_append]
      refine ⟨induction (by omega), List.nodup_singleton _, ?_⟩
      intro id earlier last final same
      obtain ⟨request, member, rfl⟩ := List.mem_map.mp earlier
      rw [List.mem_singleton.mp final] at same
      exact orderId_ne_next few member same

end TradingBot
