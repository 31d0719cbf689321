import TradingBot.Signals
import TradingBot.Library.Trace

namespace TradingBot

open Library

/-! Several `DemoStrategyListener` objects: each has its own `tradeCount`, and
all of them share the function-local `static double lastPrice`. -/

structure StrategyListeners where
  lastPrice : Rat
  tradeCount : ListenerId → Nat

/-- A call of `onTick` on one of the listeners. -/
structure TickCall where
  listener : ListenerId
  tick : MarketTick
  deriving DecidableEq

/-- The symbol, side, price and quantity of an order. -/
def Order.placed (order : Order) : String × OrderSide × Rat × UInt64 :=
  (order.symbol, order.side, order.price, order.quantity)

namespace StrategyListeners

def init : StrategyListeners where
  lastPrice := 0
  tradeCount := fun _ => 0

/-- What `onTick` reads through one of the listeners. -/
def view (listeners : StrategyListeners) (listener : ListenerId) :
    DemoStrategyListener where
  lastPrice := listeners.lastPrice
  tradeCount := listeners.tradeCount listener

def onTick (listeners : StrategyListeners) (call : TickCall) :
    StrategyListeners :=
  let after := (listeners.view call.listener).afterTick call.tick
  { lastPrice := after.lastPrice
    tradeCount := fun listener =>
      if listener = call.listener then after.tradeCount
      else listeners.tradeCount listener }

def after (calls : List TickCall) : StrategyListeners :=
  calls.foldl onTick init

theorem after_concat (calls : List TickCall) (call : TickCall) :
    after (calls ++ [call]) = (after calls).onTick call :=
  List.foldl_append

/-- The order that one listener places in a call, if any. -/
def orderIn (listener : ListenerId) (earlier : List TickCall)
    (call : TickCall) : Option Order :=
  if call.listener = listener then
    ((after earlier).view listener).signal call.tick
  else none

/-- The orders of one listener in a run of calls. -/
def orders (listener : ListenerId) :
    List TickCall → List (String × OrderSide × Rat × UInt64) :=
  eachAfter fun earlier call =>
    ((orderIn listener earlier call).map Order.placed).toList

end StrategyListeners

def without (other : ListenerId) (calls : List TickCall) : List TickCall :=
  calls.filter fun call => decide (call.listener ≠ other)

/-- The price of the last call. -/
def referencePrice (calls : List TickCall) : Rat :=
  (calls.getLast?.map fun call => call.tick.lastPrice).getD 0

/-- The side that a price signals against a reference price. -/
def signalledSide (reference price : Rat) : Option OrderSide :=
  if 0 < reference then
    if 1 / 10 < price - reference then some .buy
    else if price - reference < -(1 / 10) then some .sell
    else none
  else none

def MarketTick.signalPrice (tick : MarketTick) : OrderSide → Rat
  | .buy => tick.bid
  | .sell => tick.ask

theorem DemoStrategyListener.signal_eq (listener : DemoStrategyListener)
    (tick : MarketTick) :
    listener.signal tick =
      if listener.tradeCount < maxTrades then
        (signalledSide listener.lastPrice tick.lastPrice).map fun side =>
          signalOrder tick.symbol side (tick.signalPrice side)
      else none := by
  unfold signal signalledSide
  by_cases priced : 0 < listener.lastPrice
  · by_cases counted : listener.tradeCount < maxTrades
    · simp only [priced, counted, and_self, if_true]
      split
      · rfl
      · split <;> rfl
    · simp only [counted, and_false, if_false]
  · simp only [priced, false_and, if_false, Option.map_none, ite_self]

namespace StrategyListeners

theorem after_lastPrice (calls : List TickCall) :
    (after calls).lastPrice = referencePrice calls := by
  induction calls using List.reverseRecOn with
  | nil => rfl
  | append_singleton calls call _ =>
      rw [after_concat, referencePrice, List.getLast?_concat]
      rfl

theorem orders_concat (listener : ListenerId) (calls : List TickCall)
    (call : TickCall) :
    orders listener (calls ++ [call]) =
      orders listener calls ++
        ((orderIn listener calls call).map Order.placed).toList :=
  eachAfter_concat ..

/-- The member `tradeCount` counts the listener's own orders. -/
theorem after_tradeCount (listener : ListenerId) (calls : List TickCall) :
    (after calls).tradeCount listener = (orders listener calls).length := by
  induction calls using List.reverseRecOn with
  | nil => rfl
  | append_singleton calls call induction =>
      rw [after_concat, orders_concat, List.length_append, ← induction, onTick,
        orderIn]
      rcases eq_or_ne call.listener listener with rfl | differ
      · simp only [if_true, DemoStrategyListener.afterTick]
        cases ((after calls).view call.listener).signal call.tick <;> rfl
      · simp [differ, differ.symm]

/-- The order of a call, from the reference price and the orders so far. -/
theorem orderIn_eq (listener : ListenerId) (earlier : List TickCall)
    (call : TickCall) :
    orderIn listener earlier call =
      if call.listener = listener ∧
          (orders listener earlier).length < DemoStrategyListener.maxTrades then
        (signalledSide (referencePrice earlier) call.tick.lastPrice).map
          fun side =>
            signalOrder call.tick.symbol side (call.tick.signalPrice side)
      else none := by
  rw [orderIn, DemoStrategyListener.signal_eq, ← after_lastPrice,
    ← after_tradeCount]
  by_cases own : call.listener = listener
  · simp only [own, true_and, if_true]
    rfl
  · simp only [own, if_false, false_and]

/-- The other listener's calls leave the orders of this one alone. -/
def Unaffected (listener other : ListenerId) (calls : List TickCall) : Prop :=
  orders listener calls = orders listener (without other calls)

/-- In a call of this listener, it has placed its five orders, or the last
price of all listeners and that of all but the other signal the same side. -/
def SameReference (listener other : ListenerId) (earlier : List TickCall)
    (call : TickCall) : Prop :=
  call.listener = listener →
    DemoStrategyListener.maxTrades ≤ (orders listener earlier).length ∨
      signalledSide (referencePrice earlier) call.tick.lastPrice =
        signalledSide (referencePrice (without other earlier))
          call.tick.lastPrice

theorem without_concat (other : ListenerId) (calls : List TickCall)
    (call : TickCall) :
    without other (calls ++ [call]) =
      without other calls ++ if call.listener ≠ other then [call] else [] := by
  rw [without, List.filter_append, without]
  by_cases same : call.listener = other <;> simp [same]

theorem placed_inj {tick : MarketTick} {side other : OrderSide} :
    (signalOrder tick.symbol side (tick.signalPrice side)).placed =
        (signalOrder tick.symbol other (tick.signalPrice other)).placed ↔
      side = other := by
  constructor
  · intro same
    exact congrArg (fun placed => placed.2.1) same
  · intro same
    rw [same]

theorem unaffected_concat {listener other : ListenerId}
    (apart : listener ≠ other) {earlier : List TickCall} {call : TickCall}
    (unaffected : Unaffected listener other earlier) :
    Unaffected listener other (earlier ++ [call]) ↔
      SameReference listener other earlier call := by
  rw [Unaffected, without_concat]
  rcases eq_or_ne call.listener listener with own | foreign
  · have kept : call.listener ≠ other := own ▸ apart
    rw [if_pos kept, orders_concat, orders_concat, ← unaffected,
      List.append_cancel_left_eq, orderIn_eq, orderIn_eq, ← unaffected]
    simp only [own, true_and, SameReference, true_implies]
    by_cases counted : (orders listener earlier).length <
        DemoStrategyListener.maxTrades
    · rw [if_pos counted, if_pos counted, or_iff_right (Nat.not_le.mpr counted)]
      generalize signalledSide (referencePrice earlier) call.tick.lastPrice = side
      generalize signalledSide (referencePrice (without other earlier))
        call.tick.lastPrice = alone
      cases side <;> cases alone <;> simp [placed_inj]
    · simp [counted, Nat.not_lt.mp counted]
  · refine iff_of_true ?_ fun own => absurd own foreign
    rw [orders_concat, orderIn_eq, if_neg fun own => foreign own.1]
    split
    next =>
        rw [orders_concat, orderIn_eq, if_neg fun own => foreign own.1]
        simpa [Unaffected] using unaffected
    next => simpa [Unaffected] using unaffected

/-- The listener's orders never depend on the other's calls exactly if the
shared reference price signals the same side in each of its calls. -/
theorem listeners_interfere_iff {listener other : ListenerId}
    (apart : listener ≠ other) (calls : List TickCall) :
    EveryPrefix (Unaffected listener other) calls ↔
      EveryEntry (SameReference listener other) calls := by
  have start : Unaffected listener other [] := rfl
  exact everyPrefix_iff start (fun _ _ => unaffected_concat apart) calls

/-- The other listener's price of 200 turns an unchanged price of 100 into a
sell signal. -/
private def crossedCalls : List TickCall :=
  [{ listener := 0, tick := simulatedTick 100 },
    { listener := 1, tick := simulatedTick 200 },
    { listener := 0, tick := simulatedTick 100 }]

theorem listeners_interfere_iff_crossed :
    EveryPrefix (Unaffected 0 1) crossedCalls ↔
      EveryEntry (SameReference 0 1) crossedCalls :=
  listeners_interfere_iff (by decide) crossedCalls

theorem other_instrument_becomes_the_reference :
    ¬ ∀ (listener other : ListenerId) (calls : List TickCall),
      listener ≠ other →
      orders listener calls = orders listener (without other calls) := by
  intro alone
  have same := alone 0 1 crossedCalls (by decide)
  revert same
  decide +kernel

end StrategyListeners

end TradingBot
