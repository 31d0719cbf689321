import TradingBot.Data
import TradingBot.Library.OrderedMap
import Mathlib.Algebra.Order.Ring.Rat

namespace TradingBot

/-! `risk_manager.cpp`.  Every operation holds `positionMutex` or `pnlMutex`
throughout.  Comparisons of a quantity with a `double` limit are exact. -/

structure RiskLimits where
  maxPositionSize : Rat
  maxLossPerTrade : Rat
  maxDailyLoss : Rat
  maxLeverage : Rat
  maxOrderSize : UInt64
  maxExposure : Rat
  deriving DecidableEq

/-- The contents of the members that `Position pos;` leaves unassigned. -/
structure Uninitialized where
  currentPrice : Rat
  unrealizedPnL : Rat
  realizedPnL : Rat
  deriving DecidableEq

structure RiskManager where
  limits : RiskLimits
  positions : Std.ExtTreeMap String Position
  totalRealizedPnL : Rat
  totalBalance : Rat
  maxDrawdownValue : Rat

namespace RiskManager

/-- `RiskManager::RiskManager`, whose limits `main` sets once more. -/
def init : RiskManager where
  limits :=
    { maxPositionSize := 10000, maxLossPerTrade := 500, maxDailyLoss := 2000,
      maxLeverage := 2, maxOrderSize := 1000, maxExposure := 50000 }
  positions := ∅
  totalRealizedPnL := 0
  totalBalance := 100000
  maxDrawdownValue := 0

def setRiskLimits (manager : RiskManager) (limits : RiskLimits) : RiskManager :=
  { manager with limits }

def openedPosition (trade : Trade) (contents : Uninitialized) : Position where
  symbol := trade.symbol
  side := trade.side
  quantity := trade.quantity
  avgEntryPrice := trade.price
  currentPrice := contents.currentPrice
  status := .opened
  openedAt := default
  closedAt := default
  unrealizedPnL := contents.unrealizedPnL
  realizedPnL := contents.realizedPnL

/-- A later trade only adds its quantity, whatever its side and price. -/
def enlargedPosition (position : Position) (trade : Trade) : Position :=
  { position with quantity := position.quantity + trade.quantity }

def updatePosition (manager : RiskManager) (trade : Trade)
    (contents : Uninitialized) : RiskManager :=
  match manager.positions[trade.symbol]? with
  | none =>
      { manager with
        positions := manager.positions.insert trade.symbol
          (openedPosition trade contents) }
  | some position =>
      { manager with
        positions := manager.positions.insert trade.symbol
          (enlargedPosition position trade) }

def closePosition (manager : RiskManager) (symbol : String) : RiskManager :=
  match manager.positions[symbol]? with
  | none => manager
  | some position =>
      { manager with
        positions :=
          manager.positions.insert symbol { position with status := .closed } }

/-- `none` stands for the value-initialised `Position()`, whose side is no
enumerator. -/
def getPosition (manager : RiskManager) (symbol : String) : Option Position :=
  manager.positions[symbol]?

def getRealizedPnL (manager : RiskManager) : Rat :=
  manager.totalRealizedPnL

def getUnrealizedPnL (manager : RiskManager) : Rat :=
  (manager.positions.toList.map fun entry =>
    if entry.2.status = .opened then entry.2.unrealizedPnL else 0).sum

def getTotalPnL (manager : RiskManager) : Rat :=
  manager.getRealizedPnL + manager.getUnrealizedPnL

def canOpenPosition (manager : RiskManager) (symbol : String)
    (quantity : UInt64) : Bool :=
  if manager.limits.maxPositionSize < quantity.toNat then false
  else
    let held := ((manager.getPosition symbol).map Position.quantity).getD 0
    if manager.limits.maxPositionSize < (held + quantity).toNat then false
    else true

def canPlaceOrder (manager : RiskManager) (order : Order) : Bool :=
  if manager.limits.maxOrderSize < order.quantity then false else true

def markedPosition (position : Position) (price : Rat) : Position :=
  { position with
    currentPrice := price
    unrealizedPnL :=
      match position.side with
      | .buy => (price - position.avgEntryPrice) * position.quantity.toNat
      | .sell => (position.avgEntryPrice - price) * position.quantity.toNat }

def updateMarketPrice (manager : RiskManager) (symbol : String) (price : Rat) :
    RiskManager :=
  match manager.positions[symbol]? with
  | none => manager
  | some position =>
      { manager with
        positions :=
          manager.positions.insert symbol (markedPosition position price) }

end RiskManager

inductive RiskCall where
  | updatePosition (trade : Trade) (contents : Uninitialized)
  | updateMarketPrice (symbol : String) (price : Rat)
  | closePosition (symbol : String)
  | setRiskLimits (limits : RiskLimits)

namespace RiskCall

def apply (manager : RiskManager) : RiskCall → RiskManager
  | .updatePosition trade contents => manager.updatePosition trade contents
  | .updateMarketPrice symbol price => manager.updateMarketPrice symbol price
  | .closePosition symbol => manager.closePosition symbol
  | .setRiskLimits limits => manager.setRiskLimits limits

def trade? : RiskCall → Option Trade
  | .updatePosition trade _ => some trade
  | _ => none

def trades : List RiskCall → List Trade
  | [] => []
  | call :: rest => call.trade?.toList ++ trades rest

theorem trades_append (first second : List RiskCall) :
    trades (first ++ second) = trades first ++ trades second := by
  induction first with
  | nil => rfl
  | cons call rest induction =>
      rw [List.cons_append, trades, trades, induction, List.append_assoc]

def Trading : RiskCall → Prop
  | .updatePosition _ _ => True
  | .updateMarketPrice _ _ => True
  | _ => False

instance : DecidablePred Trading
  | .updatePosition _ _ | .updateMarketPrice _ _ =>
      inferInstanceAs (Decidable True)
  | .closePosition _ | .setRiskLimits _ => inferInstanceAs (Decidable False)

end RiskCall

namespace RiskManager

def run (manager : RiskManager) (calls : List RiskCall) : RiskManager :=
  calls.foldl RiskCall.apply manager

variable (manager : RiskManager)

@[simp] theorem run_nil : manager.run [] = manager := rfl

@[simp] theorem run_cons (call : RiskCall) (rest : List RiskCall) :
    manager.run (call :: rest) = (call.apply manager).run rest := rfl

theorem run_append (first second : List RiskCall) :
    manager.run (first ++ second) = (manager.run first).run second :=
  List.foldl_append

theorem run_concat (calls : List RiskCall) (call : RiskCall) :
    manager.run (calls ++ [call]) = call.apply (manager.run calls) :=
  run_append ..

theorem run_preserves (invariant : RiskManager → Prop) {calls : List RiskCall}
    (start : invariant manager)
    (preserved : ∀ call ∈ calls, ∀ earlier, invariant earlier →
      invariant (call.apply earlier)) : invariant (manager.run calls) :=
  List.foldlRecOn calls RiskCall.apply start fun earlier holds call member =>
    preserved call member earlier holds

theorem canOpenPosition_eq_true {symbol : String} {quantity : UInt64} :
    manager.canOpenPosition symbol quantity = true ↔
      (quantity.toNat : Rat) ≤ manager.limits.maxPositionSize ∧
        (((((manager.positions[symbol]?).map Position.quantity).getD 0 +
          quantity).toNat : Nat) : Rat) ≤ manager.limits.maxPositionSize := by
  simp [canOpenPosition, getPosition]

theorem updatePosition_positions (trade : Trade) (contents : Uninitialized)
    (key : String) :
    (manager.updatePosition trade contents).positions[key]? =
      if key = trade.symbol then
        match manager.positions[key]? with
        | none => some (openedPosition trade contents)
        | some position => some (enlargedPosition position trade)
      else manager.positions[key]? := by
  unfold updatePosition
  split
  next absent =>
      rw [Library.getElem?_insert_eq_ite]
      split
      next same => rw [same, absent]
      next => rfl
  next position found =>
      rw [Library.getElem?_insert_eq_ite]
      split
      next same => rw [same, found]
      next => rfl

theorem updateMarketPrice_positions (symbol key : String) (price : Rat) :
    (manager.updateMarketPrice symbol price).positions[key]? =
      (manager.positions[key]?).map fun position =>
        if key = symbol then markedPosition position price else position := by
  refine Library.getElem?_of_changed (fun absent => ?_)
    (fun position found => ?_) key
  · rw [updateMarketPrice, absent]
  · rw [updateMarketPrice, found]

theorem closePosition_positions (symbol key : String) :
    (manager.closePosition symbol).positions[key]? =
      (manager.positions[key]?).map fun position =>
        if key = symbol then { position with status := .closed }
        else position := by
  refine Library.getElem?_of_changed (fun absent => ?_)
    (fun position found => ?_) key
  · rw [closePosition, absent]
  · rw [closePosition, found]

/-- A symbol is stored once it was, or by a trade of it. -/
theorem stored_apply (call : RiskCall) (symbol : String) :
    ((call.apply manager).positions[symbol]?).isSome = true ↔
      (manager.positions[symbol]?).isSome = true ∨
        ∃ trade ∈ call.trade?, trade.symbol = symbol := by
  cases call with
  | updatePosition trade contents =>
      rw [RiskCall.apply, updatePosition_positions]
      rcases eq_or_ne symbol trade.symbol with same | differ
      · cases manager.positions[symbol]? <;> simp [same, RiskCall.trade?]
      · simp [differ, differ.symm, RiskCall.trade?]
  | updateMarketPrice key price =>
      simp [RiskCall.apply, updateMarketPrice_positions, RiskCall.trade?]
  | closePosition key =>
      simp [RiskCall.apply, closePosition_positions, RiskCall.trade?]
  | setRiskLimits limits => simp [RiskCall.apply, setRiskLimits, RiskCall.trade?]

@[simp] theorem updatePosition_limits (trade : Trade)
    (contents : Uninitialized) :
    (manager.updatePosition trade contents).limits = manager.limits := by
  unfold updatePosition
  split <;> rfl

@[simp] theorem updateMarketPrice_limits (symbol : String) (price : Rat) :
    (manager.updateMarketPrice symbol price).limits = manager.limits := by
  unfold updateMarketPrice
  split <;> rfl

@[simp] theorem closePosition_limits (symbol : String) :
    (manager.closePosition symbol).limits = manager.limits := by
  unfold closePosition
  split <;> rfl

@[simp] theorem updatePosition_realized (trade : Trade)
    (contents : Uninitialized) :
    (manager.updatePosition trade contents).totalRealizedPnL =
      manager.totalRealizedPnL := by
  unfold updatePosition
  split <;> rfl

@[simp] theorem updateMarketPrice_realized (symbol : String) (price : Rat) :
    (manager.updateMarketPrice symbol price).totalRealizedPnL =
      manager.totalRealizedPnL := by
  unfold updateMarketPrice
  split <;> rfl

@[simp] theorem closePosition_realized (symbol : String) :
    (manager.closePosition symbol).totalRealizedPnL =
      manager.totalRealizedPnL := by
  unfold closePosition
  split <;> rfl

@[simp] theorem run_realized (calls : List RiskCall) :
    (manager.run calls).totalRealizedPnL = manager.totalRealizedPnL := by
  apply manager.run_preserves fun later =>
    later.totalRealizedPnL = manager.totalRealizedPnL
  · rfl
  · intro call _ earlier kept
    rw [← kept]
    cases call with
    | updatePosition trade contents => exact updatePosition_realized ..
    | updateMarketPrice symbol price => exact updateMarketPrice_realized ..
    | closePosition symbol => exact closePosition_realized ..
    | setRiskLimits limits => rfl

theorem run_limits {calls : List RiskCall}
    (trading : ∀ call ∈ calls, call.Trading) :
    (manager.run calls).limits = manager.limits := by
  apply manager.run_preserves fun later => later.limits = manager.limits
  · rfl
  · intro call member earlier kept
    have now := trading call member
    rw [← kept]
    cases call with
    | updatePosition trade contents => exact updatePosition_limits ..
    | updateMarketPrice symbol price => exact updateMarketPrice_limits ..
    | closePosition symbol => exact now.elim
    | setRiskLimits limits => exact now.elim

theorem markedPosition_unrealizedPnL (position : Position) (price : Rat) :
    (markedPosition position price).unrealizedPnL =
      position.side.sign * (price - position.avgEntryPrice) *
        position.quantity.toNat := by
  unfold markedPosition
  cases position.side <;> simp

end RiskManager

end TradingBot
