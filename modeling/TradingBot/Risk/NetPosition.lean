import TradingBot.RiskManager
import TradingBot.Library.Grouping
import Mathlib.Tactic.Ring
import Mathlib.Algebra.Order.BigOperators.Group.List

namespace TradingBot

open Library

/-! The position a sequence of trades leaves under each symbol, against the
signed sum of the trades. -/

def tradedQuantity : List Trade → String → Nat :=
  groupSum Trade.symbol fun trade => trade.quantity.toNat

def netQuantity : List Trade → String → Int :=
  groupSum Trade.symbol fun trade => trade.side.sign * trade.quantity.toNat

/-- What was traded in a symbol against one side. -/
def opposingQuantity (side : OrderSide) : List Trade → String → Nat :=
  groupSum Trade.symbol fun trade =>
    if trade.side = side then 0 else trade.quantity.toNat

def firstTrade (trades : List Trade) (symbol : String) : Option Trade :=
  trades.find? fun trade => decide (trade.symbol = symbol)

/-- No trade of the symbol with a quantity is on the other side than the
symbol's first trade. -/
def OneSided (trades : List Trade) (symbol : String) : Prop :=
  ∀ first ∈ firstTrade trades symbol, ∀ trade ∈ trades,
    trade.symbol = symbol → trade.side ≠ first.side → trade.quantity = 0

def tradeOf (symbol : String) (side : OrderSide) (quantity : UInt64)
    (price : Rat) : Trade where
  tradeId := 0
  orderId := 0
  symbol := symbol
  side := side
  price := price
  quantity := quantity
  executedAt := default
  totalCost := 0

theorem firstTrade_append (trades : List Trade) (trade : Trade)
    (symbol : String) :
    firstTrade (trades ++ [trade]) symbol =
      (firstTrade trades symbol).or
        (if trade.symbol = symbol then some trade else none) := by
  simp only [firstTrade, List.find?_append, List.find?_singleton,
    decide_eq_true_eq]

theorem tradedQuantity_append (trades : List Trade) (trade : Trade)
    (symbol : String) :
    tradedQuantity (trades ++ [trade]) symbol =
      tradedQuantity trades symbol +
        if trade.symbol = symbol then trade.quantity.toNat else 0 := by
  rw [tradedQuantity, groupSum_append, groupSum_singleton]

theorem tradedQuantity_le_total (trades : List Trade) (symbol : String) :
    tradedQuantity trades symbol ≤
      (trades.map fun trade => trade.quantity.toNat).sum :=
  (List.filter_sublist.map _).sum_le_sum fun _ _ => Nat.zero_le _

theorem groupSum_of_firstTrade_none [AddCommMonoid M] {value : Trade → M}
    {trades : List Trade} {symbol : String}
    (absent : firstTrade trades symbol = none) :
    groupSum Trade.symbol value trades symbol = 0 := by
  have none : trades.filter (fun trade => decide (trade.symbol = symbol)) = [] :=
    List.filter_eq_nil_iff.mpr (List.find?_eq_none.mp absent)
  simp [groupSum, none]

theorem firstTrade_of_mem {trades : List Trade} {trade : Trade}
    (member : trade ∈ trades) :
    ∃ first, firstTrade trades trade.symbol = some first := by
  rw [← Option.isSome_iff_exists, firstTrade, List.find?_isSome]
  exact ⟨trade, member, by simp⟩

theorem symbol_of_firstTrade {trades : List Trade} {symbol : String}
    {first : Trade} (found : firstTrade trades symbol = some first) :
    first ∈ trades ∧ first.symbol = symbol :=
  ⟨List.mem_of_find?_eq_some found, by simpa using List.find?_some found⟩

theorem netQuantity_eq (side : OrderSide) (trades : List Trade)
    (symbol : String) :
    netQuantity trades symbol =
      side.sign * (tradedQuantity trades symbol -
        2 * opposingQuantity side trades symbol) := by
  induction trades with
  | nil => simp [netQuantity, tradedQuantity, opposingQuantity]
  | cons trade rest induction =>
      simp only [netQuantity, tradedQuantity, opposingQuantity,
        groupSum_cons] at induction ⊢
      rw [induction]
      split
      next =>
          split
          next same =>
              rw [same]
              push_cast
              ring
          next differ =>
              rw [OrderSide.sign_of_ne differ]
              push_cast
              ring
      next =>
          push_cast
          ring

theorem opposingQuantity_eq_zero {side : OrderSide} {trades : List Trade}
    {symbol : String} :
    opposingQuantity side trades symbol = 0 ↔
      ∀ trade ∈ trades, trade.symbol = symbol → trade.side ≠ side →
        trade.quantity = 0 := by
  rw [opposingQuantity, groupSum, List.sum_eq_zero_iff]
  constructor
  · intro zero trade member same differ
    have none := zero _ (List.mem_map.mpr ⟨trade, by simp [member, same], rfl⟩)
    simpa [differ, ← UInt64.toNat_inj] using none
  · intro zero amount member
    obtain ⟨trade, counted, rfl⟩ := List.mem_map.mp member
    simp only [List.mem_filter, decide_eq_true_eq] at counted
    split
    next => rfl
    next differ => simp [zero trade counted.1 counted.2 differ]

namespace RiskManager

/-- The open position the code keeps for trades of one symbol: side and price
are the first trade's, the quantity is everything traded, modulo 2^64. -/
structure Books (first : Trade) (traded : Nat) (position : Position) :
    Prop where
  side : position.side = first.side
  avgEntryPrice : position.avgEntryPrice = first.price
  status : position.status = .opened
  quantity : position.quantity.toNat = traded % 2 ^ 64

def KeepsBooks (manager : RiskManager) (trades : List Trade) : Prop :=
  ∀ symbol : String,
    Option.Rel (fun first => Books first (tradedQuantity trades symbol))
      (firstTrade trades symbol) manager.positions[symbol]?

theorem keepsBooks_init : init.KeepsBooks [] :=
  fun _ => by simp [init, firstTrade]

theorem KeepsBooks.updatePosition {manager : RiskManager}
    {trades : List Trade} (books : manager.KeepsBooks trades) (trade : Trade)
    (contents : Uninitialized) :
    (manager.updatePosition trade contents).KeepsBooks (trades ++ [trade]) := by
  intro symbol
  rw [updatePosition_positions, firstTrade_append, tradedQuantity_append]
  have kept := books symbol
  rcases eq_or_ne symbol trade.symbol with rfl | differ
  · generalize manager.positions[trade.symbol]? = held at kept ⊢
    cases earlier : firstTrade trades trade.symbol with
    | none =>
        have untraded : tradedQuantity trades trade.symbol = 0 :=
          groupSum_of_firstTrade_none earlier
        rw [earlier] at kept
        cases kept
        simp only [if_true, Option.none_or, untraded, Nat.zero_add]
        exact .some
          { side := rfl
            avgEntryPrice := rfl
            status := rfl
            quantity := (Nat.mod_eq_of_lt trade.quantity.toNat_lt).symm }
    | some first =>
        rw [earlier] at kept
        obtain ⟨kept⟩ := kept
        simp only [if_true, Option.some_or]
        exact .some
          { side := kept.side
            avgEntryPrice := kept.avgEntryPrice
            status := kept.status
            quantity := by
              simp only [enlargedPosition, UInt64.toNat_add, kept.quantity,
                Nat.mod_add_mod] }
  · simpa [differ, differ.symm] using kept

theorem KeepsBooks.updateMarketPrice {manager : RiskManager}
    {trades : List Trade} (books : manager.KeepsBooks trades) (symbol : String)
    (price : Rat) : (manager.updateMarketPrice symbol price).KeepsBooks trades := by
  intro key
  rw [updateMarketPrice_positions]
  have kept := books key
  generalize manager.positions[key]? = held at kept ⊢
  generalize firstTrade trades key = first at kept ⊢
  cases kept with
  | none => exact .none
  | some kept =>
      refine .some ?_
      split
      · exact ⟨kept.side, kept.avgEntryPrice, kept.status, kept.quantity⟩
      · exact kept

theorem KeepsBooks.apply {manager : RiskManager} {trades : List Trade}
    (books : manager.KeepsBooks trades) {call : RiskCall}
    (trading : call.Trading) :
    (call.apply manager).KeepsBooks (trades ++ call.trade?.toList) := by
  cases call with
  | updatePosition trade contents => exact books.updatePosition trade contents
  | updateMarketPrice symbol price =>
      simpa [RiskCall.trade?, RiskCall.apply] using
        books.updateMarketPrice symbol price
  | closePosition symbol => exact trading.elim
  | setRiskLimits limits => exact trading.elim

theorem KeepsBooks.run {manager : RiskManager} {trades : List Trade}
    (books : manager.KeepsBooks trades) {calls : List RiskCall}
    (trading : ∀ call ∈ calls, call.Trading) :
    (manager.run calls).KeepsBooks (trades ++ RiskCall.trades calls) := by
  induction calls generalizing manager trades with
  | nil => simpa [RiskCall.trades] using books
  | cons call rest induction =>
      rw [RiskCall.trades, ← List.append_assoc]
      exact induction (books.apply (trading call List.mem_cons_self))
        fun other member => trading other (List.mem_cons_of_mem _ member)

theorem KeepsBooks.symbol_traded {manager : RiskManager}
    {trades : List Trade} (books : manager.KeepsBooks trades)
    {symbol : String} {position : Position}
    (held : manager.positions[symbol]? = some position) :
    ∃ trade ∈ trades, trade.symbol = symbol := by
  have kept := books symbol
  cases earlier : firstTrade trades symbol with
  | none =>
      rw [held, earlier] at kept
      cases kept
  | some first => exact ⟨first, symbol_of_firstTrade earlier⟩

theorem KeepsBooks.held_of_mem {manager : RiskManager}
    {trades : List Trade} (books : manager.KeepsBooks trades)
    {trade : Trade} (member : trade ∈ trades) :
    ∃ position, manager.positions[trade.symbol]? = some position := by
  obtain ⟨first, earlier⟩ := firstTrade_of_mem member
  have kept := books trade.symbol
  cases held : manager.positions[trade.symbol]? with
  | none =>
      rw [held, earlier] at kept
      cases kept
  | some position => exact ⟨position, rfl⟩

/-- The signed position stored for a symbol, 0 when absent. -/
def signedPosition (manager : RiskManager) (symbol : String) : Int :=
  match manager.getPosition symbol with
  | none => 0
  | some position => position.side.sign * position.quantity.toNat

/-- `updatePosition` for each trade, the memory it finds being arbitrary. -/
def bookings (booked : List (Trade × Uninitialized)) : List RiskCall :=
  booked.map fun entry => .updatePosition entry.1 entry.2

theorem trades_bookings (booked : List (Trade × Uninitialized)) :
    RiskCall.trades (bookings booked) = booked.map Prod.fst := by
  induction booked with
  | nil => rfl
  | cons entry rest induction =>
      rw [List.map_cons, ← induction]
      rfl

theorem bookings_trading (booked : List (Trade × Uninitialized)) :
    ∀ call ∈ bookings booked, call.Trading := by
  intro call member
  obtain ⟨entry, _, rfl⟩ := List.mem_map.mp member
  trivial

/-- The stored position of a symbol is its net traded quantity exactly if all
its trades are on the side of its first one. -/
theorem signedPosition_eq_net_iff (booked : List (Trade × Uninitialized))
    (bounded :
      (booked.map fun entry => entry.1.quantity.toNat).sum < 2 ^ 64)
    (symbol : String) :
    (init.run (bookings booked)).signedPosition symbol =
        netQuantity (booked.map Prod.fst) symbol ↔
      OneSided (booked.map Prod.fst) symbol := by
  have kept := (keepsBooks_init.run (bookings_trading booked)) symbol
  rw [List.nil_append, trades_bookings] at kept
  generalize trades_eq : booked.map Prod.fst = trades at kept ⊢
  have bounded : tradedQuantity trades symbol < 2 ^ 64 := by
    refine Nat.lt_of_le_of_lt (tradedQuantity_le_total trades symbol) ?_
    simpa [← trades_eq, Function.comp_def] using bounded
  rw [signedPosition, getPosition]
  generalize (init.run (bookings booked)).positions[symbol]? = held at kept ⊢
  cases earlier : firstTrade trades symbol with
  | none =>
      rw [earlier] at kept
      cases kept
      simp [OneSided, earlier, netQuantity, groupSum_of_firstTrade_none earlier]
  | some first =>
      rw [earlier] at kept
      obtain ⟨kept⟩ := kept
      dsimp only
      rw [kept.side, kept.quantity, Nat.mod_eq_of_lt bounded,
        netQuantity_eq first.side, mul_right_inj' first.side.sign_ne_zero]
      calc
        _ ↔ opposingQuantity first.side trades symbol = 0 := by omega
        _ ↔ _ := by
          rw [opposingQuantity_eq_zero]
          simp [OneSided, earlier]

def untouched : Uninitialized :=
  { currentPrice := 0, unrealizedPnL := 0, realizedPnL := 0 }

theorem signedPosition_eq_net_iff_two_buys :
    (init.run (bookings
        [(tradeOf "AAPL" .buy 100 90, untouched),
          (tradeOf "AAPL" .buy 50 91, untouched)])).signedPosition "AAPL" =
        netQuantity
          [tradeOf "AAPL" .buy 100 90, tradeOf "AAPL" .buy 50 91] "AAPL" ↔
      OneSided [tradeOf "AAPL" .buy 100 90, tradeOf "AAPL" .buy 50 91] "AAPL" :=
  signedPosition_eq_net_iff
    [(tradeOf "AAPL" .buy 100 90, untouched),
      (tradeOf "AAPL" .buy 50 91, untouched)] (by decide) "AAPL"

theorem round_trip_is_not_flat :
    (init.run (bookings
        [(tradeOf "AAPL" .buy 100 90, untouched),
          (tradeOf "AAPL" .sell 100 91, untouched)])).signedPosition "AAPL" ≠
      netQuantity
        [tradeOf "AAPL" .buy 100 90, tradeOf "AAPL" .sell 100 91] "AAPL" := by
  decide +kernel

end RiskManager

end TradingBot
