import TradingBot.OrderManager
import TradingBot.Risk.NetPosition
import Mathlib.Tactic.FieldSimp
import Mathlib.Tactic.Linarith

namespace TradingBot

/-! `getWinRate` against the round trips that a trade history consists of. -/

/-- `++` of an `int`; `none` where it overflows. -/
def increment (count : Int) : Option Int :=
  if count < 2 ^ 31 - 1 then some (count + 1) else none

namespace RiskManager

/-- The loop of `getWinRate`. -/
def countWins (winCount : Int) : List Trade → Option Int
  | [] => some winCount
  | trade :: rest =>
      if 0 < trade.price then do
        let winCount ← increment winCount
        countWins winCount rest
      else countWins winCount rest

/-- Everything it reads is in the `OrderManager`. -/
def getWinRate (orderManager : OrderManager) : Option Rat :=
  let trades := orderManager.getTradeHistory
  if trades = [] then some 0
  else do
    let winCount ← countWins 0 trades
    return winCount / trades.length * 100

/-- All trades have a positive price, so all count. -/
theorem countWins_of_priced {trades : List Trade}
    (priced : ∀ trade ∈ trades, 0 < trade.price) {winCount : Int}
    (bounded : winCount < 2 ^ 31) :
    countWins winCount trades =
      if winCount + trades.length < 2 ^ 31 then
        some (winCount + trades.length)
      else none := by
  induction trades generalizing winCount with
  | nil =>
      rw [countWins, List.length_nil, Nat.cast_zero, add_zero, if_pos bounded]
  | cons trade rest induction =>
      have own := priced trade List.mem_cons_self
      have others : ∀ other ∈ rest, 0 < other.price := fun other member =>
        priced other (List.mem_cons_of_mem _ member)
      rw [countWins, if_pos own, increment, List.length_cons]
      split
      next room =>
          rw [Option.bind_eq_bind, Option.bind_some,
            induction others (by omega)]
          push_cast
          rw [add_assoc, add_comm 1]
      next full =>
          rw [if_neg (by push_cast; omega)]
          rfl

/-- A history of priced trades has the win rate 100, whatever they earned. -/
theorem getWinRate_of_priced {orderManager : OrderManager}
    (traded : orderManager.getTradeHistory ≠ [])
    (priced : ∀ trade ∈ orderManager.getTradeHistory, 0 < trade.price) :
    getWinRate orderManager =
      if orderManager.getTradeHistory.length < 2 ^ 31 then some 100
      else none := by
  have counted : (orderManager.getTradeHistory.length : Rat) ≠ 0 :=
    Nat.cast_ne_zero.mpr (List.length_pos_iff.mpr traded).ne'
  rw [getWinRate, if_neg traded,
    countWins_of_priced priced (by norm_num), zero_add]
  split
  next short =>
      have within : orderManager.getTradeHistory.length < 2 ^ 31 := by
        exact_mod_cast short
      rw [if_pos within, Option.bind_eq_bind, Option.bind_some,
        Int.cast_natCast, div_self counted, one_mul]
      rfl
  next long =>
      have beyond : ¬ orderManager.getTradeHistory.length < 2 ^ 31 := by
        exact_mod_cast long
      rw [if_neg beyond]
      rfl

end RiskManager

/-- A purchase and the sale of what it bought. -/
structure RoundTrip where
  bought : Trade
  sold : Trade
  buys : bought.side = .buy
  sells : sold.side = .sell
  sameSymbol : sold.symbol = bought.symbol
  sameQuantity : sold.quantity = bought.quantity
  traded : 0 < bought.quantity
  buyPriced : 0 < bought.price
  sellPriced : 0 < sold.price

namespace RoundTrip

def Profitable (trip : RoundTrip) : Prop :=
  trip.bought.price < trip.sold.price

instance : DecidablePred Profitable := fun trip =>
  inferInstanceAs (Decidable (trip.bought.price < trip.sold.price))

def trades (trips : List RoundTrip) : List Trade :=
  trips.flatMap fun trip => [trip.bought, trip.sold]

/-- The percentage of the round trips that made a profit. -/
def winRate (trips : List RoundTrip) : Rat :=
  100 * trips.countP (fun trip => decide trip.Profitable) / trips.length

theorem length_trades (trips : List RoundTrip) :
    (trades trips).length = 2 * trips.length := by
  rw [trades, List.length_flatMap]
  simp [Nat.mul_comm]

theorem trades_priced (trips : List RoundTrip) :
    ∀ trade ∈ trades trips, 0 < trade.price := by
  intro trade member
  obtain ⟨trip, _, own⟩ := List.mem_flatMap.mp member
  rcases List.mem_pair.mp own with rfl | rfl
  · exact trip.buyPriced
  · exact trip.sellPriced

theorem winRate_eq_hundred_iff {trips : List RoundTrip}
    (nonempty : trips ≠ []) :
    winRate trips = 100 ↔ ∀ trip ∈ trips, trip.Profitable := by
  have counted : (trips.length : Rat) ≠ 0 :=
    Nat.cast_ne_zero.mpr (List.length_pos_iff.mpr nonempty).ne'
  rw [winRate, div_eq_iff counted, mul_right_inj' (by norm_num), Nat.cast_inj,
    List.countP_eq_length]
  simp only [decide_eq_true_eq]

/-- The win rate is the percentage of profitable round trips exactly if all of
them are profitable, and few enough for the counter. -/
theorem getWinRate_eq_winRate_iff (orderManager : OrderManager)
    (trips : List RoundTrip) (nonempty : trips ≠ [])
    (history : orderManager.getTradeHistory = trades trips) :
    RiskManager.getWinRate orderManager = some (winRate trips) ↔
      trips.length < 2 ^ 30 ∧ ∀ trip ∈ trips, trip.Profitable := by
  have traded : orderManager.getTradeHistory ≠ [] := by
    have some := List.length_pos_iff.mpr nonempty
    rw [history, ← List.length_pos_iff, length_trades]
    omega
  have short : orderManager.getTradeHistory.length < 2 ^ 31 ↔
      trips.length < 2 ^ 30 := by
    rw [history, length_trades]
    omega
  rw [RiskManager.getWinRate_of_priced traded
    (history ▸ trades_priced trips), ← winRate_eq_hundred_iff nonempty,
    Option.ite_none_right_eq_some, Option.some_inj, short,
    eq_comm (a := (100 : Rat))]

private def appleTrip (bought sold : Rat) (buyPriced : 0 < bought)
    (sellPriced : 0 < sold) : RoundTrip where
  bought := tradeOf "AAPL" .buy 100 bought
  sold := tradeOf "AAPL" .sell 100 sold
  buys := rfl
  sells := rfl
  sameSymbol := rfl
  sameQuantity := rfl
  traded := (by decide : (0 : UInt64) < 100)
  buyPriced := buyPriced
  sellPriced := sellPriced

private def recording (trips : List RoundTrip) : OrderManager :=
  (trades trips).foldl OrderManager.simulateTrade OrderManager.init

private def won : RoundTrip :=
  appleTrip 90 100 (by norm_num) (by norm_num)

private def lost : RoundTrip :=
  appleTrip 100 90 (by norm_num) (by norm_num)

theorem getWinRate_eq_winRate_iff_won_and_lost :
    RiskManager.getWinRate (recording [won, lost]) =
        some (winRate [won, lost]) ↔
      [won, lost].length < 2 ^ 30 ∧ ∀ trip ∈ [won, lost], trip.Profitable :=
  getWinRate_eq_winRate_iff (recording [won, lost]) [won, lost]
    (List.cons_ne_nil _ _) rfl

/-- Bought at 100 and sold at 90, the rate is 100 and not 0. -/
theorem losing_trip_counts_as_won :
    ¬ ∀ (orderManager : OrderManager) (trips : List RoundTrip), trips ≠ [] →
      orderManager.getTradeHistory = trades trips →
      RiskManager.getWinRate orderManager = some (winRate trips) := by
  intro always
  have rate := always (recording [lost]) [lost] (List.cons_ne_nil _ _) rfl
  revert rate
  decide +kernel

end RoundTrip

end TradingBot
