import TradingBot.Risk.NetPosition
import Mathlib.Algebra.BigOperators.Ring.List
import Mathlib.Algebra.BigOperators.Ring.Finset

namespace TradingBot

open Library

/-! Total profit and loss against marking every trade to market. -/

/-- Every trade valued at its symbol's final price. -/
def markToMarket (trades : List Trade) (price : String → Rat) : Rat :=
  (trades.map fun trade =>
    trade.side.sign * trade.quantity.toNat *
      (price trade.symbol - trade.price)).sum

/-- What valuing one unit of a trade at the side and price of its symbol's
first trade gets wrong: the price difference for a trade on the same side, and
both gains for a trade on the other side. -/
def misstatement (first trade : Trade) (price : Rat) : Rat :=
  if trade.side = first.side then
    first.side.sign * (trade.price - first.price)
  else first.side.sign * (2 * price - first.price - trade.price)

def misvaluation (trades : List Trade) (price : String → Rat) (trade : Trade) :
    Rat :=
  match firstTrade trades trade.symbol with
  | none => 0
  | some first =>
      trade.quantity.toNat * misstatement first trade (price trade.symbol)

/-- The misstatements of all trades.  A first trade has none. -/
def totalMisstatement (trades : List Trade) (price : String → Rat) : Rat :=
  (trades.map (misvaluation trades price)).sum

def closingPrices (symbols : List String) (price : String → Rat) :
    List RiskCall :=
  symbols.map fun symbol => .updateMarketPrice symbol (price symbol)

theorem misstatement_eq (first trade : Trade) (price : Rat) :
    misstatement first trade price =
      first.side.sign * (price - first.price) -
        trade.side.sign * (price - trade.price) := by
  unfold misstatement
  split
  next same =>
      rw [same]
      ring
  next differ =>
      rw [OrderSide.sign_of_ne differ]
      push_cast
      ring

namespace RiskManager

/-- The value the code gives a trade once its symbol is marked. -/
private def bookedValue (trades : List Trade) (price : String → Rat)
    (trade : Trade) : Rat :=
  match firstTrade trades trade.symbol with
  | none => 0
  | some first =>
      first.side.sign * (price trade.symbol - first.price) *
        trade.quantity.toNat

private def Marked (price : String → Rat) (symbols : List String)
    (manager : RiskManager) : Prop :=
  ∀ symbol ∈ symbols, ∀ position, manager.positions[symbol]? = some position →
    position.unrealizedPnL =
      position.side.sign * (price symbol - position.avgEntryPrice) *
        position.quantity.toNat

private theorem Marked.updateMarketPrice {price : String → Rat}
    {symbols : List String} {manager : RiskManager}
    (marked : Marked price symbols manager) (symbol : String) :
    Marked price (symbol :: symbols)
      (manager.updateMarketPrice symbol (price symbol)) := by
  intro key member position found
  rw [updateMarketPrice_positions] at found
  obtain ⟨previous, stored, rfl⟩ := Option.map_eq_some_iff.mp found
  split
  next same =>
      subst same
      rw [markedPosition_unrealizedPnL]
      rfl
  next other =>
      rcases List.mem_cons.mp member with same | member
      · exact absurd same other
      · exact marked key member previous stored

private theorem marked_closingPrices {price : String → Rat}
    (symbols : List String) {done : List String} {manager : RiskManager}
    (marked : Marked price done manager) :
    Marked price (symbols ++ done)
      (manager.run (closingPrices symbols price)) := by
  induction symbols generalizing done manager with
  | nil => exact marked
  | cons symbol rest induction =>
      have tail := induction (marked.updateMarketPrice symbol)
      intro key member
      refine tail key ?_
      simpa [or_left_comm, or_assoc] using member

private theorem groupSum_bookedValue {trades : List Trade}
    {price : String → Rat} {symbol : String} {first : Trade}
    (found : firstTrade trades symbol = some first) :
    groupSum Trade.symbol (bookedValue trades price) trades symbol =
      first.side.sign * (price symbol - first.price) *
        tradedQuantity trades symbol := by
  have booked : groupSum Trade.symbol (bookedValue trades price) trades symbol =
      groupSum Trade.symbol (fun trade : Trade =>
        (first.side.sign * (price symbol - first.price) : Rat) *
          trade.quantity.toNat) trades symbol := by
    apply groupSum_congr
    intro trade _ same
    subst same
    simp [bookedValue, found]
  rw [booked, tradedQuantity]
  simp only [groupSum, List.sum_map_mul_left, Nat.cast_list_sum, List.map_map,
    Function.comp_def]

/-- What the code adds up for one symbol once its final price is in. -/
private theorem unrealized_eq_bookedValue {manager : RiskManager}
    {trades : List Trade} {price : String → Rat} {symbols : List String}
    {symbol : String}
    (books : manager.KeepsBooks trades)
    (marked : Marked price symbols manager)
    (member : symbol ∈ symbols)
    (bounded : tradedQuantity trades symbol < 2 ^ 64) :
    (manager.positions[symbol]?).elim 0 (fun position =>
        if position.status = .opened then position.unrealizedPnL else 0) =
      groupSum Trade.symbol (bookedValue trades price) trades symbol := by
  have kept := books symbol
  cases held : manager.positions[symbol]? with
  | none =>
      cases earlier : firstTrade trades symbol with
      | none => simp [groupSum_of_firstTrade_none earlier]
      | some first =>
          rw [held, earlier] at kept
          cases kept
  | some position =>
      cases earlier : firstTrade trades symbol with
      | none =>
          rw [held, earlier] at kept
          cases kept
      | some first =>
          rw [held, earlier] at kept
          obtain ⟨kept⟩ := kept
          rw [groupSum_bookedValue earlier, Option.elim_some,
            if_pos kept.status, marked symbol member position held, kept.side,
            kept.avgEntryPrice, kept.quantity, Nat.mod_eq_of_lt bounded]

private theorem closingPrices_trading (symbols : List String)
    (price : String → Rat) :
    ∀ call ∈ closingPrices symbols price, call.Trading := by
  intro call member
  obtain ⟨symbol, _, rfl⟩ := List.mem_map.mp member
  trivial

private theorem trades_closingPrices (symbols : List String)
    (price : String → Rat) :
    RiskCall.trades (closingPrices symbols price) = [] := by
  induction symbols with
  | nil => rfl
  | cons symbol rest induction => exact induction

private theorem bookedValue_eq {trades : List Trade} (price : String → Rat)
    {trade : Trade} (member : trade ∈ trades) :
    bookedValue trades price trade =
      trade.side.sign * trade.quantity.toNat *
          (price trade.symbol - trade.price) +
        misvaluation trades price trade := by
  obtain ⟨first, earlier⟩ := firstTrade_of_mem member
  simp only [bookedValue, misvaluation, earlier, misstatement_eq]
  ring

/-- After the final prices are in, the reported total is the true one plus the
misstatements of the later trades. -/
theorem getTotalPnL_eq {calls : List RiskCall}
    (trading : ∀ call ∈ calls, call.Trading)
    (bounded : ∀ symbol, tradedQuantity (RiskCall.trades calls) symbol < 2 ^ 64)
    {symbols : List String}
    (listed : ∀ trade ∈ RiskCall.trades calls, trade.symbol ∈ symbols)
    (price : String → Rat) :
    (init.run (calls ++ closingPrices symbols price)).getTotalPnL =
      markToMarket (RiskCall.trades calls) price +
        totalMisstatement (RiskCall.trades calls) price := by
  have books := (keepsBooks_init.run trading).run
    (closingPrices_trading symbols price)
  have marked := marked_closingPrices symbols
    (show Marked price [] (init.run calls) from fun _ member => nomatch member)
  rw [List.nil_append, trades_closingPrices, List.append_nil] at books
  rw [List.append_nil] at marked
  rw [run_append, getTotalPnL, getRealizedPnL, run_realized, run_realized]
  generalize (init.run calls).run (closingPrices symbols price) = manager
    at books marked
  generalize RiskCall.trades calls = trades at books bounded listed ⊢
  have covered : ∀ symbol position,
      manager.positions[symbol]? = some position → symbol ∈ symbols.toFinset := by
    intro symbol position held
    obtain ⟨trade, member, rfl⟩ := books.symbol_traded held
    simpa using listed trade member
  calc
    _ = ∑ symbol ∈ symbols.toFinset,
          (manager.positions[symbol]?).elim 0 (fun position =>
            if position.status = .opened then position.unrealizedPnL else 0) := by
        rw [getUnrealizedPnL, sum_toList_eq covered
          fun _ position =>
            if position.status = .opened then position.unrealizedPnL else 0]
        exact zero_add _
    _ = ∑ symbol ∈ symbols.toFinset,
          groupSum Trade.symbol (bookedValue trades price) trades symbol := by
        refine Finset.sum_congr rfl fun symbol member => ?_
        exact unrealized_eq_bookedValue books marked (by simpa using member)
          (bounded symbol)
    _ = (trades.map (bookedValue trades price)).sum :=
        sum_groupSum fun trade member => by simpa using listed trade member
    _ = _ := by
        rw [markToMarket, totalMisstatement, ← List.sum_map_add]
        congr 1
        exact List.map_congr_left fun trade member =>
          bookedValue_eq price member

/-- The reported total is exact at the final prices exactly if the
misstatements of the trades cancel. -/
theorem totalPnL_exact_iff {calls : List RiskCall}
    (trading : ∀ call ∈ calls, call.Trading)
    (bounded : ∀ symbol, tradedQuantity (RiskCall.trades calls) symbol < 2 ^ 64)
    {symbols : List String}
    (listed : ∀ trade ∈ RiskCall.trades calls, trade.symbol ∈ symbols)
    (price : String → Rat) :
    (init.run (calls ++ closingPrices symbols price)).getTotalPnL =
        markToMarket (RiskCall.trades calls) price ↔
      totalMisstatement (RiskCall.trades calls) price = 0 := by
  rw [getTotalPnL_eq trading bounded listed price, add_eq_left]

private def averagedDown : List RiskCall :=
  [.updatePosition (tradeOf "AAPL" .buy 100 90) untouched,
    .updateMarketPrice "AAPL" 85,
    .updatePosition (tradeOf "AAPL" .buy 100 80) untouched]

theorem totalPnL_exact_iff_averagedDown :
    (init.run (averagedDown ++ closingPrices ["AAPL"] fun _ => 95)).getTotalPnL =
        markToMarket (RiskCall.trades averagedDown) (fun _ => 95) ↔
      totalMisstatement (RiskCall.trades averagedDown) (fun _ => 95) = 0 :=
  totalPnL_exact_iff
    (by decide)
    (fun symbol =>
      (tradedQuantity_le_total _ symbol).trans_lt (by decide))
    (by decide) _

/-- At 95 the two buys are worth 2000, and the code reports 1000. -/
theorem averagedDown_total_not_exact :
    (init.run (averagedDown ++ closingPrices ["AAPL"] fun _ => 95)).getTotalPnL ≠
      markToMarket (RiskCall.trades averagedDown) (fun _ => 95) := by
  decide +kernel

end RiskManager

end TradingBot
