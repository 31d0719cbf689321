import TradingBot.Risk.Close
import TradingBot.Library.Trace
import Mathlib.Tactic.Ring

namespace TradingBot

open Library

/-! The stored unrealized profit against the prices and quantities it was
computed from. -/

/-- What `updateMarketPrice` would store for the fields as they are. -/
def Position.markedPnL (position : Position) : Rat :=
  match position.side with
  | .buy =>
      (position.currentPrice - position.avgEntryPrice) *
        position.quantity.toNat
  | .sell =>
      (position.avgEntryPrice - position.currentPrice) *
        position.quantity.toNat

theorem Position.markedPnL_eq (position : Position) :
    position.markedPnL =
      position.side.sign *
        (position.currentPrice - position.avgEntryPrice) *
        position.quantity.toNat := by
  unfold markedPnL
  cases position.side <;> simp

theorem remarks_concat {symbol : String} {calls : List RiskCall}
    {call : RiskCall} :
    Remarks symbol (calls ++ [call]) ↔
      Remarks symbol calls ∨
        Reopens symbol calls ∧
          ∃ price, call = .updateMarketPrice symbol price := by
  constructor
  · intro remarks
    obtain ⟨before, after, price, split, reopens, marked⟩ := remarks
    induction after using List.reverseRecOn with
    | nil => cases marked
    | append_singleton after last _ =>
        rw [← List.append_assoc] at split
        obtain ⟨rfl, same⟩ := List.append_inj' split rfl
        cases same
        rcases List.mem_append.mp marked with earlier | last
        · exact .inl ⟨before, after, price, rfl, reopens, earlier⟩
        · exact .inr ⟨reopens.append after, price, (List.mem_singleton.mp last).symm⟩
  · intro remarks
    rcases remarks with earlier | ⟨reopens, price, rfl⟩
    · obtain ⟨before, after, price, rfl, reopens, marked⟩ := earlier
      exact ⟨before, after ++ [call], price, List.append_assoc .., reopens,
        List.mem_append_left _ marked⟩
    · exact ⟨calls, [.updateMarketPrice symbol price], price, rfl, reopens,
        List.mem_singleton_self _⟩

namespace RiskManager

/-- The calls leave the position of the symbol open and priced. -/
structure OpenPriced (calls : List RiskCall) (symbol : String)
    (position : Position) : Prop where
  stored : (init.run calls).positions[symbol]? = some position
  opened : position.status = .opened
  priced : Remarks symbol calls

/-- Once priced, no open position is stale. -/
structure UpToDate (calls : List RiskCall) : Prop where
  position : ∀ symbol position, OpenPriced calls symbol position →
    position.unrealizedPnL = position.markedPnL
  total : (∀ symbol position,
      (init.run calls).positions[symbol]? = some position →
      position.status = .opened → Remarks symbol calls) →
    (init.run calls).getUnrealizedPnL =
      ((init.run calls).positions.toList.map fun entry =>
        if entry.2.status = .opened then entry.2.markedPnL else 0).sum

/-- A trade of a priced open position is empty or finds the price at the entry
price. -/
def TradesAtEntry (calls : List RiskCall) : RiskCall → Prop
  | .updatePosition trade _ =>
      ∀ position, OpenPriced calls trade.symbol position →
        trade.quantity = 0 ∨ position.currentPrice = position.avgEntryPrice
  | _ => True

theorem upToDate_iff {calls : List RiskCall} :
    UpToDate calls ↔
      ∀ symbol position, OpenPriced calls symbol position →
        position.unrealizedPnL = position.markedPnL := by
  refine ⟨UpToDate.position, fun fresh => ⟨fresh, ?_⟩⟩
  intro priced
  rw [getUnrealizedPnL]
  apply congrArg List.sum
  apply List.map_congr_left
  intro entry member
  have stored : (init.run calls).positions[entry.1]? = some entry.2 :=
    Std.ExtTreeMap.mem_toList_iff_getElem?_eq_some.mp member
  split
  next opened =>
      exact fresh entry.1 entry.2
        { stored, opened, priced := priced entry.1 entry.2 stored opened }
  next => rfl

theorem upToDate_nil : UpToDate [] := by
  rw [upToDate_iff]
  intro symbol position held
  have stored := held.stored
  simp [init] at stored

theorem stored_of_reopens {symbol : String} {calls : List RiskCall}
    (reopens : Reopens symbol calls) :
    ∃ position, (init.run calls).positions[symbol]? = some position := by
  rw [← Option.isSome_iff_exists]
  induction calls using List.reverseRecOn with
  | nil =>
      obtain ⟨trade, booked, _⟩ := reopens
      cases booked
  | append_singleton calls call induction =>
      obtain ⟨trade, booked, same⟩ := reopens
      rw [RiskCall.trades_append, List.mem_append] at booked
      rw [run_concat, stored_apply]
      rcases booked with earlier | last
      · exact .inl (induction ⟨trade, earlier, same⟩)
      · exact .inr ⟨trade, by simpa [RiskCall.trades] using last, same⟩

/-- A trade adds to the priced open position of its symbol and leaves the
others. -/
theorem openPriced_updatePosition {calls : List RiskCall} {trade : Trade}
    {contents : Uninitialized} {symbol : String} {position : Position} :
    OpenPriced (calls ++ [.updatePosition trade contents]) symbol position ↔
      ∃ previous, OpenPriced calls symbol previous ∧
        position =
          if symbol = trade.symbol then enlargedPosition previous trade
          else previous := by
  constructor
  · intro held
    obtain ⟨stored, opened, priced⟩ := held
    have priced : Remarks symbol calls := by
      simpa [remarks_concat] using priced
    obtain ⟨previous, found⟩ := stored_of_reopens priced.reopens
    rw [run_concat, RiskCall.apply, updatePosition_positions, found] at stored
    split at stored
    next same =>
        obtain rfl := Option.some.inj stored
        refine ⟨previous, { stored := found, opened, priced }, ?_⟩
        rw [if_pos same]
    next differ =>
        obtain rfl := Option.some.inj stored
        refine ⟨previous, { stored := found, opened, priced }, ?_⟩
        rw [if_neg differ]
  · intro held
    obtain ⟨previous, ⟨found, opened, priced⟩, rfl⟩ := held
    refine
      { stored := ?_
        opened := ?_
        priced := remarks_concat.mpr (.inl priced) }
    · rw [run_concat, RiskCall.apply, updatePosition_positions, found]
      split <;> rfl
    · split
      · exact opened
      · exact opened

theorem enlargedPosition_upToDate_iff {position : Position} {trade : Trade}
    (fresh : position.unrealizedPnL = position.markedPnL) :
    (enlargedPosition position trade).unrealizedPnL =
        (enlargedPosition position trade).markedPnL ↔
      trade.quantity = 0 ∨ position.currentPrice = position.avgEntryPrice := by
  have sign : (position.side.sign : Rat) ≠ 0 :=
    Int.cast_ne_zero.mpr position.side.sign_ne_zero
  have unchanged : position.quantity.toNat =
      (position.quantity + trade.quantity).toNat ↔ trade.quantity = 0 := by
    rw [UInt64.toNat_inj, eq_comm, UInt64.add_eq_left]
  calc
    _ ↔ position.markedPnL = (enlargedPosition position trade).markedPnL := by
      rw [← fresh]
      rfl
    _ ↔ position.quantity.toNat =
          (position.quantity + trade.quantity).toNat ∨
        position.side.sign *
          (position.currentPrice - position.avgEntryPrice) = 0 := by
      rw [Position.markedPnL_eq, Position.markedPnL_eq, ← Nat.cast_inj (R := Rat),
        ← mul_eq_mul_left_iff]
      rfl
    _ ↔ _ := by
      rw [unchanged, mul_eq_zero, sub_eq_zero, or_iff_right sign]

theorem upToDate_concat {calls : List RiskCall} {call : RiskCall}
    (fresh : UpToDate calls) :
    UpToDate (calls ++ [call]) ↔ TradesAtEntry calls call := by
  rw [upToDate_iff]
  cases call with
  | updatePosition trade contents =>
      simp only [openPriced_updatePosition]
      constructor
      · intro after position held
        have kept := after trade.symbol _ ⟨position, held, rfl⟩
        rw [if_pos rfl] at kept
        exact (enlargedPosition_upToDate_iff (fresh.position _ _ held)).mp kept
      · intro atEntry symbol position held
        obtain ⟨previous, held, rfl⟩ := held
        have before := fresh.position symbol previous held
        split
        next same =>
            subst same
            exact (enlargedPosition_upToDate_iff before).mpr
              (atEntry previous held)
        next => exact before
  | updateMarketPrice key price =>
      refine iff_of_true ?_ trivial
      intro symbol position held
      obtain ⟨stored, opened, priced⟩ := held
      rw [run_concat, RiskCall.apply, updateMarketPrice_positions] at stored
      obtain ⟨previous, found, rfl⟩ := Option.map_eq_some_iff.mp stored
      rcases eq_or_ne symbol key with same | differ
      · rw [if_pos same]
        rfl
      · rw [if_neg differ] at opened ⊢
        refine fresh.position symbol previous { stored := found, opened, priced := ?_ }
        simpa [remarks_concat, differ.symm] using priced
  | closePosition key =>
      refine iff_of_true ?_ trivial
      intro symbol position held
      obtain ⟨stored, opened, priced⟩ := held
      rw [run_concat, RiskCall.apply, closePosition_positions] at stored
      obtain ⟨previous, found, rfl⟩ := Option.map_eq_some_iff.mp stored
      rcases eq_or_ne symbol key with same | differ
      · rw [if_pos same] at opened
        cases opened
      · rw [if_neg differ] at opened ⊢
        refine fresh.position symbol previous { stored := found, opened, priced := ?_ }
        simpa [remarks_concat] using priced
  | setRiskLimits limits =>
      refine iff_of_true ?_ trivial
      intro symbol position held
      obtain ⟨stored, opened, priced⟩ := held
      rw [run_concat] at stored
      refine fresh.position symbol position { stored, opened, priced := ?_ }
      simpa [remarks_concat] using priced

/-- No priced open position is ever stale exactly if the trades of such
positions are empty or booked while the price stands at the entry price. -/
theorem upToDate_throughout_iff (calls : List RiskCall) :
    EveryPrefix UpToDate calls ↔ EveryEntry TradesAtEntry calls :=
  everyPrefix_iff upToDate_nil (fun _ _ => upToDate_concat) calls

/-- Bought 100 at 90, priced at 95, bought 100 more: 500 instead of 1000. -/
theorem second_buy_leaves_profit_stale :
    ¬ ∀ calls, EveryPrefix UpToDate calls := by
  intro always
  have fresh := always
    [.updatePosition (tradeOf "AAPL" .buy 100 90) untouched,
      .updateMarketPrice "AAPL" 95,
      .updatePosition (tradeOf "AAPL" .buy 100 95) untouched] _ []
    (List.append_nil _).symm
  have stale := fresh.position "AAPL" _
    { stored := rfl
      opened := rfl
      priced :=
        ⟨[.updatePosition (tradeOf "AAPL" .buy 100 90) untouched], _, 95, rfl,
          ⟨_, List.mem_singleton_self _, rfl⟩, List.mem_cons_self⟩ }
  revert stale
  decide +kernel

end RiskManager

end TradingBot
