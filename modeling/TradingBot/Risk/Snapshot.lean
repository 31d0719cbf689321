import TradingBot.Risk.NetPosition
import Mathlib.Tactic.Linarith

namespace TradingBot

/-! `getPortfolioSnapshot` while other threads call the manager. -/

/-- `totalCommissions` is never assigned and left out. -/
structure Portfolio where
  totalBalance : Rat
  availableBalance : Rat
  totalPnL : Rat
  realizedPnL : Rat
  unrealizedPnL : Rat
  positions : List Position
  totalTrades : UInt64

def Position.openPnL (position : Position) : Rat :=
  if position.status = .opened then position.unrealizedPnL else 0

structure Portfolio.Consistent (portfolio : Portfolio) : Prop where
  totalPnL : portfolio.totalPnL =
    portfolio.realizedPnL + portfolio.unrealizedPnL
  availableBalance : portfolio.availableBalance =
    portfolio.totalBalance - portfolio.unrealizedPnL
  unrealizedPnL : portfolio.unrealizedPnL =
    (portfolio.positions.map Position.openPnL).sum

/-- The calls of other threads between two lock-protected getters of one
snapshot, each named after the getter that follows: the two of `getTotalPnL`,
`getRealizedPnL`, `getUnrealizedPnL` and `getAllPositions`. -/
structure SnapshotGaps where
  beforeTotalRealized : List RiskCall
  beforeTotalUnrealized : List RiskCall
  beforeRealized : List RiskCall
  beforeUnrealized : List RiskCall
  beforePositions : List RiskCall

namespace SnapshotGaps

def untilSecond (gaps : SnapshotGaps) : List RiskCall :=
  gaps.beforeTotalRealized ++ gaps.beforeTotalUnrealized

def untilThird (gaps : SnapshotGaps) : List RiskCall :=
  gaps.beforeRealized ++ gaps.beforeUnrealized

end SnapshotGaps

namespace RiskManager

def getAllPositions (manager : RiskManager) : List Position :=
  manager.positions.toList.map Prod.snd

/-- `totalTrades` is the answer of the `OrderManager`. -/
def getPortfolioSnapshot (manager : RiskManager) (gaps : SnapshotGaps)
    (totalTrades : UInt64) : Portfolio :=
  let totalBalance := manager.totalBalance
  let unrealizedFirst := manager.getUnrealizedPnL
  let manager := manager.run gaps.beforeTotalRealized
  let realizedFirst := manager.getRealizedPnL
  let manager := manager.run gaps.beforeTotalUnrealized
  let unrealizedSecond := manager.getUnrealizedPnL
  let manager := manager.run gaps.beforeRealized
  let realizedSecond := manager.getRealizedPnL
  let manager := manager.run gaps.beforeUnrealized
  let unrealizedThird := manager.getUnrealizedPnL
  let manager := manager.run gaps.beforePositions
  { totalBalance
    availableBalance := totalBalance - unrealizedFirst
    totalPnL := realizedFirst + unrealizedSecond
    realizedPnL := realizedSecond
    unrealizedPnL := unrealizedThird
    positions := manager.getAllPositions
    totalTrades }

/-- What a call adds to the unrealized profit of the open positions. -/
def unrealizedChange (manager : RiskManager) : RiskCall → Rat
  | .updatePosition trade contents =>
      match manager.positions[trade.symbol]? with
      | none => contents.unrealizedPnL
      | some _ => 0
  | .updateMarketPrice symbol price =>
      match manager.positions[symbol]? with
      | none => 0
      | some position =>
          (markedPosition position price).openPnL - position.openPnL
  | .closePosition symbol =>
      match manager.positions[symbol]? with
      | none => 0
      | some position => -position.openPnL
  | .setRiskLimits _ => 0

/-- What calls made one after another add to it. -/
def unrealizedDrift : RiskManager → List RiskCall → Rat
  | _, [] => 0
  | manager, call :: rest =>
      manager.unrealizedChange call + (call.apply manager).unrealizedDrift rest

/-- Between any two readings of the unrealized profit, the other threads'
changes to it cancel. -/
def DriftsCancel (manager : RiskManager) (gaps : SnapshotGaps) : Prop :=
  manager.unrealizedDrift gaps.untilSecond = 0 ∧
    (manager.run gaps.untilSecond).unrealizedDrift gaps.untilThird = 0 ∧
    ((manager.run gaps.untilSecond).run gaps.untilThird).unrealizedDrift
      gaps.beforePositions = 0

theorem getUnrealizedPnL_insert {manager : RiskManager} (symbol : String)
    (position : Position) :
    getUnrealizedPnL { manager with
        positions := manager.positions.insert symbol position } =
      manager.getUnrealizedPnL +
        (position.openPnL -
          (manager.positions[symbol]?).elim 0 Position.openPnL) :=
  Library.sum_toList_insert Position.openPnL position

theorem getUnrealizedPnL_apply (manager : RiskManager) (call : RiskCall) :
    (call.apply manager).getUnrealizedPnL =
      manager.getUnrealizedPnL + manager.unrealizedChange call := by
  cases call with
  | updatePosition trade contents =>
      simp only [RiskCall.apply, updatePosition, unrealizedChange]
      cases found : manager.positions[trade.symbol]? with
      | none =>
          dsimp only
          rw [getUnrealizedPnL_insert, found]
          simp [openedPosition, Position.openPnL]
      | some position =>
          have same : (enlargedPosition position trade).openPnL =
              position.openPnL := rfl
          dsimp only
          rw [getUnrealizedPnL_insert, found, same, Option.elim_some, sub_self]
  | updateMarketPrice symbol price =>
      simp only [RiskCall.apply, updateMarketPrice, unrealizedChange]
      cases found : manager.positions[symbol]? with
      | none => simp
      | some position =>
          dsimp only
          rw [getUnrealizedPnL_insert, found]
          rfl
  | closePosition symbol =>
      simp only [RiskCall.apply, closePosition, unrealizedChange]
      cases found : manager.positions[symbol]? with
      | none => simp
      | some position =>
          dsimp only
          rw [getUnrealizedPnL_insert, found]
          simp [Position.openPnL]
  | setRiskLimits limits =>
      exact (add_zero manager.getUnrealizedPnL).symm

theorem getUnrealizedPnL_run (manager : RiskManager) (calls : List RiskCall) :
    (manager.run calls).getUnrealizedPnL =
      manager.getUnrealizedPnL + manager.unrealizedDrift calls := by
  induction calls generalizing manager with
  | nil => exact (add_zero manager.getUnrealizedPnL).symm
  | cons call rest induction =>
      rw [run_cons, induction, getUnrealizedPnL_apply, unrealizedDrift,
        add_assoc]

theorem sum_getAllPositions (manager : RiskManager) :
    (manager.getAllPositions.map Position.openPnL).sum =
      manager.getUnrealizedPnL := by
  rw [getAllPositions, List.map_map]
  rfl

/-- The equations compare the three readings of the unrealized profit with each
other and with the listed positions. -/
theorem consistent_iff_readings (manager : RiskManager) (gaps : SnapshotGaps)
    (totalTrades : UInt64) :
    (manager.getPortfolioSnapshot gaps totalTrades).Consistent ↔
      (manager.run gaps.untilSecond).getUnrealizedPnL =
          ((manager.run gaps.untilSecond).run gaps.untilThird).getUnrealizedPnL ∧
        manager.getUnrealizedPnL =
          ((manager.run gaps.untilSecond).run gaps.untilThird).getUnrealizedPnL ∧
        ((manager.run gaps.untilSecond).run gaps.untilThird).getUnrealizedPnL =
          (((manager.run gaps.untilSecond).run gaps.untilThird).run
            gaps.beforePositions).getUnrealizedPnL := by
  simp only [SnapshotGaps.untilSecond, SnapshotGaps.untilThird, run_append]
  constructor
  · intro consistent
    obtain ⟨total, available, listed⟩ := consistent
    simp only [getPortfolioSnapshot, getRealizedPnL, run_realized,
      add_right_inj, sub_right_inj, sum_getAllPositions] at total available listed
    exact ⟨total, available, listed⟩
  · intro readings
    obtain ⟨total, available, listed⟩ := readings
    refine ⟨?_, ?_, ?_⟩
    · simpa only [getPortfolioSnapshot, getRealizedPnL, run_realized,
        add_right_inj] using total
    · simpa only [getPortfolioSnapshot, sub_right_inj] using available
    · simpa only [getPortfolioSnapshot, sum_getAllPositions] using listed

/-- A snapshot is consistent exactly if what happens between its readings
cancels out. -/
theorem snapshot_consistent_iff (manager : RiskManager) (gaps : SnapshotGaps)
    (totalTrades : UInt64) :
    (manager.getPortfolioSnapshot gaps totalTrades).Consistent ↔
      manager.DriftsCancel gaps := by
  rw [consistent_iff_readings, DriftsCancel]
  have second := manager.getUnrealizedPnL_run gaps.untilSecond
  generalize manager.run gaps.untilSecond = secondState at second ⊢
  have third := secondState.getUnrealizedPnL_run gaps.untilThird
  generalize secondState.run gaps.untilThird = thirdState at third ⊢
  have last := thirdState.getUnrealizedPnL_run gaps.beforePositions
  constructor
  · intro readings
    obtain ⟨total, available, listed⟩ := readings
    refine ⟨?_, ?_, ?_⟩ <;> linarith
  · intro cancel
    obtain ⟨untilSecond, untilThird, untilPositions⟩ := cancel
    refine ⟨?_, ?_, ?_⟩ <;> linarith

private def pricedBuy : RiskManager :=
  init.run
    [.updatePosition (tradeOf "AAPL" .buy 100 90) untouched,
      .updateMarketPrice "AAPL" 95]

private def repricedBetween : SnapshotGaps where
  beforeTotalRealized := []
  beforeTotalUnrealized := []
  beforeRealized := [.updateMarketPrice "AAPL" 96]
  beforeUnrealized := []
  beforePositions := []

/-- The total profit is read before a price update and its parts after it. -/
theorem snapshot_torn_by_price_update :
    ¬ (pricedBuy.getPortfolioSnapshot repricedBetween 1).Consistent := by
  intro consistent
  have total := consistent.totalPnL
  revert total
  decide +kernel

end RiskManager

end TradingBot
