import TradingBot.Risk.Snapshot
import TradingBot.Library.Trace
import Mathlib.Algebra.Order.BigOperators.Group.Finset

namespace TradingBot

open Library

/-! Two runs of the same calls whose positions start with different memory
contents. -/

inductive ProfitQuery where
  | getUnrealizedPnL
  | getTotalPnL
  | getPortfolioSnapshot (totalTrades : UInt64)

def SnapshotGaps.none : SnapshotGaps where
  beforeTotalRealized := []
  beforeTotalUnrealized := []
  beforeRealized := []
  beforeUnrealized := []
  beforePositions := []

/-- What a query answers, of a snapshot its `totalPnL`, `unrealizedPnL` and
`availableBalance`. -/
def ProfitQuery.answer (manager : RiskManager) : ProfitQuery → List Rat
  | .getUnrealizedPnL => [manager.getUnrealizedPnL]
  | .getTotalPnL => [manager.getTotalPnL]
  | .getPortfolioSnapshot totalTrades =>
      let portfolio := manager.getPortfolioSnapshot .none totalTrades
      [portfolio.totalPnL, portfolio.unrealizedPnL, portfolio.availableBalance]

inductive ProfitCall where
  | updatePosition (trade : Trade)
  | updateMarketPrice (symbol : String) (price : Rat)
  | closePosition (symbol : String)
  | query (kind : ProfitQuery)

namespace ProfitCall

def perform (manager : RiskManager) (contents : Uninitialized) :
    ProfitCall → RiskManager
  | .updatePosition trade => manager.updatePosition trade contents
  | .updateMarketPrice symbol price => manager.updateMarketPrice symbol price
  | .closePosition symbol => manager.closePosition symbol
  | .query _ => manager

/-- The manager after some calls, the oracle naming the contents of the
position that the call of an index declares. -/
def managerAfter (oracle : Nat → Uninitialized) (calls : List ProfitCall) :
    RiskManager :=
  calls.zipIdx.foldl
    (fun manager entry => entry.1.perform manager (oracle entry.2))
    RiskManager.init

def answer (manager : RiskManager) : ProfitCall → List Rat
  | .query kind => kind.answer manager
  | _ => []

def answers (oracle : Nat → Uninitialized) : List ProfitCall → List Rat :=
  eachAfter fun earlier call => call.answer (managerAfter oracle earlier)

def Trades (symbol : String) : ProfitCall → Prop
  | .updatePosition trade => trade.symbol = symbol
  | _ => False

@[simp] theorem trades_updatePosition {symbol : String} {trade : Trade} :
    Trades symbol (.updatePosition trade) ↔ trade.symbol = symbol := Iff.rfl

def Settles (symbol : String) : ProfitCall → Prop
  | .updateMarketPrice key _ => key = symbol
  | .closePosition key => key = symbol
  | _ => False

/-- The symbol was neither priced nor closed since its first trade. -/
def Unpriced (symbol : String) : List ProfitCall → Prop
  | [] => False
  | call :: rest =>
      call.Trades symbol ∧ (∀ later ∈ rest, ¬ later.Settles symbol) ∨
        ¬ call.Trades symbol ∧ Unpriced symbol rest

def Queries : ProfitCall → Prop
  | .query _ => True
  | _ => False

theorem unpriced_concat {symbol : String} {calls : List ProfitCall}
    {call : ProfitCall} :
    Unpriced symbol (calls ++ [call]) ↔
      Unpriced symbol calls ∧ ¬ call.Settles symbol ∨
        call.Trades symbol ∧ ∀ earlier ∈ calls, ¬ earlier.Trades symbol := by
  induction calls with
  | nil => simp [Unpriced]
  | cons first rest induction =>
      rw [List.cons_append, Unpriced, Unpriced, induction]
      by_cases books : first.Trades symbol
      · simp only [books, true_and, not_true_eq_false, false_and, or_false,
          List.mem_append, List.mem_singleton, or_imp, forall_and,
          forall_eq, List.forall_mem_cons, and_false]
      · simp only [books, false_and, false_or, not_false_eq_true, true_and,
          List.forall_mem_cons]

theorem not_unpriced_of_untraded {symbol : String} {calls : List ProfitCall}
    (untraded : ∀ call ∈ calls, ¬ call.Trades symbol) :
    ¬ Unpriced symbol calls := by
  induction calls with
  | nil => exact id
  | cons call rest induction =>
      rw [List.forall_mem_cons] at untraded
      simp [Unpriced, untraded.1, induction untraded.2]

theorem managerAfter_concat (oracle : Nat → Uninitialized)
    (calls : List ProfitCall) (call : ProfitCall) :
    managerAfter oracle (calls ++ [call]) =
      call.perform (managerAfter oracle calls) (oracle calls.length) := by
  simp [managerAfter, List.zipIdx_append]

end ProfitCall

namespace RiskManager

open ProfitCall

/-- One position in both runs. -/
structure Twins (differs : Rat → Rat → Prop) (unpriced : Prop)
    (first second : Position) : Prop where
  side : first.side = second.side
  quantity : first.quantity = second.quantity
  avgEntryPrice : first.avgEntryPrice = second.avgEntryPrice
  status : first.status = second.status
  opened : unpriced → first.status = .opened
  contents : unpriced → differs first.unrealizedPnL second.unrealizedPnL
  priced : ¬ unpriced → first.openPnL = second.openPnL

/-- The managers of both runs after the same calls: only what has not been
priced yet differs. -/
structure Parallel (differs : Rat → Rat → Prop) (calls : List ProfitCall)
    (first second : RiskManager) : Prop where
  positions : ∀ symbol : String,
    Option.Rel (Twins differs (Unpriced symbol calls))
      first.positions[symbol]? second.positions[symbol]?
  absent : ∀ symbol : String, first.positions[symbol]? = none ↔
    ∀ call ∈ calls, ¬ call.Trades symbol

theorem parallel_init (differs : Rat → Rat → Prop) :
    Parallel differs [] init init where
  positions symbol := by simp [init]
  absent symbol := by simp [init]

variable {differs : Rat → Rat → Prop} {unpriced : Prop}
  {calls : List ProfitCall} {first second : RiskManager}

theorem Twins.enlarged {position other : Position}
    (twins : Twins differs unpriced position other) (trade : Trade) :
    Twins differs unpriced (enlargedPosition position trade)
      (enlargedPosition other trade) where
  side := twins.side
  quantity := congrArg (· + trade.quantity) twins.quantity
  avgEntryPrice := twins.avgEntryPrice
  status := twins.status
  opened := twins.opened
  contents := twins.contents
  priced := twins.priced

theorem Twins.marked {position other : Position}
    (twins : Twins differs unpriced position other) (price : Rat) :
    Twins differs False (markedPosition position price)
      (markedPosition other price) where
  side := twins.side
  quantity := twins.quantity
  avgEntryPrice := twins.avgEntryPrice
  status := twins.status
  opened := False.elim
  contents := False.elim
  priced _ := by
    have status : (markedPosition position price).status =
        (markedPosition other price).status := twins.status
    rw [Position.openPnL, Position.openPnL, markedPosition_unrealizedPnL,
      markedPosition_unrealizedPnL, status, twins.side, twins.quantity,
      twins.avgEntryPrice]

theorem Twins.closed {position other : Position}
    (twins : Twins differs unpriced position other) :
    Twins differs False { position with status := .closed }
      { other with status := .closed } where
  side := twins.side
  quantity := twins.quantity
  avgEntryPrice := twins.avgEntryPrice
  status := rfl
  opened := False.elim
  contents := False.elim
  priced _ := rfl

theorem twins_opened (trade : Trade) {contents other : Uninitialized}
    (different : differs contents.unrealizedPnL other.unrealizedPnL)
    (now : unpriced) :
    Twins differs unpriced (openedPosition trade contents)
      (openedPosition trade other) where
  side := rfl
  quantity := rfl
  avgEntryPrice := rfl
  status := rfl
  opened _ := rfl
  contents _ := different
  priced settled := absurd now settled

theorem Parallel.updatePosition (parallel : Parallel differs calls first second)
    (trade : Trade) {contents other : Uninitialized}
    (different : differs contents.unrealizedPnL other.unrealizedPnL) :
    Parallel differs (calls ++ [.updatePosition trade])
      (first.updatePosition trade contents)
      (second.updatePosition trade other) where
  positions symbol := by
    have before := parallel.positions symbol
    have unpriced : Unpriced symbol (calls ++ [.updatePosition trade]) ↔
        Unpriced symbol calls ∨
          trade.symbol = symbol ∧ first.positions[symbol]? = none := by
      rw [unpriced_concat, parallel.absent]
      simp only [Settles, not_false_eq_true, and_true, trades_updatePosition]
    rw [updatePosition_positions, updatePosition_positions, unpriced]
    rcases eq_or_ne symbol trade.symbol with same | differ
    · rw [if_pos same, if_pos same]
      generalize first.positions[symbol]? = held at before ⊢
      generalize second.positions[symbol]? = kept at before ⊢
      cases before with
      | none => exact .some (twins_opened trade different (.inr ⟨same.symm, rfl⟩))
      | some twins => simpa using twins.enlarged trade
    · simpa [differ, differ.symm] using before
  absent symbol := by
    have absent := parallel.absent symbol
    rw [updatePosition_positions]
    rcases eq_or_ne symbol trade.symbol with same | differ
    · cases first.positions[symbol]? <;> simp [same, Trades]
    · simpa [differ, differ.symm, or_imp, forall_and, Trades] using absent

/-- A price or a close of one symbol. -/
theorem Parallel.settle (parallel : Parallel differs calls first second)
    {call : ProfitCall} {key : String} {change : Position → Position}
    {next other : RiskManager}
    (settles : ∀ symbol, call.Settles symbol ↔ key = symbol)
    (untraded : ∀ symbol, ¬ call.Trades symbol)
    (nextPositions : ∀ symbol, next.positions[symbol]? =
      (first.positions[symbol]?).map fun position =>
        if symbol = key then change position else position)
    (otherPositions : ∀ symbol, other.positions[symbol]? =
      (second.positions[symbol]?).map fun position =>
        if symbol = key then change position else position)
    (changes : ∀ {unpriced position twin},
      Twins differs unpriced position twin →
        Twins differs False (change position) (change twin)) :
    Parallel differs (calls ++ [call]) next other where
  positions symbol := by
    have before := parallel.positions symbol
    rw [nextPositions, otherPositions, unpriced_concat]
    simp only [settles, untraded, false_and, or_false]
    generalize first.positions[symbol]? = held at before ⊢
    generalize second.positions[symbol]? = kept at before ⊢
    cases before with
    | none => exact .none
    | some twins =>
        rcases eq_or_ne symbol key with same | differ
        · simpa [same] using changes twins
        · simpa [differ, differ.symm] using twins
  absent symbol := by
    simp [nextPositions, parallel.absent, or_imp, forall_and, untraded]

theorem Parallel.query (parallel : Parallel differs calls first second)
    (kind : ProfitQuery) :
    Parallel differs (calls ++ [.query kind]) first second where
  positions symbol := by
    have before := parallel.positions symbol
    simpa [unpriced_concat, Settles, Trades] using before
  absent symbol := by
    simp [parallel.absent, or_imp, forall_and, Trades]

theorem Parallel.perform (parallel : Parallel differs calls first second)
    (call : ProfitCall) {contents other : Uninitialized}
    (different : differs contents.unrealizedPnL other.unrealizedPnL) :
    Parallel differs (calls ++ [call]) (call.perform first contents)
      (call.perform second other) := by
  cases call with
  | updatePosition trade => exact parallel.updatePosition trade different
  | updateMarketPrice key price =>
      exact parallel.settle (fun _ => Iff.rfl) (fun _ => id)
        (first.updateMarketPrice_positions key · price)
        (second.updateMarketPrice_positions key · price)
        fun twins => twins.marked price
  | closePosition key =>
      exact parallel.settle (fun _ => Iff.rfl) (fun _ => id)
        (first.closePosition_positions key) (second.closePosition_positions key)
        Twins.closed
  | query kind => exact parallel.query kind

theorem parallel_managerAfter (differs : Rat → Rat → Prop)
    {oracle other : Nat → Uninitialized}
    (different : ∀ index,
      differs (oracle index).unrealizedPnL (other index).unrealizedPnL)
    (calls : List ProfitCall) :
    Parallel differs calls (managerAfter oracle calls)
      (managerAfter other calls) := by
  induction calls using List.reverseRecOn with
  | nil => exact parallel_init differs
  | append_singleton calls call induction =>
      rw [managerAfter_concat, managerAfter_concat]
      exact induction.perform call (different calls.length)

theorem getUnrealizedPnL_eq_sum {manager : RiskManager} {keys : Finset String}
    (covered : ∀ symbol position,
      manager.positions[symbol]? = some position → symbol ∈ keys) :
    manager.getUnrealizedPnL =
      ∑ symbol ∈ keys, (manager.positions[symbol]?).elim 0 Position.openPnL :=
  sum_toList_eq covered fun _ => Position.openPnL

def storedSymbols (manager : RiskManager) : Finset String :=
  manager.positions.keys.toFinset

theorem mem_storedSymbols {manager : RiskManager} {symbol : String} :
    symbol ∈ manager.storedSymbols ↔
      ∃ position, manager.positions[symbol]? = some position := by
  rw [storedSymbols, List.mem_toFinset, Std.ExtTreeMap.mem_keys,
    Std.ExtTreeMap.mem_iff_isSome_getElem?, Option.isSome_iff_exists]

/-- Both unrealized profits, over the symbols of the first run. -/
theorem Parallel.unrealized_eq_sum
    (parallel : Parallel differs calls first second) :
    first.getUnrealizedPnL =
        ∑ symbol ∈ first.storedSymbols,
          (first.positions[symbol]?).elim 0 Position.openPnL ∧
      second.getUnrealizedPnL =
        ∑ symbol ∈ first.storedSymbols,
          (second.positions[symbol]?).elim 0 Position.openPnL := by
  constructor
  · exact getUnrealizedPnL_eq_sum fun symbol position stored =>
      mem_storedSymbols.mpr ⟨position, stored⟩
  · refine getUnrealizedPnL_eq_sum fun symbol position stored => ?_
    have related := parallel.positions symbol
    rw [stored] at related
    rw [mem_storedSymbols]
    cases held : first.positions[symbol]? with
    | none =>
        rw [held] at related
        cases related
    | some twin => exact ⟨twin, rfl⟩

theorem Parallel.openPnL_eq (parallel : Parallel differs calls first second)
    {symbol : String} (settled : ¬ Unpriced symbol calls) :
    (first.positions[symbol]?).elim 0 Position.openPnL =
      (second.positions[symbol]?).elim 0 Position.openPnL := by
  have related := parallel.positions symbol
  generalize first.positions[symbol]? = held at related ⊢
  generalize second.positions[symbol]? = kept at related ⊢
  cases related with
  | none => rfl
  | some twins => exact twins.priced settled

theorem Parallel.getUnrealizedPnL_eq
    (parallel : Parallel differs calls first second)
    (settled : ∀ symbol, ¬ Unpriced symbol calls) :
    first.getUnrealizedPnL = second.getUnrealizedPnL := by
  rw [parallel.unrealized_eq_sum.1, parallel.unrealized_eq_sum.2]
  exact Finset.sum_congr rfl fun symbol _ => parallel.openPnL_eq (settled symbol)

theorem Parallel.stored_of_unpriced
    (parallel : Parallel differs calls first second) {symbol : String}
    (unpriced : Unpriced symbol calls) :
    ∃ position, first.positions[symbol]? = some position := by
  rw [← Option.ne_none_iff_exists', Ne, parallel.absent]
  intro untraded
  exact not_unpriced_of_untraded untraded unpriced

theorem Parallel.openPnL_lt
    (parallel : Parallel (· < ·) calls first second)
    {symbol : String} (unpriced : Unpriced symbol calls) :
    (first.positions[symbol]?).elim 0 Position.openPnL <
      (second.positions[symbol]?).elim 0 Position.openPnL := by
  obtain ⟨position, stored⟩ := parallel.stored_of_unpriced unpriced
  have related := parallel.positions symbol
  rw [stored] at related ⊢
  generalize second.positions[symbol]? = kept at related ⊢
  cases related with
  | some twins =>
      have opened := twins.opened unpriced
      have alsoOpened := twins.status ▸ opened
      simpa [Position.openPnL, opened, alsoOpened] using twins.contents unpriced

theorem Parallel.getUnrealizedPnL_lt
    (parallel : Parallel (· < ·) calls first second)
    {symbol : String} (unpriced : Unpriced symbol calls) :
    first.getUnrealizedPnL < second.getUnrealizedPnL := by
  rw [parallel.unrealized_eq_sum.1, parallel.unrealized_eq_sum.2]
  apply Finset.sum_lt_sum
  · intro other _
    by_cases waiting : Unpriced other calls
    · exact (parallel.openPnL_lt waiting).le
    · exact (parallel.openPnL_eq waiting).le
  · exact ⟨symbol,
      mem_storedSymbols.mpr (parallel.stored_of_unpriced unpriced),
      parallel.openPnL_lt unpriced⟩

end RiskManager

namespace ProfitCall

open RiskManager

theorem perform_totalRealizedPnL (manager : RiskManager)
    (contents : Uninitialized) (call : ProfitCall) :
    (call.perform manager contents).totalRealizedPnL =
      manager.totalRealizedPnL := by
  cases call <;> simp [perform]

theorem perform_totalBalance (manager : RiskManager)
    (contents : Uninitialized) (call : ProfitCall) :
    (call.perform manager contents).totalBalance = manager.totalBalance := by
  cases call with
  | updatePosition trade =>
      rw [perform, RiskManager.updatePosition]
      split <;> rfl
  | updateMarketPrice symbol price =>
      rw [perform, RiskManager.updateMarketPrice]
      split <;> rfl
  | closePosition symbol =>
      rw [perform, RiskManager.closePosition]
      split <;> rfl
  | query kind => rfl

theorem managerAfter_totals (oracle : Nat → Uninitialized)
    (calls : List ProfitCall) :
    (managerAfter oracle calls).totalRealizedPnL = 0 ∧
      (managerAfter oracle calls).totalBalance = 100000 := by
  induction calls using List.reverseRecOn with
  | nil => exact ⟨rfl, rfl⟩
  | append_singleton calls call induction =>
      rw [managerAfter_concat, perform_totalRealizedPnL, perform_totalBalance]
      exact induction

/-- Every query shows the unrealized profit. -/
theorem answer_eq_iff {first second : Nat → Uninitialized}
    {calls : List ProfitCall} {kind : ProfitQuery} :
    kind.answer (managerAfter first calls) =
        kind.answer (managerAfter second calls) ↔
      (managerAfter first calls).getUnrealizedPnL =
        (managerAfter second calls).getUnrealizedPnL := by
  obtain ⟨firstRealized, firstBalance⟩ := managerAfter_totals first calls
  obtain ⟨secondRealized, secondBalance⟩ := managerAfter_totals second calls
  cases kind with
  | getUnrealizedPnL => simp [ProfitQuery.answer]
  | getTotalPnL =>
      simp [ProfitQuery.answer, getTotalPnL, getRealizedPnL, firstRealized,
        secondRealized]
  | getPortfolioSnapshot totalTrades =>
      simp [ProfitQuery.answer, getPortfolioSnapshot, SnapshotGaps.none,
        getRealizedPnL, firstRealized, secondRealized, firstBalance,
        secondBalance]

theorem answers_eq_iff (first second : Nat → Uninitialized)
    (calls : List ProfitCall) :
    answers first calls = answers second calls ↔
      EveryEntry (fun earlier call =>
        call.answer (managerAfter first earlier) =
          call.answer (managerAfter second earlier)) calls := by
  apply eachAfter_eq_iff
  intro earlier call
  cases call with
  | query kind => cases kind <;> simp [answer, ProfitQuery.answer]
  | updatePosition | updateMarketPrice | closePosition => simp [answer]

private def filledWith (contents : Rat) : Nat → Uninitialized :=
  fun _ =>
    { currentPrice := 0, unrealizedPnL := contents, realizedPnL := 0 }

/-- A query of an unpriced position shows what its memory held. -/
theorem unpriced_shows {calls earlier later : List ProfitCall}
    {kind : ProfitQuery} {symbol : String}
    (split : calls = earlier ++ .query kind :: later)
    (unpriced : Unpriced symbol earlier) :
    answers (filledWith 0) calls ≠ answers (filledWith 1) calls := by
  rw [Ne, answers_eq_iff]
  intro same
  have below : ∀ index, (filledWith 0 index).unrealizedPnL <
      (filledWith 1 index).unrealizedPnL := fun _ => zero_lt_one
  have parallel := parallel_managerAfter (· < ·) below earlier
  exact (parallel.getUnrealizedPnL_lt unpriced).ne
    (answer_eq_iff.mp (same earlier _ later split))

/-- At a query, every traded symbol has been priced or closed since its first
trade. -/
def AsksSettled (earlier : List ProfitCall) (call : ProfitCall) : Prop :=
  call.Queries → ∀ symbol, ¬ Unpriced symbol earlier

/-- The answers do not depend on the contents of fresh positions exactly if no
query comes between a symbol's first trade and its first price or close. -/
theorem answers_determined_iff (calls : List ProfitCall) :
    (∀ first second, answers first calls = answers second calls) ↔
      EveryEntry AsksSettled calls := by
  constructor
  · intro determined earlier call later split queries symbol unpriced
    cases call with
    | query kind => exact unpriced_shows split unpriced (determined _ _)
    | updatePosition | updateMarketPrice | closePosition => cases queries
  · intro settled first second
    rw [answers_eq_iff]
    intro earlier call later split
    cases call with
    | query kind =>
        have parallel : Parallel (fun _ _ => True) earlier
            (managerAfter first earlier) (managerAfter second earlier) :=
          parallel_managerAfter _ (fun _ => trivial) earlier
        exact answer_eq_iff.mpr (parallel.getUnrealizedPnL_eq
          (settled earlier _ later split trivial))
    | updatePosition | updateMarketPrice | closePosition => rfl

/-- One trade, then a query before the first price. -/
theorem fresh_position_shows_memory :
    ¬ ∀ (calls : List ProfitCall) (first second : Nat → Uninitialized),
      answers first calls = answers second calls := by
  intro determined
  have unpriced : Unpriced "AAPL"
      [.updatePosition (tradeOf "AAPL" .buy 100 90)] := by
    simp [Unpriced, tradeOf]
  have split :
      [.updatePosition (tradeOf "AAPL" .buy 100 90), .query .getUnrealizedPnL] =
        [.updatePosition (tradeOf "AAPL" .buy 100 90)] ++
          ProfitCall.query .getUnrealizedPnL :: [] := rfl
  exact unpriced_shows split unpriced (determined _ _ _)

end ProfitCall

end TradingBot
