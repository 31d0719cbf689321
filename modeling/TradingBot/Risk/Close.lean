import TradingBot.Risk.NetPosition
import Mathlib.Algebra.Order.Floor.Ring
import Mathlib.Data.Rat.Floor

namespace TradingBot

/-! A closed position against one that was never there. -/

def Reopens (symbol : String) (calls : List RiskCall) : Prop :=
  ∃ trade ∈ RiskCall.trades calls, trade.symbol = symbol

theorem Reopens.append {symbol : String} {first : List RiskCall}
    (reopens : Reopens symbol first) (second : List RiskCall) :
    Reopens symbol (first ++ second) := by
  obtain ⟨trade, booked, same⟩ := reopens
  refine ⟨trade, ?_, same⟩
  rw [RiskCall.trades_append]
  exact List.mem_append_left _ booked

/-- The calls mark the symbol after booking a trade of it. -/
def Remarks (symbol : String) (calls : List RiskCall) : Prop :=
  ∃ before after price, calls = before ++ after ∧ Reopens symbol before ∧
    RiskCall.updateMarketPrice symbol price ∈ after

theorem Remarks.reopens {symbol : String} {calls : List RiskCall}
    (remarks : Remarks symbol calls) : Reopens symbol calls := by
  obtain ⟨before, after, _, rfl, reopens, _⟩ := remarks
  exact reopens.append after

/-- What `getPosition` answers, less the prices and times. -/
def Position.terms (position : Position) :
    UInt64 × OrderSide × Rat × PositionStatus :=
  (position.quantity, position.side, position.avgEntryPrice, position.status)

namespace RiskManager

def remove (manager : RiskManager) (symbol : String) : RiskManager :=
  { manager with positions := manager.positions.erase symbol }

structure AnswersAlike (symbol : String) (calls : List RiskCall)
    (closed removed : RiskManager) : Prop where
  canOpenPosition : ∀ key quantity,
    closed.canOpenPosition key quantity = removed.canOpenPosition key quantity
  getPosition : Reopens symbol calls →
    (closed.getPosition symbol).map Position.terms =
      (removed.getPosition symbol).map Position.terms
  getUnrealizedPnL : Remarks symbol calls →
    closed.getUnrealizedPnL = removed.getUnrealizedPnL

/-- Closing a symbol is as good as removing it, all along a continuation. -/
def ClosesLikeRemoval (manager : RiskManager) (symbol : String)
    (calls : List RiskCall) : Prop :=
  ∀ before after, calls = before ++ after →
    AnswersAlike symbol before ((manager.closePosition symbol).run before)
      ((manager.remove symbol).run before)

/-- No order of a symbol is refused because of the quantity held. -/
def HoldingNeverRefused (manager : RiskManager) (held : UInt64) : Prop :=
  held = 0 ∨ manager.limits.maxPositionSize < 0 ∨
    2 ^ 64 - 1 ≤ manager.limits.maxPositionSize

/-- Managers that differ only in a symbol that one of them does not have. -/
structure Remembers (symbol : String) (held : UInt64)
    (closed removed : RiskManager) : Prop where
  limits : closed.limits = removed.limits
  others : ∀ key ≠ symbol, closed.positions[key]? = removed.positions[key]?
  quantity : (closed.positions[symbol]?).map Position.quantity = some held
  absent : removed.positions[symbol]? = none

theorem remembers_close {manager : RiskManager} {symbol : String}
    {position : Position} (stored : manager.positions[symbol]? = some position) :
    Remembers symbol position.quantity (manager.closePosition symbol)
      (manager.remove symbol) where
  limits := closePosition_limits ..
  others key differ := by
    rw [closePosition_positions, remove, Std.ExtTreeMap.getElem?_erase]
    simp [differ, differ.symm]
  quantity := by simp [closePosition_positions, stored]
  absent := by simp [remove]

theorem Remembers.apply {symbol : String} {held : UInt64}
    {closed removed : RiskManager}
    (remembers : Remembers symbol held closed removed) {call : RiskCall}
    (trading : call.Trading)
    (elsewhere : ∀ trade ∈ call.trade?, trade.symbol ≠ symbol) :
    Remembers symbol held (call.apply closed) (call.apply removed) := by
  cases call with
  | updatePosition trade contents =>
      have differ : symbol ≠ trade.symbol := (elsewhere trade rfl).symm
      exact
        { limits := by simp [RiskCall.apply, remembers.limits]
          others := fun key other => by
            simp only [RiskCall.apply, updatePosition_positions,
              remembers.others key other]
          quantity := by
            simpa [RiskCall.apply, updatePosition_positions, differ] using
              remembers.quantity
          absent := by
            simpa [RiskCall.apply, updatePosition_positions, differ] using
              remembers.absent }
  | updateMarketPrice marked price =>
      exact
        { limits := by simp [RiskCall.apply, remembers.limits]
          others := fun key other => by
            simp only [RiskCall.apply, updateMarketPrice_positions,
              remembers.others key other]
          quantity := by
            rw [RiskCall.apply, updateMarketPrice_positions, Option.map_map,
              ← remembers.quantity]
            congr 1
            funext position
            dsimp only [Function.comp_apply]
            split <;> rfl
          absent := by
            simp [RiskCall.apply, updateMarketPrice_positions,
              remembers.absent] }
  | closePosition other => exact trading.elim
  | setRiskLimits limits => exact trading.elim

theorem Remembers.run {symbol : String} {held : UInt64}
    {closed removed : RiskManager}
    (remembers : Remembers symbol held closed removed) {calls : List RiskCall}
    (trading : ∀ call ∈ calls, call.Trading)
    (elsewhere : ¬ Reopens symbol calls) :
    Remembers symbol held (closed.run calls) (removed.run calls) := by
  induction calls generalizing closed removed with
  | nil => exact remembers
  | cons call rest induction =>
      have elsewhere : ∀ trade ∈ RiskCall.trades (call :: rest),
          trade.symbol ≠ symbol :=
        fun trade member same => elsewhere ⟨trade, member, same⟩
      refine induction (remembers.apply (trading call List.mem_cons_self) ?_)
        (fun other member => trading other (List.mem_cons_of_mem _ member)) ?_
      · intro trade booked
        exact elsewhere trade
          (List.mem_append_left _ (Option.mem_toList.mpr booked))
      · intro reopens
        obtain ⟨trade, member, same⟩ := reopens
        exact elsewhere trade (List.mem_append_right _ member) same

theorem Remembers.canOpenPosition_eq {symbol : String} {held : UInt64}
    {closed removed : RiskManager}
    (remembers : Remembers symbol held closed removed)
    (unrefused : removed.HoldingNeverRefused held) (key : String)
    (quantity : UInt64) :
    closed.canOpenPosition key quantity =
      removed.canOpenPosition key quantity := by
  rw [Bool.eq_iff_iff, canOpenPosition_eq_true, canOpenPosition_eq_true,
    remembers.limits]
  rcases eq_or_ne key symbol with rfl | other
  · rw [remembers.quantity, remembers.absent]
    refine and_congr_right fun within => ?_
    simp only [Option.getD_some, Option.map_none, Option.getD_none,
      UInt64.zero_add, within, iff_true]
    rcases unrefused with rfl | negative | wide
    · simpa using within
    · exact absurd (within.trans_lt negative) (not_lt.mpr (Nat.cast_nonneg _))
    · refine le_trans ?_ wide
      have below := (held + quantity).toNat_lt
      have capped : (held + quantity).toNat ≤ 2 ^ 64 - 1 := by omega
      calc
        ((held + quantity).toNat : Rat) ≤ ((2 ^ 64 - 1 : Nat) : Rat) :=
          Nat.cast_le.mpr capped
        _ = 2 ^ 64 - 1 := by norm_num
  · rw [remembers.others key other]

theorem Remembers.holdingNeverRefused {symbol : String} {held : UInt64}
    {closed removed : RiskManager}
    (remembers : Remembers symbol held closed removed)
    (alike : ∀ quantity, closed.canOpenPosition symbol quantity =
      removed.canOpenPosition symbol quantity) :
    removed.HoldingNeverRefused held := by
  by_contra refused
  simp only [HoldingNeverRefused, not_or, not_lt, not_le] at refused
  obtain ⟨some, nonneg, narrow⟩ := refused
  have positive : held.toNat ≠ 0 := by
    simpa [← UInt64.toNat_inj] using some
  -- the largest quantity that may be ordered at all
  obtain ⟨most, most_le, lt_succ⟩ : ∃ most : Nat,
      (most : Rat) ≤ removed.limits.maxPositionSize ∧
        removed.limits.maxPositionSize < (most + 1 : Nat) :=
    ⟨⌊removed.limits.maxPositionSize⌋₊, Nat.floor_le nonneg, by
      exact_mod_cast Nat.lt_floor_add_one _⟩
  have most_lt : most < 2 ^ 64 - 1 := by
    have below : (most : Rat) < ((2 ^ 64 - 1 : Nat) : Rat) := by
      calc
        (most : Rat) ≤ removed.limits.maxPositionSize := most_le
        _ < 2 ^ 64 - 1 := narrow
        _ = _ := by norm_num
    exact Nat.cast_lt.mp below
  have held_lt := held.toNat_lt
  -- just enough to exceed it together with what is held
  obtain ⟨quantity, small, above⟩ : ∃ quantity : UInt64,
      quantity.toNat ≤ most ∧ most < (held + quantity).toNat := by
    refine ⟨UInt64.ofNat (most + 1 - held.toNat), ?_, ?_⟩
    · rw [UInt64.toNat_ofNat']
      omega
    · rw [UInt64.toNat_add, UInt64.toNat_ofNat']
      omega
  have agree := Bool.eq_iff_iff.mp (alike quantity)
  rw [canOpenPosition_eq_true, canOpenPosition_eq_true, remembers.limits,
    remembers.quantity, remembers.absent] at agree
  have within : (quantity.toNat : Rat) ≤ removed.limits.maxPositionSize :=
    (Nat.cast_le.mpr small).trans most_le
  have admitted := (agree.mpr ⟨within, by simpa using within⟩).2
  have exceeds : removed.limits.maxPositionSize < (held + quantity).toNat :=
    lt_succ.trans_le (Nat.cast_le.mpr above)
  exact absurd admitted (not_le.mpr exceeds)

private def StatusIs (status : PositionStatus) (symbol : String)
    (manager : RiskManager) : Prop :=
  ∀ position, manager.positions[symbol]? = some position →
    position.status = status

private theorem StatusIs.apply {status : PositionStatus} {symbol : String}
    {manager : RiskManager} (stands : StatusIs status symbol manager)
    (opens : status = .opened ∨ ∃ position,
      manager.positions[symbol]? = some position)
    {call : RiskCall} (trading : call.Trading) :
    StatusIs status symbol (call.apply manager) := by
  intro position stored
  cases call with
  | updatePosition trade contents =>
      rw [RiskCall.apply, updatePosition_positions] at stored
      split at stored
      next same =>
          cases held : manager.positions[symbol]? with
          | none =>
              rw [held] at stored opens
              cases stored
              rcases opens with opens | ⟨position, absurd⟩
              · exact opens.symm
              · cases absurd
          | some earlier =>
              rw [held] at stored
              cases stored
              exact stands earlier held
      next => exact stands position stored
  | updateMarketPrice marked price =>
      rw [RiskCall.apply, updateMarketPrice_positions] at stored
      obtain ⟨earlier, held, rfl⟩ := Option.map_eq_some_iff.mp stored
      split <;> exact stands earlier held
  | closePosition other => exact trading.elim
  | setRiskLimits limits => exact trading.elim

private theorem stays_held {symbol : String} {manager : RiskManager}
    (held : ∃ position, manager.positions[symbol]? = some position)
    (call : RiskCall) :
    ∃ position, (call.apply manager).positions[symbol]? = some position := by
  rw [← Option.isSome_iff_exists] at held ⊢
  exact (manager.stored_apply call symbol).mpr (.inl held)

theorem stays_closed {symbol : String} {manager : RiskManager}
    {calls : List RiskCall}
    (stored : ∃ position, manager.positions[symbol]? = some position ∧
      position.status = .closed)
    (trading : ∀ call ∈ calls, call.Trading) :
    ∃ position, (manager.run calls).positions[symbol]? = some position ∧
      position.status = .closed := by
  apply manager.run_preserves fun later =>
    ∃ position, later.positions[symbol]? = some position ∧
      position.status = .closed
  · exact stored
  · intro call member earlier holds
    obtain ⟨position, stored, closed⟩ := holds
    have stands : StatusIs .closed symbol earlier := by
      intro other found
      rw [stored] at found
      cases found
      exact closed
    have now := trading call member
    obtain ⟨next, held⟩ := stays_held ⟨position, stored⟩ call
    exact ⟨next, held, stands.apply (.inr ⟨position, stored⟩) now next held⟩

theorem reopens_opened {symbol : String} {manager : RiskManager}
    {calls : List RiskCall}
    (opened : ∀ position, manager.positions[symbol]? = some position →
      position.status = .opened)
    (trading : ∀ call ∈ calls, call.Trading) :
    ∀ position, (manager.run calls).positions[symbol]? = some position →
      position.status = .opened := by
  apply manager.run_preserves (StatusIs .opened symbol)
  · exact opened
  · intro call member earlier stands
    exact stands.apply (.inl rfl) (trading call member)

/-- After another trade of the symbol the answers differ: the position is open
in one run and still closed in the other. -/
theorem ClosesLikeRemoval.not_reopened {manager : RiskManager}
    {symbol : String} {calls : List RiskCall}
    (alike : manager.ClosesLikeRemoval symbol calls) {position : Position}
    (stored : manager.positions[symbol]? = some position)
    (trading : ∀ call ∈ calls, call.Trading) : ¬ Reopens symbol calls := by
  intro reopens
  have answers := (alike calls [] (by simp)).getPosition reopens
  have held : (manager.closePosition symbol).positions[symbol]? =
      some { position with status := .closed } := by
    rw [closePosition_positions, stored]
    simp
  obtain ⟨kept, found, closed⟩ := stays_closed ⟨_, held, rfl⟩ trading
  have absent : ∀ other, (manager.remove symbol).positions[symbol]? =
      some other → other.status = .opened := by
    simp [remove]
  rw [getPosition, getPosition, found, Option.map_some] at answers
  obtain ⟨other, reopened, equal⟩ := Option.map_eq_some_iff.mp answers.symm
  have status : other.status = kept.status :=
    congrArg (fun terms => terms.2.2.2) equal
  rw [reopens_opened absent trading other reopened, closed] at status
  cases status

theorem Remembers.answersAlike {symbol : String} {held : UInt64}
    {closed removed : RiskManager}
    (remembers : Remembers symbol held closed removed)
    (unrefused : removed.HoldingNeverRefused held) {calls : List RiskCall}
    (unopened : ¬ Reopens symbol calls) :
    AnswersAlike symbol calls closed removed where
  canOpenPosition := remembers.canOpenPosition_eq unrefused
  getPosition reopens := absurd reopens unopened
  getUnrealizedPnL remarks := absurd remarks.reopens unopened

/-- Closing a position ends it exactly as long as its symbol is not traded
again and holding it never matters. -/
theorem closesLikeRemoval_iff {manager : RiskManager} {symbol : String}
    {position : Position} (stored : manager.positions[symbol]? = some position)
    {calls : List RiskCall} (trading : ∀ call ∈ calls, call.Trading) :
    manager.ClosesLikeRemoval symbol calls ↔
      (∀ trade ∈ RiskCall.trades calls, trade.symbol ≠ symbol) ∧
        manager.HoldingNeverRefused position.quantity := by
  have remembers := remembers_close stored
  constructor
  · intro alike
    constructor
    · intro trade booked same
      exact alike.not_reopened stored trading ⟨trade, booked, same⟩
    · exact remembers.holdingNeverRefused
        ((alike [] calls rfl).canOpenPosition symbol)
  · intro ends before after split
    obtain ⟨elsewhere, unrefused⟩ := ends
    subst split
    have trading : ∀ call ∈ before, call.Trading :=
      fun call member => trading call (List.mem_append_left _ member)
    have unopened : ¬ Reopens symbol before := by
      intro reopens
      obtain ⟨trade, booked, same⟩ := reopens.append after
      exact elsewhere trade booked same
    refine (remembers.run trading unopened).answersAlike ?_ unopened
    unfold HoldingNeverRefused
    rwa [run_limits _ trading]

private def heldBefore : RiskManager :=
  init.run [.updatePosition (tradeOf "AAPL" .buy 100 90) untouched]

private def heldPosition : Position :=
  openedPosition (tradeOf "AAPL" .buy 100 90) untouched

private def unlimitedBefore : RiskManager :=
  heldBefore.setRiskLimits
    { heldBefore.limits with maxPositionSize := 2 ^ 64 }

private def elsewhere : List RiskCall :=
  [.updateMarketPrice "AAPL" 95,
    .updatePosition (tradeOf "MSFT" .buy 10 20) untouched]

private def reopening : List RiskCall :=
  [.updatePosition (tradeOf "AAPL" .buy 50 91) untouched]

/-- With no limit on the size, marks and trades of other symbols do not tell a
closed position from none, and reopening it does. -/
theorem closesLikeRemoval_iff_unlimited :
    unlimitedBefore.ClosesLikeRemoval "AAPL" elsewhere ∧
      ¬ unlimitedBefore.ClosesLikeRemoval "AAPL" reopening := by
  have stored : unlimitedBefore.positions["AAPL"]? = some heldPosition := by
    decide +kernel
  constructor
  · apply (closesLikeRemoval_iff stored
      (show ∀ call ∈ elsewhere, call.Trading by decide)).mpr
    exact ⟨by decide, .inr (.inr (by decide +kernel))⟩
  · intro alike
    have ends := (closesLikeRemoval_iff stored
      (show ∀ call ∈ reopening, call.Trading by decide)).mp alike
    exact ends.1 _ List.mem_cons_self rfl

/-- A closed position of 100 that a trade of 50 reopens is a closed one
of 150. -/
theorem reopened_position_stays_closed :
    ¬ heldBefore.ClosesLikeRemoval "AAPL" reopening := by
  intro alike
  have answers := (alike reopening [] rfl).getPosition
    ⟨tradeOf "AAPL" .buy 50 91, List.mem_cons_self, rfl⟩
  revert answers
  decide +kernel

end RiskManager

end TradingBot
