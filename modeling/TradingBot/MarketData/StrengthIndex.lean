import TradingBot.MarketData.Indicators
import TradingBot.MarketData.History

namespace TradingBot

open Library

/-! `calculateRSI` as the share of the gains in the last price changes. -/

namespace MarketDataHandler

def storedPrices (handler : MarketDataHandler) (symbol : String) : List Rat :=
  ((handler.symbolDataMap[symbol]?).elim [] SymbolData.tickHistory).map
    MarketTick.lastPrice

/-- The prices of the last `period + 1` ticks, counted without wrapping. -/
def changeWindow (handler : MarketDataHandler) (symbol : String)
    (period : UInt64) : List Rat :=
  (handler.storedPrices symbol).rtake (period.toNat + 1)

def totalGain (handler : MarketDataHandler) (symbol : String)
    (period : UInt64) : Rat :=
  rise (handler.changeWindow symbol period)

def totalLoss (handler : MarketDataHandler) (symbol : String)
    (period : UInt64) : Rat :=
  fall (handler.changeWindow symbol period)

def gainShare (handler : MarketDataHandler) (symbol : String)
    (period : UInt64) : Rat :=
  upwardShare (handler.totalGain symbol period)
    (handler.totalLoss symbol period)

theorem recentPrices_eq (handler : MarketDataHandler) (symbol : String)
    (limit : UInt64) :
    handler.recentPrices symbol limit =
      (handler.storedPrices symbol).rtake limit.toNat := by
  rw [recentPrices, getTickHistory_eq, map_rtake, storedPrices]

theorem toNat_succ {period : UInt64} (bounded : period.toNat < 2 ^ 64 - 1) :
    (period + 1).toNat = period.toNat + 1 := by
  rw [UInt64.toNat_add, UInt64.toNat_one, Nat.mod_eq_of_lt (by omega)]

theorem recentPrices_succ (handler : MarketDataHandler) (symbol : String)
    {period : UInt64} (bounded : period.toNat < 2 ^ 64 - 1) :
    handler.recentPrices symbol (period + 1) =
      handler.changeWindow symbol period := by
  rw [recentPrices_eq, toNat_succ bounded, changeWindow]

theorem length_changeWindow_lt (handler : MarketDataHandler) (symbol : String)
    (period : UInt64) :
    (handler.changeWindow symbol period).length < period.toNat + 1 ↔
      (handler.storedPrices symbol).length < period.toNat + 1 := by
  rw [changeWindow, length_rtake]
  omega

theorem calculateRSI_eq_share (handler : MarketDataHandler) (symbol : String)
    {period : UInt64} (counted : period ≠ 0)
    (bounded : period.toNat < 2 ^ 64 - 1) :
    handler.calculateRSI symbol period =
      if (handler.storedPrices symbol).length < period.toNat + 1 then some 50
      else some (100 * handler.gainShare symbol period) := by
  rw [calculateRSI_eq handler symbol counted,
    recentPrices_succ handler symbol bounded, toNat_succ bounded]
  simp only [length_changeWindow_lt]
  rfl

section Enough

variable {handler : MarketDataHandler} {symbol : String} {period : UInt64}

theorem calculateRSI_of_enough (counted : 1 ≤ period.toNat)
    (bounded : period.toNat < 2 ^ 64 - 1)
    (enough : period.toNat + 1 ≤ (handler.storedPrices symbol).length) :
    handler.calculateRSI symbol period =
      some (100 * handler.gainShare symbol period) := by
  have nonzero : period ≠ 0 := by
    rintro rfl
    exact Nat.not_succ_le_zero 0 counted
  rw [calculateRSI_eq_share handler symbol nonzero bounded,
    if_neg (Nat.not_lt.mpr enough)]

theorem totalGain_nonneg : 0 ≤ handler.totalGain symbol period :=
  rise_nonneg _

theorem totalLoss_nonneg : 0 ≤ handler.totalLoss symbol period :=
  fall_nonneg _

/-- A share in hundredths. -/
theorem hundred_gainShare_mem :
    0 ≤ 100 * handler.gainShare symbol period ∧
      100 * handler.gainShare symbol period ≤ 100 := by
  have above : 0 ≤ handler.gainShare symbol period :=
    upwardShare_nonneg totalGain_nonneg totalLoss_nonneg
  have below : handler.gainShare symbol period ≤ 1 :=
    upwardShare_le_one totalGain_nonneg totalLoss_nonneg
  constructor
  · linarith
  · linarith

section Changed

variable {other : MarketDataHandler}

theorem changeWindow_map {change : Rat → Rat}
    (changed : other.storedPrices symbol =
      (handler.storedPrices symbol).map change) :
    other.changeWindow symbol period =
      (handler.changeWindow symbol period).map change := by
  rw [changeWindow, changed, ← map_rtake, changeWindow]

theorem gainShare_scaled {factor : Rat} (positive : 0 < factor)
    (scaled : other.storedPrices symbol =
      (handler.storedPrices symbol).map (factor * ·)) :
    other.gainShare symbol period = handler.gainShare symbol period := by
  rw [gainShare, totalGain, totalLoss, changeWindow_map scaled,
    rise_map_mul positive.le, fall_map_mul positive.le,
    upwardShare_mul positive, gainShare, totalGain, totalLoss]

theorem gainShare_shifted {shift : Rat}
    (shifted : other.storedPrices symbol =
      (handler.storedPrices symbol).map (· + shift)) :
    other.gainShare symbol period = handler.gainShare symbol period := by
  rw [gainShare, totalGain, totalLoss, changeWindow_map shifted,
    rise_map_add, fall_map_add, gainShare, totalGain, totalLoss]

theorem changeWindow_concat {older : List Rat} {newest : Rat}
    (stored : handler.storedPrices symbol = older ++ [newest]) :
    handler.changeWindow symbol period =
      older.rtake period.toNat ++ [newest] := by
  rw [changeWindow, stored, List.rtake_concat_succ]

theorem gainShare_replaced {older : List Rat} {newest larger : Rat}
    (stored : handler.storedPrices symbol = older ++ [newest])
    (replaced : other.storedPrices symbol = older ++ [larger])
    (above : newest ≤ larger) :
    handler.gainShare symbol period ≤ other.gainShare symbol period := by
  apply upwardShare_mono totalGain_nonneg _ _ totalLoss_nonneg
  · rw [totalGain, totalGain, changeWindow_concat stored,
      changeWindow_concat replaced]
    exact rise_concat_mono _ above
  · rw [totalLoss, totalLoss, changeWindow_concat stored,
      changeWindow_concat replaced]
    exact fall_concat_anti _ above

end Changed

end Enough

/-- With `period + 1` ticks stored, the index is the gains' share of the last
`period` changes, in hundredths; it does not see the prices' unit or origin,
and a larger newest price never lowers it. -/
theorem rsi_is_share_of_gains (handler : MarketDataHandler) (symbol : String)
    (period : UInt64) (counted : 1 ≤ period.toNat)
    (bounded : period.toNat < 2 ^ 64 - 1)
    (enough : period.toNat + 1 ≤ (handler.storedPrices symbol).length) :
    (0 < handler.totalLoss symbol period →
      handler.calculateRSI symbol period =
        some (100 * handler.totalGain symbol period /
          (handler.totalGain symbol period +
            handler.totalLoss symbol period))) ∧
    (handler.totalLoss symbol period = 0 →
      handler.calculateRSI symbol period = some 100) ∧
    (∃ value, handler.calculateRSI symbol period = some value ∧
      0 ≤ value ∧ value ≤ 100) ∧
    (∀ (other : MarketDataHandler) (factor : Rat), 0 < factor →
      other.storedPrices symbol =
        (handler.storedPrices symbol).map (factor * ·) →
      other.calculateRSI symbol period =
        handler.calculateRSI symbol period) ∧
    (∀ (other : MarketDataHandler) (shift : Rat),
      other.storedPrices symbol =
        (handler.storedPrices symbol).map (· + shift) →
      other.calculateRSI symbol period =
        handler.calculateRSI symbol period) ∧
    ∀ (other : MarketDataHandler) (older : List Rat) (newest larger : Rat),
      handler.storedPrices symbol = older ++ [newest] →
      other.storedPrices symbol = older ++ [larger] → newest ≤ larger →
      ∃ before after, handler.calculateRSI symbol period = some before ∧
        other.calculateRSI symbol period = some after ∧ before ≤ after := by
  have index := calculateRSI_of_enough counted bounded enough
  have sameCount : ∀ other : MarketDataHandler,
      (other.storedPrices symbol).length =
        (handler.storedPrices symbol).length →
      other.calculateRSI symbol period =
        some (100 * other.gainShare symbol period) :=
    fun other same => calculateRSI_of_enough counted bounded (same ▸ enough)
  refine ⟨fun falls => ?_, fun still => ?_, ⟨_, index, ?_⟩, ?_, ?_, ?_⟩
  · rw [index, gainShare, upwardShare, if_neg falls.ne', mul_div_assoc]
  · rw [index, gainShare, upwardShare, if_pos still, mul_one]
  · exact hundred_gainShare_mem
  · intro other factor positive scaled
    rw [sameCount other (by rw [scaled, List.length_map]), index,
      gainShare_scaled positive scaled]
  · intro other shift shifted
    rw [sameCount other (by rw [shifted, List.length_map]), index,
      gainShare_shifted shifted]
  · intro other older newest larger stored replaced above
    refine ⟨_, _, index, sameCount other (by simp [stored, replaced]), ?_⟩
    exact mul_le_mul_of_nonneg_left
      (gainShare_replaced stored replaced above) (by norm_num)

private def quotedPrices (prices : List Rat) : MarketDataHandler :=
  (prices.map fun lastPrice =>
    { (default : MarketTick) with symbol := "AAPL", lastPrice }).foldl
      (fun handler tick => (handler.publishTick (fun _ => false) tick).1)
      (init.subscribe "AAPL" 0)

theorem rsi_is_share_of_gains_one_three_two :
    (quotedPrices [1, 3, 2]).calculateRSI "AAPL" 2 = some (200 / 3) := by
  have index := (rsi_is_share_of_gains (quotedPrices [1, 3, 2]) "AAPL" 2
    (by decide) (by decide) (by decide +kernel)).1 (by decide +kernel)
  rw [index]
  decide +kernel

end MarketDataHandler

end TradingBot
