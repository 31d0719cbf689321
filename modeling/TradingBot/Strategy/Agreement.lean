import TradingBot.Strategy
import TradingBot.MarketData.Delivery
import TradingBot.MarketData.History

namespace TradingBot

open Library

/-! The strategies' own indicators against the market data's: all prices since
the first against the last ones of a window. -/

/-- Some calls, then the publishing of some ticks. -/
def publishing (setup : List MarketEvent) (ticks : List MarketTick) :
    List MarketEvent :=
  setup ++ ticks.map .publishTick

theorem publishing_concat (setup : List MarketEvent)
    (ticks : List MarketTick) (tick : MarketTick) :
    publishing setup (ticks ++ [tick]) =
      publishing setup ticks ++ [.publishTick tick] := by
  simp [publishing]

/-- The listener is subscribed once to the symbol and to nothing else, and
nothing is published yet. -/
structure SubscribedOnce (setup : List MarketEvent) (symbol : String)
    (listener : ListenerId) : Prop where
  subscribing : ∀ event ∈ setup, ∃ key other, event = .subscribe key other
  once : setup.count (.subscribe symbol listener) = 1
  nowhereElse : ∀ key, .subscribe key listener ∈ setup → key = symbol

/-- A `MomentumStrategy` and a `MeanReversionStrategy` on one symbol, both with
the window of the market data's indicators. -/
structure Comparison where
  symbol : String
  window : UInt64
  setup : List MarketEvent
  momentum : ListenerId
  sensitivity : Rat
  meanReversion : ListenerId
  threshold : Rat
  wide : 2 ≤ window
  within : window ≤ 10000
  momentumSubscribed : SubscribedOnce setup symbol momentum
  meanReversionSubscribed : SubscribedOnce setup symbol meanReversion

namespace Comparison

variable (comparison : Comparison)

/-- The market after the ticks were published. -/
def market (ticks : List MarketTick) : Market :=
  .after (publishing comparison.setup ticks)

def momentumStrategy (ticks : List MarketTick) : MomentumStrategy :=
  ((comparison.market ticks).noticesTo comparison.momentum).foldl
    MomentumStrategy.onNotice
    (.new comparison.symbol comparison.window comparison.sensitivity)

def meanReversionStrategy (ticks : List MarketTick) : MeanReversionStrategy :=
  ((comparison.market ticks).noticesTo comparison.meanReversion).foldl
    MeanReversionStrategy.onNotice
    (.new comparison.symbol comparison.window comparison.threshold)

structure IndicatorsAgree (ticks : List MarketTick) : Prop where
  momentum : (comparison.momentumStrategy ticks).calculateMomentum =
    (comparison.market ticks).handler.calculateMomentum comparison.symbol
      comparison.window
  variance : (comparison.meanReversionStrategy ticks).stdDevVariance =
    (comparison.market ticks).handler.volatilityVariance comparison.symbol
      comparison.window

end Comparison

def pricesOf (symbol : String) (ticks : List MarketTick) : List Rat :=
  ticks.filterMap fun tick =>
    if tick.symbol = symbol then some tick.lastPrice else none

theorem pricesOf_concat (symbol : String) (ticks : List MarketTick)
    (tick : MarketTick) :
    pricesOf symbol (ticks ++ [tick]) =
      pricesOf symbol ticks ++
        if tick.symbol = symbol then [tick.lastPrice] else [] := by
  rw [pricesOf, filterMap_concat, pricesOf]
  split <;> rfl

/-- The momentum and the variance of all prices are those of the window. -/
def AgreesWithWindow (size : Nat) (prices : List Rat) : Prop :=
  priceMomentum prices = priceMomentum (prices.rtake size) ∧
    variance prices = variance (prices.rtake size)

/-- A full window starts with the price that all of the prices started
with. -/
def StartsWithFirst (size : Nat) (prices : List Rat) : Prop :=
  size < prices.length → (prices.rtake size).headD 0 = prices.headD 0

/-- Once more prices have come than the window holds, the window starts with
the price that all of them started with, and the deviations from it balance. -/
def BalancesFirstPrice (size : Nat) (prices : List Rat) : Prop :=
  size < prices.length →
    (prices.rtake size).headD 0 = prices.headD 0 ∧
      (prices.length * size : Rat) *
          squaredDeviation (prices.headD 0) (prices.rtake size) =
        (prices.length + size) *
          deviation (prices.headD 0) (prices.rtake size) ^ 2

instance (size : Nat) : DecidablePred (BalancesFirstPrice size) :=
  fun _ => inferInstanceAs (Decidable (_ → _))

namespace SubscribedOnce

variable {setup : List MarketEvent} {symbol : String} {listener : ListenerId}

theorem copies_eq (subscribed : SubscribedOnce setup symbol listener)
    (ticks : List MarketTick) (key : String) :
    copies (publishing setup ticks) key listener =
      if key = symbol then 1 else 0 := by
  have subscribes : ∀ event ∈ publishing setup ticks,
      (∃ other new, event = .subscribe other new) ∨
        ∃ tick, event = .publishTick tick := by
    intro event member
    rcases List.mem_append.mp member with member | member
    · exact .inl (subscribed.subscribing event member)
    · obtain ⟨tick, _, rfl⟩ := List.mem_map.mp member
      exact .inr ⟨tick, rfl⟩
  have live : .destroy listener ∉ publishing setup ticks := by
    intro member
    rcases subscribes _ member with ⟨_, _, same⟩ | ⟨_, same⟩
    · cases same
    · cases same
  have kept : (publishing setup ticks).rtakeWhile
      (fun event => decide (event ≠ .unsubscribe key listener)) =
        publishing setup ticks := by
    rw [List.rtakeWhile_eq_self_iff]
    intro event member
    rcases subscribes event member with ⟨_, _, rfl⟩ | ⟨_, rfl⟩
    · rfl
    · rfl
  have published : (ticks.map MarketEvent.publishTick).count
      (.subscribe key listener) = 0 := by
    rw [List.count_eq_zero]
    simp
  rw [copies, if_neg live, subscriptions, kept, publishing, List.count_append,
    published, Nat.add_zero]
  split
  next same => rw [same, subscribed.once]
  next differ =>
      rw [List.count_eq_zero]
      exact fun member => differ (subscribed.nowhereElse key member)

theorem noticesTo_setup (subscribed : SubscribedOnce setup symbol listener)
    (other : ListenerId) : (Market.after setup).noticesTo other = [] := by
  rw [Market.noticesTo_after]
  have subscribing := subscribed.subscribing
  generalize setup = events at subscribing
  induction events using List.reverseRecOn with
  | nil => rfl
  | append_singleton events event induction =>
      obtain ⟨key, new, rfl⟩ := subscribing event (by simp)
      have silent : noticesDue other events (.subscribe key new) = [] := rfl
      rw [eachAfter_concat, silent, List.append_nil]
      exact induction fun earlier member =>
        subscribing earlier (List.mem_append_left _ member)

/-- The listener is called with every tick of its symbol. -/
theorem noticedPrices_eq (subscribed : SubscribedOnce setup symbol listener)
    (ticks : List MarketTick) :
    noticedPrices
        ((Market.after (publishing setup ticks)).noticesTo listener) =
      pricesOf symbol ticks := by
  induction ticks using List.reverseRecOn with
  | nil =>
      rw [publishing, List.map_nil, List.append_nil,
        subscribed.noticesTo_setup]
      rfl
  | append_singleton ticks tick induction =>
      rw [Market.noticesTo_after, noticedPrices] at induction ⊢
      rw [publishing_concat, eachAfter_concat, List.filterMap_append, induction,
        noticesDue, subscribed.copies_eq, pricesOf_concat]
      split <;> rfl

theorem sinceSubscribed_ne_nil (subscribed : SubscribedOnce setup symbol listener)
    (ticks : List MarketTick) :
    sinceSubscribed (publishing setup ticks) symbol ≠ [] := by
  have member : .subscribe symbol listener ∈ setup :=
    List.count_pos_iff.mp (by rw [subscribed.once]; exact Nat.one_pos)
  intro absent
  rw [sinceSubscribed, List.dropWhile_eq_nil_iff] at absent
  have skipped := absent _ (List.mem_append_left _ member)
  simp [MarketEvent.subscribes] at skipped

theorem ticksOf_setup (subscribed : SubscribedOnce setup symbol listener) :
    ticksOf setup symbol = [] := by
  rw [ticksOf, List.filterMap_eq_nil_iff]
  intro event member
  obtain ⟨key, new, rfl⟩ := subscribed.subscribing event
    ((List.dropWhile_sublist _).mem member)
  rfl

theorem map_ticksOf (subscribed : SubscribedOnce setup symbol listener)
    (ticks : List MarketTick) :
    (ticksOf (publishing setup ticks) symbol).map MarketTick.lastPrice =
      pricesOf symbol ticks := by
  induction ticks using List.reverseRecOn with
  | nil =>
      rw [publishing, List.map_nil, List.append_nil, subscribed.ticksOf_setup]
      rfl
  | append_singleton ticks tick induction =>
      rw [publishing_concat, ticksOf_concat,
        if_neg (subscribed.sinceSubscribed_ne_nil ticks), List.map_append,
        induction, pricesOf_concat, MarketEvent.tick?]
      split <;> rfl

end SubscribedOnce

namespace Comparison

variable (comparison : Comparison) (ticks : List MarketTick)

theorem momentumStrategy_prices :
    (comparison.momentumStrategy ticks).prices =
      pricesOf comparison.symbol ticks := by
  rw [momentumStrategy, prices_foldl MomentumStrategy.pushes, market,
    comparison.momentumSubscribed.noticedPrices_eq]
  rfl

theorem meanReversionStrategy_prices :
    (comparison.meanReversionStrategy ticks).prices =
      pricesOf comparison.symbol ticks := by
  rw [meanReversionStrategy, prices_foldl MeanReversionStrategy.pushes, market,
    comparison.meanReversionSubscribed.noticedPrices_eq]
  rfl

theorem recentPrices_eq :
    (comparison.market ticks).handler.recentPrices comparison.symbol
        comparison.window =
      (pricesOf comparison.symbol ticks).rtake comparison.window.toNat := by
  have within : comparison.window.toNat ≤ maxHistorySize :=
    UInt64.le_iff_toNat_le.mp comparison.within
  rw [MarketDataHandler.recentPrices, market, getTickHistory_after,
    Nat.min_eq_left within, map_rtake,
    comparison.momentumSubscribed.map_ticksOf]

/-- The indicators of all prices against those of the last ones. -/
theorem indicatorsAgree_iff :
    comparison.IndicatorsAgree ticks ↔
      AgreesWithWindow comparison.window.toNat
        (pricesOf comparison.symbol ticks) := by
  rw [AgreesWithWindow, ← comparison.recentPrices_eq]
  constructor
  · intro agree
    have momentum := agree.momentum
    have spread := agree.variance
    rw [MomentumStrategy.calculateMomentum,
      comparison.momentumStrategy_prices] at momentum
    rw [MeanReversionStrategy.stdDevVariance_eq,
      MarketDataHandler.volatilityVariance_eq,
      comparison.meanReversionStrategy_prices] at spread
    exact ⟨momentum, Option.some.inj spread⟩
  · intro agree
    refine ⟨?_, ?_⟩
    · rw [MomentumStrategy.calculateMomentum,
        comparison.momentumStrategy_prices]
      exact agree.1
    · rw [MeanReversionStrategy.stdDevVariance_eq,
        MarketDataHandler.volatilityVariance_eq,
        comparison.meanReversionStrategy_prices, agree.2]

end Comparison

section Windows

variable {size : Nat} {prices : List Rat}

theorem headD_pos (positive : ∀ price ∈ prices, 0 < price)
    (nonempty : prices ≠ []) : 0 < prices.headD 0 := by
  cases prices with
  | nil => exact absurd rfl nonempty
  | cons first rest => exact positive first List.mem_cons_self

theorem getLastD_pos (positive : ∀ price ∈ prices, 0 < price)
    (nonempty : prices ≠ []) : 0 < prices.getLastD 0 := by
  rw [List.getLastD_eq_getLast?, List.getLast?_eq_some_getLast nonempty]
  exact positive _ (List.getLast_mem nonempty)

theorem priceMomentum_rtake_iff (wide : 2 ≤ size)
    (positive : ∀ price ∈ prices, 0 < price) (long : size < prices.length) :
    priceMomentum prices = priceMomentum (prices.rtake size) ↔
      (prices.rtake size).headD 0 = prices.headD 0 := by
  have held : (prices.rtake size).length = size := by
    rw [length_rtake, Nat.min_eq_left long.le]
  have nonempty : prices ≠ [] := List.length_pos_iff.mp (by omega)
  have windowed : prices.rtake size ≠ [] := List.length_pos_iff.mp (by omega)
  have within : ∀ price ∈ prices.rtake size, 0 < price := fun price member =>
    positive price (List.mem_of_mem_drop member)
  have first := (headD_pos positive nonempty).ne'
  have start := (headD_pos within windowed).ne'
  have last := (getLastD_pos positive nonempty).ne'
  have same : (prices.rtake size).getLastD 0 = prices.getLastD 0 := by
    rw [List.getLastD_eq_getLast?, List.getLastD_eq_getLast?,
      getLast?_rtake prices (by omega)]
  rw [priceMomentum_eq (by omega) first, priceMomentum_eq (by omega) start, same]
  generalize prices.headD 0 = first_, (prices.rtake size).headD 0 = start_,
    prices.getLastD 0 = last_ at first start last ⊢
  constructor
  · intro equal
    have ratios := mul_right_cancel₀ (by norm_num) (Option.some.inj equal)
    rw [div_eq_div_iff first start] at ratios
    have product : last_ * (start_ - first_) = 0 := by
      linear_combination ratios
    exact sub_eq_zero.mp ((mul_eq_zero.mp product).resolve_left last)
  · intro equal
    rw [equal]

/-- If every window so far started with the first price, so did everything
outside the last one. -/
theorem evicted_eq_first (wide : 2 ≤ size)
    (starts : EveryPrefix (StartsWithFirst size) prices)
    {price : Rat} (evicted : price ∈ prices.take (prices.length - size)) :
    price = prices.headD 0 := by
  obtain ⟨index, within, rfl⟩ := List.mem_take_iff_getElem.mp evicted
  rw [lt_min_iff] at within
  rcases Nat.eq_zero_or_pos index with rfl | later
  · cases prices with
    | nil => simp at within
    | cons first rest => rfl
  · have length : (prices.take (index + size)).length = index + size := by
      rw [List.length_take]
      omega
    have start := starts (prices.take (index + size))
      (prices.drop (index + size)) (List.take_append_drop _ _).symm (by omega)
    have head : (prices.take (index + size)).headD 0 = prices.headD 0 := by
      rw [List.headD_eq_head?_getD, List.head?_take, if_neg (by omega),
        List.headD_eq_head?_getD]
    rw [← head, ← start, List.rtake, length, Nat.add_sub_cancel,
      List.headD_eq_head?_getD, List.head?_drop,
      List.getElem?_take_of_lt (by omega), List.getElem?_eq_getElem within.2,
      Option.getD_some]

theorem variance_rtake_iff (wide : 2 ≤ size) (long : size < prices.length)
    (starts : EveryPrefix (StartsWithFirst size) prices) :
    variance prices = variance (prices.rtake size) ↔
      (prices.length * size : Rat) *
          squaredDeviation (prices.headD 0) (prices.rtake size) =
        (prices.length + size) *
          deviation (prices.headD 0) (prices.rtake size) ^ 2 := by
  have split : prices.take (prices.length - size) ++ prices.rtake size =
      prices := List.take_append_drop _ _
  have held : (prices.rtake size).length = size := by
    rw [length_rtake, Nat.min_eq_left long.le]
  have evicted : prices.take (prices.length - size) ≠ [] := by
    rw [← List.length_pos_iff, List.length_take]
    omega
  have kept : prices.rtake size ≠ [] := List.length_pos_iff.mp (by omega)
  have balance := variance_append_eq_iff
    (fun price member => evicted_eq_first wide starts member) evicted kept
  rwa [split, held] at balance

theorem agreesWithWindow_iff (wide : 2 ≤ size)
    (positive : ∀ price ∈ prices, 0 < price)
    (starts : EveryPrefix (StartsWithFirst size) prices) :
    AgreesWithWindow size prices ↔ BalancesFirstPrice size prices := by
  rcases Nat.lt_or_ge size prices.length with long | short
  · rw [AgreesWithWindow, priceMomentum_rtake_iff wide positive long,
      variance_rtake_iff wide long starts, BalancesFirstPrice,
      forall_prop_of_true long]
  · have whole : prices.rtake size = prices := by
      rw [List.rtake, Nat.sub_eq_zero_of_le short, List.drop_zero]
    refine iff_of_true ⟨by rw [whole], by rw [whole]⟩ fun long => ?_
    exact absurd long (Nat.not_lt.mpr short)

/-- All along a list of positive prices, both agree exactly if the windows
balance the first price. -/
theorem everyPrefix_agrees_iff (wide : 2 ≤ size)
    (positive : ∀ price ∈ prices, 0 < price) :
    EveryPrefix (AgreesWithWindow size) prices ↔
      EveryPrefix (BalancesFirstPrice size) prices := by
  have within : ∀ {earlier later : List Rat}, prices = earlier ++ later →
      ∀ price ∈ earlier, 0 < price := fun split price member =>
    positive price (split ▸ List.mem_append_left _ member)
  constructor
  · intro agrees earlier later split
    have starts : EveryPrefix (StartsWithFirst size) prices :=
      fun first rest again long =>
        (priceMomentum_rtake_iff wide (within again) long).mp
          (agrees first rest again).1
    rw [← agreesWithWindow_iff wide (within split) (split ▸ starts).append]
    exact agrees earlier later split
  · intro balances earlier later split
    have starts : EveryPrefix (StartsWithFirst size) prices :=
      fun first rest again long => (balances first rest again long).1
    rw [agreesWithWindow_iff wide (within split) (split ▸ starts).append]
    exact balances earlier later split

end Windows

namespace Comparison

/-- After every publish the strategies' indicators are those of the market data
exactly if, whenever the symbol has more ticks than the window, the window
starts with the symbol's first price and balances it. -/
theorem indicators_agree_iff (comparison : Comparison)
    {ticks : List MarketTick} (positive : ∀ tick ∈ ticks, 0 < tick.lastPrice) :
    EveryPrefix comparison.IndicatorsAgree ticks ↔
      EveryPrefix (fun published =>
        BalancesFirstPrice comparison.window.toNat
          (pricesOf comparison.symbol published)) ticks := by
  have wide : 2 ≤ comparison.window.toNat :=
    UInt64.le_iff_toNat_le.mp comparison.wide
  have priced : ∀ price ∈ pricesOf comparison.symbol ticks, 0 < price := by
    intro price member
    obtain ⟨tick, listed, chosen⟩ := List.mem_filterMap.mp member
    obtain ⟨_, same⟩ := Option.ite_none_right_eq_some.mp chosen
    cases same
    exact positive tick listed
  have balances := everyPrefix_agrees_iff wide priced
  rw [pricesOf, ← everyPrefix_filterMap, ← everyPrefix_filterMap] at balances
  simp only [EveryPrefix, comparison.indicatorsAgree_iff]
  exact balances

private def comparisonOver (window : UInt64) (wide : 2 ≤ window)
    (within : window ≤ 10000) : Comparison where
  symbol := "AAPL"
  window
  setup := [.subscribe "AAPL" 0, .subscribe "AAPL" 1]
  momentum := 0
  sensitivity := 1 / 2
  meanReversion := 1
  threshold := 2
  wide
  within
  momentumSubscribed :=
    { subscribing := by simp, once := by decide, nowhereElse := by simp }
  meanReversionSubscribed :=
    { subscribing := by simp, once := by decide, nowhereElse := by simp }

private def windowOfFive : Comparison :=
  comparisonOver 5 (by decide) (by decide)

private def windowOfTwo : Comparison :=
  comparisonOver 2 (by decide) (by decide)

private def pricedTick (lastPrice : Rat) : MarketTick :=
  { (default : MarketTick) with symbol := "AAPL", lastPrice }

private def balancedTicks : List MarketTick :=
  [20, 20, 8, 9, 12, 21].map pricedTick

/-- The sixth tick leaves the first price to a window of five that starts with
the same price and balances it. -/
theorem indicators_agree_iff_balanced :
    windowOfFive.window.toNat < balancedTicks.length ∧
      EveryPrefix windowOfFive.IndicatorsAgree balancedTicks := by
  refine ⟨by decide, ?_⟩
  apply (indicators_agree_iff windowOfFive (by decide +kernel)).mpr
  decide +kernel

/-- The strategy's momentum is 300, the market data's is 100. -/
theorem third_tick_outgrows_window :
    ¬ ∀ (comparison : Comparison) (ticks : List MarketTick),
      (∀ tick ∈ ticks, 0 < tick.lastPrice) →
      EveryPrefix comparison.IndicatorsAgree ticks := by
  intro always
  have agrees := (always windowOfTwo
    [pricedTick 1, pricedTick 2, pricedTick 4] (by decide +kernel)).whole
  rw [indicatorsAgree_iff] at agrees
  have momentum := agrees.1
  revert momentum
  decide +kernel

end Comparison

end TradingBot
