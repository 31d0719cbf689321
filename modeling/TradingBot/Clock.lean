import TradingBot.ExecutionEngine
import Mathlib.Algebra.Order.Floor.Ring
import Mathlib.Data.Rat.Floor
import Mathlib.Tactic.Linarith

namespace TradingBot

/-! The readings of `std::chrono` clocks that `simulateMarketData` and
`executeOrder` turn into a `Timestamp`.  `std::time_t` and the type of
`count()` are one signed 64-bit type; multiplication of doubles is exact. -/

/-- The parameter types of the constructors of `Timestamp` that take one
integer. -/
inductive IntegerType where
  | uint64
  | int64
  deriving Repr, DecidableEq

inductive TimestampConstructor where
  | nanoseconds
  | seconds
  deriving Repr, DecidableEq

namespace TimestampConstructor

def parameterType : TimestampConstructor → IntegerType
  | .nanoseconds => .uint64
  | .seconds => .int64

/-- An exact match ranks before an integral conversion. -/
def conversionRank (argument : IntegerType)
    (constructor : TimestampConstructor) : Nat :=
  if argument = constructor.parameterType then 0 else 1

def chosen (argument : IntegerType) : TimestampConstructor :=
  if conversionRank argument .nanoseconds < conversionRank argument .seconds
  then .nanoseconds
  else .seconds

end TimestampConstructor

/-- The conversion of a `double` to `uint64_t`; `none` where it is out of
range. -/
def uint64OfDouble (value : Rat) : Option UInt64 :=
  if -1 < value ∧ value < 2 ^ 64 then some (UInt64.ofNat value.floor.toNat)
  else none

namespace Timestamp

def ofSeconds (seconds : Int64) : Option Timestamp :=
  (uint64OfDouble (seconds.toInt * 10 ^ 9)).map Timestamp.mk

/-- `Timestamp(clock::now().time_since_epoch().count())`. -/
def ofCount (count : Int64) : Option Timestamp :=
  match TimestampConstructor.chosen .int64 with
  | .nanoseconds => some ⟨count.toUInt64⟩
  | .seconds => ofSeconds count

end Timestamp

/-- What one round of `simulateMarketData` draws. -/
structure SimulatorDraws where
  priceChange : Rat
  bidVolume : UInt64
  askVolume : UInt64
  bidDepth : UInt64 × UInt64
  askDepth : UInt64 × UInt64

/-- One round of `simulateMarketData`: the new `basePrice` and what it
publishes. -/
def simulateMarketData (basePrice : Rat) (draws : SimulatorDraws)
    (count : Int64) : Option (Rat × MarketTick × OrderBook) := do
  let basePrice := max (basePrice + draws.priceChange) 50
  let timestamp ← Timestamp.ofCount count
  let tick : MarketTick :=
    { symbol := "AAPL", bid := basePrice - 1 / 100, ask := basePrice + 1 / 100,
      bidVolume := draws.bidVolume, askVolume := draws.askVolume,
      timestamp := timestamp, lastPrice := basePrice,
      volume := draws.bidVolume + draws.askVolume }
  let book : OrderBook :=
    { symbol := "AAPL"
      bids :=
        [(basePrice - 1 / 100, draws.bidDepth.1),
          (basePrice - 2 / 100, draws.bidDepth.2)]
      asks :=
        [(basePrice + 1 / 100, draws.askDepth.1),
          (basePrice + 2 / 100, draws.askDepth.2)]
      timestamp := tick.timestamp }
  return (basePrice, tick, book)

/-- The trade `executeOrder` records when its clock shows a count. -/
def tradeAt (request : ExecutionRequest) (latestTick : MarketTick)
    (count : Int64) : Option Trade :=
  (Timestamp.ofCount count).map (executedTrade request latestTick)

/-- The records that carry a clock reading. -/
inductive Reading where
  | tick (basePrice : Rat) (draws : SimulatorDraws)
  | trade (request : ExecutionRequest) (latestTick : MarketTick)

namespace Reading

/-- The timestamp of the record; `none` where building it is undefined. -/
def timestamp (count : Int64) : Reading → Option Timestamp
  | .tick basePrice draws =>
      (simulateMarketData basePrice draws count).map fun round =>
        round.2.1.timestamp
  | .trade request latestTick =>
      (tradeAt request latestTick count).map Trade.executedAt

def Stores (count : Int64) (stamp : Option Timestamp) : Prop :=
  ∃ timestamp, stamp = some timestamp ∧
    (timestamp.nanoseconds.toNat : Int) = count.toInt

def Earlier (first second : Option Timestamp) : Prop :=
  ∃ before after, first = some before ∧ second = some after ∧
    before.nanoseconds < after.nanoseconds

end Reading

theorem uint64OfDouble_natCast (value : Nat) :
    uint64OfDouble value =
      if value < 2 ^ 64 then some (UInt64.ofNat value) else none := by
  have above : (-1 : Rat) < value := by
    have := (Nat.cast_nonneg value : (0 : Rat) ≤ value)
    linarith
  have bound : ((value : Rat) < 2 ^ 64) ↔ value < 2 ^ 64 := by
    exact_mod_cast Iff.rfl
  simp only [uint64OfDouble, above, bound, true_and]
  congr 2

namespace Timestamp

/-- The signed argument is taken for seconds. -/
theorem ofCount_eq_ofSeconds (count : Int64) :
    ofCount count = ofSeconds count := rfl

theorem ofSeconds_eq {seconds : Int64} (nonneg : 0 ≤ seconds) :
    ofSeconds seconds =
      if seconds.toInt.toNat * 10 ^ 9 < 2 ^ 64 then
        some ⟨UInt64.ofNat (seconds.toInt.toNat * 10 ^ 9)⟩
      else none := by
  have nonneg : 0 ≤ seconds.toInt := by simpa using Int64.le_iff_toInt_le.mp nonneg
  have cast : ((seconds.toInt : Rat)) * 10 ^ 9 =
      ((seconds.toInt.toNat * 10 ^ 9 : Nat) : Rat) := by
    conv_lhs => rw [← Int.toNat_of_nonneg nonneg]
    push_cast
    rfl
  rw [ofSeconds, cast, uint64OfDouble_natCast]
  split <;> rfl

theorem exists_of_lt {value : Nat} (fits : value < 2 ^ 64) :
    ∃ timestamp : Timestamp, timestamp.nanoseconds.toNat = value :=
  ⟨⟨UInt64.ofNat value⟩, UInt64.toNat_ofNat_of_lt' fits⟩

end Timestamp

namespace Reading

theorem timestamp_eq_ofSeconds (reading : Reading) (count : Int64) :
    reading.timestamp count = Timestamp.ofSeconds count := by
  rw [← Timestamp.ofCount_eq_ofSeconds]
  cases reading with
  | tick basePrice draws =>
      cases built : Timestamp.ofCount count <;>
        simp [timestamp, simulateMarketData, built]
  | trade request latestTick =>
      cases built : Timestamp.ofCount count <;>
        simp [timestamp, tradeAt, executedTrade, built]

/-- The stored number is the count times 10^9, where that fits. -/
theorem timestamp_eq_some_iff {reading : Reading} {count : Int64}
    (nonneg : 0 ≤ count) {timestamp : Timestamp} :
    reading.timestamp count = some timestamp ↔
      timestamp.nanoseconds.toNat = count.toInt.toNat * 10 ^ 9 := by
  rw [timestamp_eq_ofSeconds, Timestamp.ofSeconds_eq nonneg]
  have bound := timestamp.nanoseconds.toNat_lt
  constructor
  · intro built
    split at built
    next fits =>
        cases built
        exact UInt64.toNat_ofNat_of_lt' fits
    next => contradiction
  · intro stored
    rw [stored] at bound
    rw [if_pos bound, Option.some.injEq, ← stored, UInt64.ofNat_toNat]

theorem stores_iff {reading : Reading} {count : Int64} (nonneg : 0 ≤ count) :
    Stores count (reading.timestamp count) ↔ count = 0 := by
  have nonnegInt : 0 ≤ count.toInt := by
    simpa using Int64.le_iff_toInt_le.mp nonneg
  simp only [Stores, timestamp_eq_some_iff nonneg]
  constructor
  · intro kept
    obtain ⟨timestamp, stored, same⟩ := kept
    apply Int64.toInt_inj.mp
    rw [Int64.toInt_zero]
    omega
  · intro zero
    subst zero
    exact ⟨⟨0⟩, rfl, rfl⟩

theorem earlier_iff {first second : Reading} {before after : Int64}
    (nonneg : 0 ≤ before) (later : before < after) :
    Earlier (first.timestamp before) (second.timestamp after) ↔
      after.toInt * 10 ^ 9 < 2 ^ 64 := by
  have nonnegAfter : 0 ≤ after :=
    Int64.le_of_lt (Int64.lt_of_le_of_lt nonneg later)
  have nonnegInt : 0 ≤ before.toInt := by
    simpa using Int64.le_iff_toInt_le.mp nonneg
  have laterInt := Int64.lt_iff_toInt_lt.mp later
  simp only [Earlier, timestamp_eq_some_iff nonneg,
    timestamp_eq_some_iff nonnegAfter]
  constructor
  · intro ordered
    obtain ⟨_, timestamp, _, stored, _⟩ := ordered
    have bound := timestamp.nanoseconds.toNat_lt
    omega
  · intro fits
    have fitsAfter : after.toInt.toNat * 10 ^ 9 < 2 ^ 64 := by omega
    have grows : before.toInt.toNat * 10 ^ 9 < after.toInt.toNat * 10 ^ 9 :=
      Nat.mul_lt_mul_of_pos_right (by omega) (by norm_num)
    obtain ⟨first, storedFirst⟩ := Timestamp.exists_of_lt (grows.trans fitsAfter)
    obtain ⟨second, storedSecond⟩ := Timestamp.exists_of_lt fitsAfter
    refine ⟨first, second, storedFirst, storedSecond, ?_⟩
    rwa [UInt64.lt_iff_toNat_lt, storedFirst, storedSecond]

/-- A reading survives only as the count 0, and later readings are later
timestamps only up to the 18446744073rd count. -/
theorem reading_survives_iff (reading other : Reading) (count : Int64)
    (nonneg : 0 ≤ count) :
    (Stores count (reading.timestamp count) ↔ count = 0) ∧
      ∀ earlier, 0 ≤ earlier → earlier < count →
        (Earlier (other.timestamp earlier) (reading.timestamp count) ↔
          count.toInt * 10 ^ 9 < 2 ^ 64) :=
  ⟨stores_iff nonneg, fun _ start later => earlier_iff start later⟩

private def firstRound : Reading :=
  .tick 100
    { priceChange := 0, bidVolume := 100, askVolume := 100,
      bidDepth := (100, 100), askDepth := (100, 100) }

theorem reading_survives_iff_first_round :
    Stores 0 (firstRound.timestamp 0) ∧
      Earlier (firstRound.timestamp 1) (firstRound.timestamp 2) :=
  ⟨(reading_survives_iff firstRound firstRound 0 (by decide)).1.mpr rfl,
    ((reading_survives_iff firstRound firstRound 2 (by decide)).2 1 (by decide)
      (by decide)).mpr (by decide)⟩

/-- The nanosecond counts of two moments of the year 2025. -/
theorem nanosecond_count_is_taken_for_seconds :
    (¬ ∀ (reading : Reading) (count : Int64), 0 ≤ count →
      Stores count (reading.timestamp count)) ∧
    ¬ ∀ (first second : Reading) (before after : Int64), 0 ≤ before →
      before < after →
      Earlier (first.timestamp before) (second.timestamp after) := by
  constructor
  · intro survives
    have kept := survives firstRound 1735689600000000000 (by decide)
    rw [stores_iff (by decide)] at kept
    exact absurd kept (by decide)
  · intro ordered
    have kept := ordered firstRound firstRound 1735689600000000000
      1735689600100000000 (by decide) (by decide)
    rw [earlier_iff (by decide) (by decide)] at kept
    exact absurd kept (by decide)

end Reading

end TradingBot
