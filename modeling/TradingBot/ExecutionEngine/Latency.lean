import TradingBot.ExecutionEngine
import TradingBot.Library.Statistics
import Mathlib.Data.List.Induction
import Mathlib.Tactic.FieldSimp

namespace TradingBot

open Library

/-! The latency statistics against the latencies that were recorded. -/

/-- The microseconds that a clock shows at the start and at the end of
`executeOrder`. -/
structure ClockReadings where
  submissionTime : Int64
  executionTime : Int64

namespace ClockReadings

def latencyDuration (readings : ClockReadings) : Int :=
  readings.executionTime.toInt - readings.submissionTime.toInt

/-- The signed subtraction does not overflow. -/
def InRange (readings : ClockReadings) : Prop :=
  -2 ^ 63 ≤ readings.latencyDuration ∧ readings.latencyDuration < 2 ^ 63

instance : DecidablePred InRange := fun _ => inferInstanceAs (Decidable (_ ∧ _))

/-- `uint64_t latencyMicroseconds`; `none` where the subtraction overflows. -/
def latencyMicroseconds (readings : ClockReadings) : Option UInt64 :=
  if readings.InRange then some (UInt64.ofInt readings.latencyDuration)
  else none

theorem mapM_latencyMicroseconds {runs : List ClockReadings}
    {latencies : List UInt64} :
    runs.mapM latencyMicroseconds = some latencies ↔
      (∀ readings ∈ runs, readings.InRange) ∧
        latencies =
          runs.map fun readings => UInt64.ofInt readings.latencyDuration := by
  induction runs generalizing latencies with
  | nil => simp [eq_comm]
  | cons readings rest induction =>
      rw [List.mapM_cons, latencyMicroseconds]
      split
      next inRange =>
          simp only [Option.pure_def, Option.bind_eq_bind, Option.bind_some,
            Option.bind_eq_some_iff, induction, Option.some.injEq,
            List.forall_mem_cons, inRange, true_and, List.map_cons]
          constructor
          · intro recorded
            obtain ⟨_, ⟨others, rfl⟩, rfl⟩ := recorded
            exact ⟨others, rfl⟩
          · intro recorded
            obtain ⟨others, rfl⟩ := recorded
            exact ⟨_, ⟨others, rfl⟩, rfl⟩
      next overflows => simp [overflows]

end ClockReadings

def exactTotal (latencies : List UInt64) : Nat :=
  (latencies.map UInt64.toNat).sum

namespace ExecutionStats

def recordLatencies (latencies : List UInt64) : ExecutionStats :=
  latencies.foldl recordLatency init

theorem recordLatencies_concat (latencies : List UInt64) (latency : UInt64) :
    recordLatencies (latencies ++ [latency]) =
      (recordLatencies latencies).recordLatency latency := by
  simp [recordLatencies]

structure Coherent (latencies : List UInt64) (stats : ExecutionStats) :
    Prop where
  total : stats.totalLatency.toNat = exactTotal latencies
  minimum : ∃ latency ∈ latencies, stats.getMinLatency = latency.toNat
  maximum : ∃ latency ∈ latencies, stats.getMaxLatency = latency.toNat
  minimum_le : stats.getMinLatency ≤ stats.getAverageLatency
  le_maximum : stats.getAverageLatency ≤ stats.getMaxLatency

/-- The statistics after some latencies, their sums modulo 2^64. -/
structure Tracks (latencies : List UInt64) (stats : ExecutionStats) :
    Prop where
  executed : stats.totalExecuted.toNat = latencies.length % 2 ^ 64
  total : stats.totalLatency.toNat = exactTotal latencies % 2 ^ 64
  upper : ∀ latency ∈ latencies, (latency.toNat : Rat) ≤ stats.maxLatency
  largest : stats.maxLatency = 0 ∨
    ∃ latency ∈ latencies, stats.maxLatency = latency.toNat
  lower : ∀ latency ∈ latencies, stats.minLatency ≤ latency.toNat
  smallest : stats.minLatency = doubleMax ∨
    ∃ latency ∈ latencies, stats.minLatency = latency.toNat

theorem tracks_init : init.Tracks [] where
  executed := rfl
  total := rfl
  upper := by simp
  largest := .inl rfl
  lower := by simp
  smallest := .inl rfl

theorem Tracks.recordLatency {latencies : List UInt64} {stats : ExecutionStats}
    (tracks : stats.Tracks latencies) (latency : UInt64) :
    (stats.recordLatency latency).Tracks (latencies ++ [latency]) where
  executed := by
    rw [ExecutionStats.recordLatency, UInt64.toNat_add, tracks.executed,
      List.length_append]
    simp
  total := by
    rw [ExecutionStats.recordLatency, UInt64.toNat_add, tracks.total]
    simp [exactTotal]
  upper := by
    intro other member
    simp only [ExecutionStats.recordLatency]
    rcases List.mem_append.mp member with earlier | last
    · have before := tracks.upper other earlier
      split
      next larger => exact before.trans larger.le
      next => exact before
    · rw [List.mem_singleton.mp last]
      split
      next => exact le_refl _
      next smaller => exact not_lt.mp smaller
  largest := by
    simp only [ExecutionStats.recordLatency]
    split
    next =>
        exact .inr ⟨latency, List.mem_append_right _ (List.mem_singleton_self _),
          rfl⟩
    next =>
        refine tracks.largest.imp_right fun found => ?_
        obtain ⟨other, member, same⟩ := found
        exact ⟨other, List.mem_append_left _ member, same⟩
  lower := by
    intro other member
    simp only [ExecutionStats.recordLatency]
    rcases List.mem_append.mp member with earlier | last
    · have before := tracks.lower other earlier
      split
      next smaller => exact smaller.le.trans before
      next => exact before
    · rw [List.mem_singleton.mp last]
      split
      next => exact le_refl _
      next larger => exact not_lt.mp larger
  smallest := by
    simp only [ExecutionStats.recordLatency]
    split
    next =>
        exact .inr ⟨latency, List.mem_append_right _ (List.mem_singleton_self _),
          rfl⟩
    next =>
        refine tracks.smallest.imp_right fun found => ?_
        obtain ⟨other, member, same⟩ := found
        exact ⟨other, List.mem_append_left _ member, same⟩

theorem tracks_recordLatencies (latencies : List UInt64) :
    (recordLatencies latencies).Tracks latencies := by
  induction latencies using List.reverseRecOn with
  | nil => exact tracks_init
  | append_singleton rest latency induction =>
      rw [recordLatencies_concat]
      exact induction.recordLatency latency

theorem lt_doubleMax (latency : UInt64) : (latency.toNat : Rat) < doubleMax := by
  have small : (latency.toNat : Rat) < 2 ^ 64 := by
    exact_mod_cast latency.toNat_lt
  have whole : (1 : Rat) ≤ 2 ^ 53 - 1 := by norm_num
  calc
    (latency.toNat : Rat) < 2 ^ 64 := small
    _ ≤ 2 ^ 971 := pow_le_pow_right₀ one_le_two (by decide)
    _ ≤ doubleMax := le_mul_of_one_le_left (by positivity) whole

/-- The getters answer with the extreme latencies. -/
theorem Tracks.extremes {latencies : List UInt64} {stats : ExecutionStats}
    (tracks : stats.Tracks latencies) (nonempty : latencies ≠ []) :
    ∃ low ∈ latencies, ∃ high ∈ latencies,
      stats.getMinLatency = low.toNat ∧ stats.getMaxLatency = high.toNat ∧
        (∀ latency ∈ latencies, low.toNat ≤ latency.toNat) ∧
        ∀ latency ∈ latencies, latency.toNat ≤ high.toNat := by
  obtain ⟨first, listed⟩ := List.exists_mem_of_ne_nil latencies nonempty
  have high : ∃ high ∈ latencies, stats.maxLatency = high.toNat := by
    rcases tracks.largest with zero | attained
    · have none := tracks.upper first listed
      rw [zero] at none
      refine ⟨first, listed, ?_⟩
      rw [zero]
      exact le_antisymm (Nat.cast_nonneg _) none
    · exact attained
  have below : stats.minLatency ≠ doubleMax :=
    ((tracks.lower first listed).trans_lt (lt_doubleMax first)).ne
  obtain ⟨low, lowListed, lowest⟩ := tracks.smallest.resolve_left below
  obtain ⟨high, highListed, highest⟩ := high
  refine ⟨low, lowListed, high, highListed, ?_, highest, ?_, ?_⟩
  · rw [getMinLatency, if_neg below, lowest]
  · intro latency member
    have least := tracks.lower latency member
    rw [lowest] at least
    exact_mod_cast least
  · intro latency member
    have most := tracks.upper latency member
    rw [highest] at most
    exact_mod_cast most

theorem Tracks.getAverageLatency_eq {latencies : List UInt64}
    {stats : ExecutionStats} (tracks : stats.Tracks latencies)
    (total : stats.totalLatency.toNat = exactTotal latencies) :
    stats.getAverageLatency =
      if latencies.length % 2 ^ 64 = 0 then 0
      else (exactTotal latencies : Rat) / (latencies.length % 2 ^ 64 : Nat) := by
  simp only [getAverageLatency, total, ← tracks.executed, ← UInt64.toNat_inj,
    UInt64.toNat_zero]

theorem Tracks.average_le_maximum_iff {latencies : List UInt64}
    {stats : ExecutionStats} (tracks : stats.Tracks latencies)
    (total : stats.totalLatency.toNat = exactTotal latencies) {high : UInt64}
    (maximum : stats.getMaxLatency = high.toNat) :
    stats.getAverageLatency ≤ stats.getMaxLatency ↔
      latencies.length % 2 ^ 64 = 0 ∨
        exactTotal latencies ≤ latencies.length % 2 ^ 64 * high.toNat := by
  rw [tracks.getAverageLatency_eq total, maximum]
  split
  next zero => exact iff_of_true (Nat.cast_nonneg _) (.inl zero)
  next counted =>
      have positive : (0 : Rat) < (latencies.length % 2 ^ 64 : Nat) := by
        exact_mod_cast Nat.pos_of_ne_zero counted
      rw [or_iff_right counted, div_le_iff₀ positive, mul_comm]
      exact_mod_cast Iff.rfl

theorem Tracks.minimum_le_average {latencies : List UInt64}
    {stats : ExecutionStats} (tracks : stats.Tracks latencies)
    (total : stats.totalLatency.toNat = exactTotal latencies) {low : UInt64}
    (listed : low ∈ latencies) (minimum : stats.getMinLatency = low.toNat)
    (lowest : ∀ latency ∈ latencies, low.toNat ≤ latency.toNat) :
    stats.getMinLatency ≤ stats.getAverageLatency := by
  have small : exactTotal latencies < 2 ^ 64 :=
    total ▸ stats.totalLatency.toNat_lt
  have above : latencies.length * low.toNat ≤ exactTotal latencies := by
    rw [exactTotal, ← List.length_map UInt64.toNat]
    apply length_mul_le_sum
    simpa using lowest
  rw [minimum, tracks.getAverageLatency_eq total]
  split
  next zero =>
      -- only zeros can be counted 2^64 times
      have many : 2 ^ 64 ≤ latencies.length := by
        have nonempty := List.length_pos_of_mem listed
        omega
      have none : low.toNat = 0 := by
        by_contra positive
        have once : 1 ≤ low.toNat := Nat.pos_of_ne_zero positive
        have enough := Nat.mul_le_mul many once
        omega
      rw [none]
      exact le_refl _
  next counted =>
      have positive : (0 : Rat) < (latencies.length % 2 ^ 64 : Nat) := by
        exact_mod_cast Nat.pos_of_ne_zero counted
      have fewer := Nat.mul_le_mul_right low.toNat
        (Nat.mod_le latencies.length (2 ^ 64))
      rw [le_div_iff₀ positive, mul_comm]
      exact_mod_cast fewer.trans above

/-- What coherence asks for besides the extremes: a total that does not wrap,
and, where the count has wrapped, an average that is not too large. -/
theorem Tracks.coherent_iff {latencies : List UInt64} {stats : ExecutionStats}
    (tracks : stats.Tracks latencies) {low high : UInt64}
    (lowListed : low ∈ latencies) (highListed : high ∈ latencies)
    (minimum : stats.getMinLatency = low.toNat)
    (maximum : stats.getMaxLatency = high.toNat)
    (lowest : ∀ latency ∈ latencies, low.toNat ≤ latency.toNat) :
    stats.Coherent latencies ↔
      exactTotal latencies < 2 ^ 64 ∧
        (latencies.length % 2 ^ 64 = 0 ∨
          exactTotal latencies ≤ latencies.length % 2 ^ 64 * high.toNat) := by
  constructor
  · intro coherent
    have total := coherent.total
    exact ⟨total ▸ stats.totalLatency.toNat_lt,
      (tracks.average_le_maximum_iff total maximum).mp coherent.le_maximum⟩
  · intro fits
    obtain ⟨small, below⟩ := fits
    have total : stats.totalLatency.toNat = exactTotal latencies := by
      rw [tracks.total, Nat.mod_eq_of_lt small]
    exact
      { total := total
        minimum := ⟨low, lowListed, minimum⟩
        maximum := ⟨high, highListed, maximum⟩
        minimum_le := tracks.minimum_le_average total lowListed minimum lowest
        le_maximum := (tracks.average_le_maximum_iff total maximum).mpr below }

/-- Whenever the count has wrapped to 0, at most one of the latencies up to and
including the next is not 0. -/
def WrapsQuietly (latencies : List UInt64) : Prop :=
  ∀ wraps, 0 < wraps → wraps * 2 ^ 64 < latencies.length →
    ((latencies.take (wraps * 2 ^ 64 + 1)).map UInt64.toNat).countP
      (fun latency => decide (latency ≠ 0)) ≤ 1

/-- After every `recordLatency`, the statistics are coherent. -/
def StaysCoherent (latencies : List UInt64) : Prop :=
  ∀ earlier later, latencies = earlier ++ later → earlier ≠ [] →
    (recordLatencies earlier).Coherent earlier

theorem exactTotal_append (earlier later : List UInt64) :
    exactTotal (earlier ++ later) = exactTotal earlier + exactTotal later := by
  simp [exactTotal]

theorem exactTotal_le {latencies : List UInt64} {high : Nat}
    (upper : ∀ latency ∈ latencies, latency.toNat ≤ high) :
    exactTotal latencies ≤ latencies.length * high := by
  rw [exactTotal, ← List.length_map UInt64.toNat]
  apply sum_le_length_mul
  simpa using upper

/-- Quiet wraps keep the total below what the count stands for. -/
theorem WrapsQuietly.total_le {latencies earlier later : List UInt64}
    (quiet : WrapsQuietly latencies) (split : latencies = earlier ++ later)
    {high : Nat} (upper : ∀ latency ∈ earlier, latency.toNat ≤ high)
    (counted : earlier.length % 2 ^ 64 ≠ 0) :
    exactTotal earlier ≤ earlier.length % 2 ^ 64 * high := by
  rcases Nat.eq_zero_or_pos (earlier.length / 2 ^ 64) with none | wrapped
  · have all : earlier.length % 2 ^ 64 = earlier.length := by omega
    rw [all]
    exact exactTotal_le upper
  · generalize wraps_eq : earlier.length / 2 ^ 64 = wraps at wrapped
    have within : wraps * 2 ^ 64 + 1 ≤ earlier.length := by omega
    have single := quiet wraps wrapped (by
      rw [split, List.length_append]
      omega)
    rw [split, List.take_append_of_le_length within] at single
    have first : exactTotal (earlier.take (wraps * 2 ^ 64 + 1)) ≤ high := by
      apply sum_le_of_countP_le_one _ single
      intro entry member
      obtain ⟨latency, listed, rfl⟩ := List.mem_map.mp member
      exact upper latency (List.mem_of_mem_take listed)
    have rest : exactTotal (earlier.drop (wraps * 2 ^ 64 + 1)) ≤
        (earlier.length % 2 ^ 64 - 1) * high := by
      have remaining : (earlier.drop (wraps * 2 ^ 64 + 1)).length =
          earlier.length % 2 ^ 64 - 1 := by
        rw [List.length_drop]
        omega
      rw [← remaining]
      exact exactTotal_le fun latency listed =>
        upper latency (List.mem_of_mem_drop listed)
    calc
      exactTotal earlier =
          exactTotal (earlier.take (wraps * 2 ^ 64 + 1)) +
            exactTotal (earlier.drop (wraps * 2 ^ 64 + 1)) := by
        rw [← exactTotal_append, List.take_append_drop]
      _ ≤ high + (earlier.length % 2 ^ 64 - 1) * high :=
        Nat.add_le_add first rest
      _ = earlier.length % 2 ^ 64 * high := by
        obtain ⟨fewer, count⟩ := Nat.exists_eq_succ_of_ne_zero counted
        rw [count, Nat.succ_sub_one, Nat.succ_mul, Nat.add_comm]

theorem staysCoherent_iff (latencies : List UInt64) :
    StaysCoherent latencies ↔
      exactTotal latencies < 2 ^ 64 ∧ WrapsQuietly latencies := by
  constructor
  · intro stays
    constructor
    · rcases eq_or_ne latencies [] with rfl | nonempty
      · decide
      · have coherent := stays latencies [] (List.append_nil _).symm nonempty
        rw [← coherent.total]
        exact UInt64.toNat_lt _
    · intro wraps wrapped within
      have split := (List.take_append_drop (wraps * 2 ^ 64 + 1) latencies).symm
      have length : (latencies.take (wraps * 2 ^ 64 + 1)).length =
          wraps * 2 ^ 64 + 1 := by
        rw [List.length_take]
        omega
      have nonempty : latencies.take (wraps * 2 ^ 64 + 1) ≠ [] := by
        rw [← List.length_pos_iff, length]
        omega
      have coherent := stays _ _ split nonempty
      generalize latencies.take (wraps * 2 ^ 64 + 1) = earlier at length coherent nonempty ⊢
      have tracks := tracks_recordLatencies earlier
      obtain ⟨low, lowListed, high, highListed, minimum, maximum, lowest, _⟩ :=
        tracks.extremes nonempty
      have fits := (tracks.coherent_iff lowListed highListed minimum maximum
        lowest).mp coherent
      have once : earlier.length % 2 ^ 64 = 1 := by omega
      rw [once, Nat.one_mul] at fits
      exact countP_ne_zero_le_one (List.mem_map_of_mem highListed)
        (fits.2.resolve_left Nat.one_ne_zero)
  · intro fits earlier later split nonempty
    obtain ⟨small, quiet⟩ := fits
    have tracks := tracks_recordLatencies earlier
    obtain ⟨low, lowListed, high, highListed, minimum, maximum, lowest, highest⟩ :=
      tracks.extremes nonempty
    rw [tracks.coherent_iff lowListed highListed minimum maximum lowest]
    constructor
    · rw [split, exactTotal_append] at small
      omega
    · by_cases counted : earlier.length % 2 ^ 64 = 0
      · exact .inl counted
      · exact .inr (quiet.total_le split highest counted)

/-- Over any runs of `executeOrder`, nothing overflows and the statistics are
coherent after each exactly if the recorded latencies, a step back of the clock
counting 2^64 less its length, add up to less than 2^64, and the count's own
wraps are quiet. -/
theorem latency_statistics_coherent_iff (runs : List ClockReadings) :
    (∃ latencies,
        runs.mapM ClockReadings.latencyMicroseconds = some latencies ∧
          StaysCoherent latencies) ↔
      (∀ readings ∈ runs, readings.InRange) ∧
        exactTotal (runs.map fun readings =>
          UInt64.ofInt readings.latencyDuration) < 2 ^ 64 ∧
        WrapsQuietly (runs.map fun readings =>
          UInt64.ofInt readings.latencyDuration) := by
  simp only [ClockReadings.mapM_latencyMicroseconds, staysCoherent_iff]
  constructor
  · intro stays
    obtain ⟨_, ⟨inRange, rfl⟩, fits⟩ := stays
    exact ⟨inRange, fits⟩
  · intro fits
    exact ⟨_, ⟨fits.1, rfl⟩, fits.2⟩

/-- 10 microseconds forward, then 5 back: the average is below the minimum. -/
theorem backwards_clock_breaks_average :
    ¬ ∃ latencies,
      [{ submissionTime := 10, executionTime := 20 },
        { submissionTime := 20, executionTime := 15 }].mapM
          ClockReadings.latencyMicroseconds = some latencies ∧
        StaysCoherent latencies := by
  intro stays
  obtain ⟨latencies, recorded, coherent⟩ := stays
  cases recorded
  have total := (coherent _ [] (List.append_nil _).symm (by simp)).total
  revert total
  decide

end ExecutionStats

end TradingBot
