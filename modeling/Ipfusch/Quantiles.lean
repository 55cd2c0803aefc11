import Ipfusch.OrderStat
import Ipfusch.Windows
import Mathlib.Algebra.Order.Floor.Semifield
import Mathlib.Algebra.Order.Round

/-!
# Quantiles

`quantile` is the sample of rank `round((n - 1) * q)` (`isRank_quantile`), so what holds of
order statistics holds of it (`quantile_sound`).

The percentiles of the aggregate are those of the pooled samples of all streams. They are
never below the percentiles of all streams, as the ranks of the streams add up to at most the
rank in the pool (`sum_quantileIdx_le`). Above the median the ranks of the streams can fall so
far short of it that the aggregate is above all streams.
-/

namespace Ipfusch

open OrderStat

/-! ## The index -/

/-- The index of `quantile`. -/
def quantileIdx (n : ℕ) (q : ℚ) : ℕ :=
  ⌊((n - 1 : ℕ) : ℚ) * max 0 (min q 1) + 1 / 2⌋₊

/-- `round((n - 1) * q)` -/
def roundedRank (n : ℕ) (q : ℚ) : ℕ :=
  (round (((n - 1 : ℕ) : ℚ) * q)).toNat

theorem clamp_eq {q : ℚ} (h0 : 0 ≤ q) (h1 : q ≤ 1) : max 0 (min q 1) = q := by
  rw [min_eq_left h1, max_eq_right h0]

theorem quantileIdx_eq {q : ℚ} (n : ℕ) (h0 : 0 ≤ q) (h1 : q ≤ 1) :
    quantileIdx n q = roundedRank n q := by
  unfold quantileIdx roundedRank
  rw [clamp_eq h0 h1, round_eq, Int.floor_toNat]

theorem quantileIdx_lt {n : ℕ} (hn : 0 < n) (q : ℚ) : quantileIdx n q < n := by
  have hclamp : max 0 (min q 1) ≤ 1 := max_le zero_le_one (min_le_right _ _)
  have hcast : ((n - 1 : ℕ) : ℚ) = n - 1 := by
    rw [Nat.cast_sub hn, Nat.cast_one]
  refine (Nat.floor_lt' hn.ne').mpr ?_
  calc ((n - 1 : ℕ) : ℚ) * max 0 (min q 1) + 1 / 2 ≤ ((n - 1 : ℕ) : ℚ) * 1 + 1 / 2 := by gcongr
    _ < n := by
      rw [hcast]
      linarith

theorem quantileIdx_mono (n : ℕ) {q q' : ℚ} (h : q ≤ q') : quantileIdx n q ≤ quantileIdx n q' := by
  unfold quantileIdx
  gcongr

theorem quantileIdx_zero (n : ℕ) : quantileIdx n 0 = 0 := by
  have hhalf : ⌊(1 / 2 : ℚ)⌋₊ = 0 := Nat.floor_eq_zero.mpr (by norm_num)
  unfold quantileIdx
  rw [clamp_eq le_rfl zero_le_one, mul_zero, zero_add, hhalf]

theorem quantileIdx_one (n : ℕ) : quantileIdx n 1 = n - 1 := by
  have hhalf : ⌊(1 / 2 : ℚ)⌋₊ = 0 := Nat.floor_eq_zero.mpr (by norm_num)
  unfold quantileIdx
  rw [clamp_eq zero_le_one le_rfl, mul_one, add_comm, Nat.floor_add_natCast (by norm_num), hhalf,
    zero_add]

/-! ## The sample -/

section Sample

variable {α : Type} [LinearOrder α] [Zero α] {values : List α}

theorem quantile_nil (q : ℚ) : quantile ([] : List α) q = 0 :=
  rfl

theorem quantile_eq (h : values ≠ []) (q : ℚ) : quantile values q =
    (values.mergeSort (· ≤ ·)).getD (quantileIdx values.length q) 0 := by
  unfold quantile quantileIdx
  rw [if_neg (by simpa using h)]
  simp only [List.length_mergeSort]

theorem getElem?_quantile (h : values ≠ []) (q : ℚ) :
    (values.mergeSort (· ≤ ·))[quantileIdx values.length q]? = some (quantile values q) := by
  have hlt : quantileIdx values.length q < (values.mergeSort (· ≤ ·)).length := by
    rw [List.length_mergeSort]
    exact quantileIdx_lt (List.length_pos_iff.mpr h) q
  rw [quantile_eq h, List.getD_eq_getElem _ _ hlt, List.getElem?_eq_getElem hlt]

/-- `quantile` is an order statistic. -/
theorem isRank_quantile (h : values ≠ []) (q : ℚ) :
    IsRank values (quantileIdx values.length q) (quantile values q) := by
  obtain ⟨hlt, heq⟩ := List.getElem?_eq_some_iff.mp (getElem?_quantile h q)
  rw [← heq]
  exact isRank_mergeSort hlt

/-- A sample of the rank is the quantile. -/
theorem quantile_eq_of_isRank {values : List α} {n k : ℕ} {q : ℚ} {x : α} (hne : values ≠ [])
    (hlength : values.length = n) (hidx : quantileIdx n q = k) (hx : IsRank values k x) :
    quantile values q = x := by
  subst hlength hidx
  exact (isRank_quantile hne q).unique hx

theorem quantile_mono (values : List α) {q q' : ℚ} (h : q ≤ q') :
    quantile values q ≤ quantile values q' := by
  by_cases hnil : values = []
  · rw [hnil, quantile_nil, quantile_nil]
  · exact (isRank_quantile hnil q).mono (isRank_quantile hnil q') (quantileIdx_mono _ h)

theorem quantile_perm {values' : List α} (h : values.Perm values') (q : ℚ) :
    quantile values' q = quantile values q := by
  by_cases hnil : values = []
  · obtain rfl := hnil
    rw [List.nil_perm.mp h]
  · have hnil' : values' ≠ [] := by
      rintro rfl
      exact hnil (List.perm_nil.mp h)
    refine (isRank_quantile hnil' q).unique ?_
    rw [← h.length_eq]
    exact (isRank_quantile hnil q).perm h

/-- What makes `quantile` an order statistic. -/
structure QuantileSound (values : List α) : Prop where
  getElem? : ∀ q, 0 ≤ q → q ≤ 1 →
    (values.mergeSort (· ≤ ·))[roundedRank values.length q]? = some (quantile values q)
  rank_lt : ∀ q, 0 ≤ q → q ≤ 1 → roundedRank values.length q < values.length
  mem : ∀ q, 0 ≤ q → q ≤ 1 → quantile values q ∈ values
  mono : ∀ q q', 0 ≤ q → q ≤ q' → q' ≤ 1 → quantile values q ≤ quantile values q'
  min : ∀ x ∈ values, quantile values 0 ≤ x
  max : ∀ x ∈ values, x ≤ quantile values 1
  le_countP_le : ∀ q, 0 ≤ q → q ≤ 1 →
    roundedRank values.length q + 1 ≤ values.countP (· ≤ quantile values q)
  le_countP_ge : ∀ q, 0 ≤ q → q ≤ 1 →
    values.length - roundedRank values.length q ≤ values.countP (quantile values q ≤ ·)
  perm : ∀ values', values.Perm values' → ∀ q, quantile values' q = quantile values q

theorem quantileSound (h : values ≠ []) : QuantileSound values where
  getElem? q h0 h1 := by
    rw [← quantileIdx_eq _ h0 h1]
    exact getElem?_quantile h q
  rank_lt q h0 h1 := by
    rw [← quantileIdx_eq _ h0 h1]
    exact quantileIdx_lt (List.length_pos_iff.mpr h) q
  mem q _ _ := (isRank_quantile h q).mem
  mono _ _ _ hle _ := quantile_mono values hle
  min x hx := by
    have hrank := isRank_quantile h 0
    rw [quantileIdx_zero] at hrank
    exact hrank.le_of_zero hx
  max x hx := by
    have hrank := isRank_quantile h 1
    rw [quantileIdx_one] at hrank
    exact hrank.le_of_last hx
  le_countP_le q h0 h1 := by
    rw [← quantileIdx_eq _ h0 h1]
    exact (isRank_quantile h q).lt_countP
  le_countP_ge q h0 h1 := by
    rw [← quantileIdx_eq _ h0 h1]
    exact (isRank_quantile h q).le_countP_ge
  perm _ hperm q := quantile_perm hperm q

end Sample

/-! ## The percentiles of the reports -/

/-- The percentiles that are reported. -/
inductive Percentile
  | p50
  | p95
  | p99
  deriving DecidableEq, Repr

/-- The share of the samples up to a percentile. -/
def Percentile.q : Percentile → ℚ
  | .p50 => 50 / 100
  | .p95 => 95 / 100
  | .p99 => 99 / 100

/-- A percentile of an interval. -/
def IntervalStats.percentile (s : IntervalStats) : Percentile → ℚ
  | .p50 => s.p50Ms
  | .p95 => s.p95Ms
  | .p99 => s.p99Ms

/-- A percentile of a stream. -/
def StreamStats.percentile (s : StreamStats) : Percentile → ℚ
  | .p50 => s.p50Ms
  | .p95 => s.p95Ms
  | .p99 => s.p99Ms

/-- A percentile of the aggregate. -/
def AggregateStats.percentile (a : AggregateStats) : Percentile → ℚ
  | .p50 => a.p50Ms
  | .p95 => a.p95Ms
  | .p99 => a.p99Ms

/-- `p50 ≤ p95 ≤ p99` -/
def PercentilesOrdered (percentile : Percentile → ℚ) : Prop :=
  percentile .p50 ≤ percentile .p95 ∧ percentile .p95 ≤ percentile .p99

theorem percentilesOrdered_of_quantile {percentile : Percentile → ℚ} {values : List ℚ}
    (h : ∀ p, percentile p = quantile values p.q) : PercentilesOrdered percentile := by
  unfold PercentilesOrdered
  rw [h, h, h]
  exact ⟨quantile_mono values (by norm_num [Percentile.q]),
    quantile_mono values (by norm_num [Percentile.q])⟩

theorem percentile_buildInterval (idx interval : ℕ) (totals prev : Totals)
    (latencies jitters : List ℚ) (measurementStart now : ℕ) (p : Percentile) :
    (buildInterval idx interval totals prev latencies jitters measurementStart now).percentile p =
      quantile latencies p.q := by
  cases p <;> rfl

theorem percentile_buildAggregate (map : Std.TreeMap UInt32 StreamAccumulator) (totals : Totals)
    (elapsedSecs : ℚ) (p : Percentile) :
    (buildAggregate map totals elapsedSecs).percentile p =
      quantile (map.toList.flatMap fun entry => entry.2.latenciesMs) p.q := by
  have hvalues : (map.values.flatMap fun s => s.latenciesMs) =
      map.toList.flatMap fun entry => entry.2.latenciesMs := by
    rw [KeyedFold.values_eq, List.flatMap_map]
  rw [← hvalues]
  cases p <;> rfl

/-- The statistics of a stream are those of its accumulator. -/
theorem exists_streamStats (map : Std.TreeMap UInt32 StreamAccumulator) (elapsedSecs : ℚ) :
    ∃ stats : UInt32 × StreamAccumulator → StreamStats,
      streamStatsFromMap map elapsedSecs = map.toList.map stats ∧
        ∀ entry, (stats entry).packetsAcked = entry.2.packetsAcked ∧
          ∀ p : Percentile, (stats entry).percentile p = quantile entry.2.latenciesMs p.q := by
  refine ⟨_, rfl, fun entry => ⟨rfl, fun p => ?_⟩⟩
  cases p <;> rfl

/-- `quantile` is an order statistic of each list of samples, so the percentiles of each
interval, of each stream and of the aggregate are ordered. -/
theorem quantile_sound :
    (∀ {α : Type} [LinearOrder α] [Zero α] {values : List α}, values ≠ [] →
      QuantileSound values) ∧
    (∀ idx interval totals prev latencies jitters measurementStart now, PercentilesOrdered
      (buildInterval idx interval totals prev latencies jitters measurementStart now).percentile) ∧
    (∀ map elapsedSecs, ∀ s ∈ streamStatsFromMap map elapsedSecs,
      PercentilesOrdered s.percentile) ∧
    (∀ map totals elapsedSecs,
      PercentilesOrdered (buildAggregate map totals elapsedSecs).percentile) ∧
    ∀ cfg inputs, ∀ i ∈ (runBenchmark cfg inputs).intervals, PercentilesOrdered i.percentile := by
  have hinterval : ∀ idx interval totals prev latencies jitters measurementStart now,
      PercentilesOrdered (buildInterval idx interval totals prev latencies jitters
        measurementStart now).percentile := fun idx interval totals prev latencies jitters start
      now => percentilesOrdered_of_quantile
        (percentile_buildInterval idx interval totals prev latencies jitters start now)
  refine ⟨quantileSound, hinterval, fun map elapsedSecs s hs => ?_, fun map totals elapsedSecs =>
    percentilesOrdered_of_quantile (percentile_buildAggregate map totals elapsedSecs),
    fun cfg inputs => forall_intervals_runLoop (fun s now => hinterval _ _ _ _ _ _ _ _) inputs⟩
  obtain ⟨stats, hstats, hentry⟩ := exists_streamStats map elapsedSecs
  rw [hstats] at hs
  obtain ⟨entry, -, rfl⟩ := List.mem_map.mp hs
  exact percentilesOrdered_of_quantile (hentry entry).2

/-! ## Ranks of streams and of the pool -/

theorem quantileIdx_nil (q : ℚ) : quantileIdx 0 q = 0 :=
  Nat.floor_eq_zero.mpr (by norm_num)

/-- From the median on, the ranks of two groups add up to at most that of both together. -/
theorem quantileIdx_add_le {q : ℚ} (hq : 1 / 2 ≤ q) (h1 : q ≤ 1) (a b : ℕ) :
    quantileIdx a q + quantileIdx b q ≤ quantileIdx (a + b) q := by
  rcases Nat.eq_zero_or_pos a with rfl | ha
  · rw [quantileIdx_nil, Nat.zero_add, Nat.zero_add]
  · rcases Nat.eq_zero_or_pos b with rfl | hb
    · rw [quantileIdx_nil, Nat.add_zero, Nat.add_zero]
    · have h0 : 0 ≤ q := by linarith
      have hcast : ((a + b - 1 : ℕ) : ℚ) = ((a - 1 : ℕ) : ℚ) + ((b - 1 : ℕ) : ℚ) + 1 := by
        exact_mod_cast (by omega : a + b - 1 = a - 1 + (b - 1) + 1)
      unfold quantileIdx
      rw [clamp_eq h0 h1]
      refine Nat.le_floor ?_
      push_cast
      calc (⌊((a - 1 : ℕ) : ℚ) * q + 1 / 2⌋₊ : ℚ) + ⌊((b - 1 : ℕ) : ℚ) * q + 1 / 2⌋₊
          ≤ (((a - 1 : ℕ) : ℚ) * q + 1 / 2) + (((b - 1 : ℕ) : ℚ) * q + 1 / 2) :=
            add_le_add (Nat.floor_le (by positivity)) (Nat.floor_le (by positivity))
        _ ≤ ((a + b - 1 : ℕ) : ℚ) * q + 1 / 2 := by
            rw [hcast]
            linarith

/-- The ranks of the groups add up to at most the rank in the pool. -/
theorem sum_quantileIdx_le {q : ℚ} (hq : 1 / 2 ≤ q) (h1 : q ≤ 1) : ∀ ns : List ℕ,
    (ns.map fun n => quantileIdx n q).sum ≤ quantileIdx ns.sum q
  | [] => Nat.zero_le _
  | n :: ns => by
    rw [List.map_cons, List.sum_cons, List.sum_cons]
    exact (Nat.add_le_add_left (sum_quantileIdx_le hq h1 ns) _).trans
      (quantileIdx_add_le hq h1 n ns.sum)

/-- How many samples `quantile` has up to its own, if there are any. -/
def samplesUpTo (n : ℕ) (q : ℚ) : ℕ :=
  if n = 0 then 0 else quantileIdx n q + 1

theorem quantileIdx_half (n : ℕ) : quantileIdx n (50 / 100) = n / 2 := by
  rcases Nat.eq_zero_or_pos n with rfl | hn
  · exact quantileIdx_nil _
  · have hcast : ((n - 1 : ℕ) : ℚ) * (50 / 100) + 1 / 2 = (n : ℚ) / (2 : ℕ) := by
      rw [Nat.cast_sub hn]
      push_cast
      ring
    unfold quantileIdx
    rw [clamp_eq (by norm_num) (by norm_num), hcast, Nat.floor_div_eq_div]

theorem samplesUpTo_half_add_le (a b : ℕ) :
    samplesUpTo (a + b) (50 / 100) ≤ samplesUpTo a (50 / 100) + samplesUpTo b (50 / 100) := by
  unfold samplesUpTo
  rw [quantileIdx_half, quantileIdx_half, quantileIdx_half]
  split_ifs <;> omega

/-- At the median, the samples of the pool up to its own are no more than those of the groups. -/
theorem samplesUpTo_half_le : ∀ ns : List ℕ,
    samplesUpTo ns.sum (50 / 100) ≤ (ns.map fun n => samplesUpTo n (50 / 100)).sum
  | [] => le_rfl
  | n :: ns => by
    rw [List.map_cons, List.sum_cons, List.sum_cons]
    exact (samplesUpTo_half_add_le n ns.sum).trans
      (Nat.add_le_add_left (samplesUpTo_half_le ns) _)

/-! ## The percentiles of the aggregate -/

/-- The percentile of the aggregate is at least the smallest one of the streams with an
acknowledged packet. -/
def AboveSmallest (report : RunReport) (p : Percentile) : Prop :=
  ∃ s ∈ report.streams, s.packetsAcked ≠ 0 ∧ s.percentile p ≤ report.aggregate.percentile p

/-- It is at most the largest one. -/
def BelowLargest (report : RunReport) (p : Percentile) : Prop :=
  ∃ s ∈ report.streams, s.packetsAcked ≠ 0 ∧ report.aggregate.percentile p ≤ s.percentile p

/-- The samples of the streams up to their percentiles are more than the rank of the pooled
one. -/
def RanksReach (report : RunReport) (q : ℚ) : Prop :=
  quantileIdx report.aggregate.packetsAcked q <
    (report.streams.map fun s => samplesUpTo s.packetsAcked q).sum

/-- What the percentiles of a report are computed from : the streams that the report lists,
with the latencies of their acknowledged packets. -/
structure Pooled (report : RunReport) (groups : List (StreamStats × List ℚ)) : Prop where
  streams : report.streams = groups.map Prod.fst
  length : ∀ g ∈ groups, g.2.length = g.1.packetsAcked
  percentile : ∀ g ∈ groups, ∀ p : Percentile, g.1.percentile p = quantile g.2 p.q
  aggregate : ∀ p : Percentile,
    report.aggregate.percentile p = quantile (groups.flatMap Prod.snd) p.q
  packetsAcked : report.aggregate.packetsAcked = (groups.flatMap Prod.snd).length

/-- Each report is made of pooled latencies. -/
theorem exists_pooled (cfg : LoopConfig) (inputs : List LoopInput) :
    ∃ groups, Pooled (runBenchmark cfg inputs) groups := by
  obtain ⟨hstreams, haggregate, -⟩ := runBenchmark_eq cfg inputs
  have hconserves := conserves_foldl (measuredEvents inputs)
  set m := (measuredEvents inputs).foldl applyEvent {}
  obtain ⟨stats, hstats, hentry⟩ := exists_streamStats m.streams (durationSecs cfg.duration)
  have hlength : ∀ entry ∈ m.streams.toList,
      entry.2.latenciesMs.length = entry.2.packetsAcked :=
    fun entry hmem => (hconserves.streams hmem).length_latenciesMs
  refine ⟨m.streams.toList.map fun entry => (stats entry, entry.2.latenciesMs), ?_, ?_, ?_, ?_, ?_⟩
  · rw [hstreams, hstats, List.map_map]
    rfl
  · intro g hg
    obtain ⟨entry, hmem, rfl⟩ := List.mem_map.mp hg
    exact (hlength entry hmem).trans (hentry entry).1.symm
  · intro g hg
    obtain ⟨entry, hmem, rfl⟩ := List.mem_map.mp hg
    exact (hentry entry).2
  · intro p
    rw [haggregate, percentile_buildAggregate, List.flatMap_map]
  · have hacked : (runBenchmark cfg inputs).aggregate.packetsAcked = m.totals.packetsAcked := by
      rw [haggregate]
      rfl
    rw [hacked, ← hconserves.sum_packetsAcked, KeyedFold.values_eq, List.map_map,
      List.flatMap_map, List.length_flatMap]
    exact congrArg List.sum (List.map_congr_left fun entry hmem => (hlength entry hmem).symm)

namespace Pooled

variable {report : RunReport} {groups : List (StreamStats × List ℚ)}

/-- The acknowledged packets of the aggregate are those of the streams. -/
theorem sum_packetsAcked (h : Pooled report groups) :
    (report.streams.map StreamStats.packetsAcked).sum = report.aggregate.packetsAcked := by
  rw [h.packetsAcked, h.streams, List.map_map, List.length_flatMap]
  exact congrArg List.sum (List.map_congr_left fun g hg => (h.length g hg).symm)

theorem isRank (h : Pooled report groups) (p : Percentile) {g : StreamStats × List ℚ}
    (hg : g ∈ groups) (hne : g.2 ≠ []) :
    IsRank g.2 (quantileIdx g.1.packetsAcked p.q) (g.1.percentile p) := by
  rw [← h.length g hg, h.percentile g hg]
  exact isRank_quantile hne p.q

theorem isRank_aggregate (h : Pooled report groups) (p : Percentile)
    (hacked : report.aggregate.packetsAcked ≠ 0) :
    IsRank (groups.flatMap Prod.snd) (quantileIdx report.aggregate.packetsAcked p.q)
      (report.aggregate.percentile p) := by
  have hne : groups.flatMap Prod.snd ≠ [] := by
    rintro hnil
    rw [h.packetsAcked, hnil] at hacked
    exact hacked rfl
  rw [h.packetsAcked, h.aggregate]
  exact isRank_quantile hne p.q

/-- A group with a latency is a stream with an acknowledged packet. -/
theorem stream_of_mem (h : Pooled report groups) {g : StreamStats × List ℚ} (hg : g ∈ groups)
    (hne : g.2 ≠ []) : g.1 ∈ report.streams ∧ g.1.packetsAcked ≠ 0 := by
  refine ⟨by rw [h.streams]; exact List.mem_map_of_mem hg, ?_⟩
  rw [← h.length g hg]
  exact (List.length_pos_iff.mpr hne).ne'

theorem aboveSmallest (h : Pooled report groups) (hacked : report.aggregate.packetsAcked ≠ 0)
    (p : Percentile) : AboveSmallest report p := by
  have hsum : (groups.map fun g => quantileIdx g.1.packetsAcked p.q).sum ≤
      quantileIdx report.aggregate.packetsAcked p.q := by
    have hle := sum_quantileIdx_le (q := p.q) (by cases p <;> norm_num [Percentile.q])
      (by cases p <;> norm_num [Percentile.q]) (report.streams.map StreamStats.packetsAcked)
    rw [h.sum_packetsAcked, h.streams, List.map_map, List.map_map] at hle
    exact hle
  obtain ⟨g, hg, hne, hle⟩ :=
    (h.isRank_aggregate p hacked).exists_le_flatMap (fun g hg hne => h.isRank p hg hne) hsum
  exact ⟨g.1, (h.stream_of_mem hg hne).1, (h.stream_of_mem hg hne).2, hle⟩

theorem belowLargest (h : Pooled report groups) (hacked : report.aggregate.packetsAcked ≠ 0)
    {p : Percentile} (hranks : RanksReach report p.q) : BelowLargest report p := by
  have hsum : quantileIdx report.aggregate.packetsAcked p.q < (groups.map fun g =>
      if g.2 = [] then 0 else quantileIdx g.1.packetsAcked p.q + 1).sum := by
    unfold RanksReach at hranks
    rw [h.streams, List.map_map] at hranks
    refine hranks.trans_eq (congrArg List.sum (List.map_congr_left fun g hg => ?_))
    simp only [Function.comp_apply, samplesUpTo, ← h.length g hg, List.length_eq_zero_iff]
  obtain ⟨g, hg, hne, hle⟩ :=
    (h.isRank_aggregate p hacked).exists_flatMap_le (fun g hg hne => h.isRank p hg hne) hsum
  exact ⟨g.1, (h.stream_of_mem hg hne).1, (h.stream_of_mem hg hne).2, hle⟩

theorem ranksReach_half (h : Pooled report groups) (hacked : report.aggregate.packetsAcked ≠ 0) :
    RanksReach report (50 / 100) := by
  have hle := samplesUpTo_half_le (report.streams.map StreamStats.packetsAcked)
  rw [h.sum_packetsAcked, List.map_map, samplesUpTo, if_neg hacked] at hle
  exact hle

end Pooled

/-- If a packet is acknowledged, then each percentile of the aggregate is at least the smallest
one of the streams. The median is at most the largest one, and so is any percentile if the
samples of the streams up to theirs are more than the rank of the pooled one. -/
theorem percentiles_pooled (cfg : LoopConfig) (inputs : List LoopInput)
    (hacked : (runBenchmark cfg inputs).aggregate.packetsAcked ≠ 0) :
    (∀ p, AboveSmallest (runBenchmark cfg inputs) p) ∧
      BelowLargest (runBenchmark cfg inputs) .p50 ∧
      ∀ p, RanksReach (runBenchmark cfg inputs) p.q → BelowLargest (runBenchmark cfg inputs) p := by
  obtain ⟨groups, h⟩ := exists_pooled cfg inputs
  exact ⟨h.aboveSmallest hacked, h.belowLargest hacked (h.ranksReach_half hacked),
    fun p => h.belowLargest hacked⟩

/-- One acknowledged packet. -/
theorem percentiles_pooled_one :
    let report := runBenchmark ⟨1000000000, 500000000, 0⟩
      [.event ⟨0, 1, 1200, 0, some 1000000, true⟩]
    (∀ p, AboveSmallest report p) ∧ BelowLargest report .p50 ∧
      ∀ p, RanksReach report p.q → BelowLargest report p :=
  percentiles_pooled _ _ (by decide +kernel)

/-- Two streams with 12 acknowledged packets each, of which the last one is slow. -/
def slowTails : List LoopInput :=
  [0, 1].flatMap fun streamId => (List.range 12).map fun k =>
    .event ⟨streamId, k + 1, 1200, 0, some (if k < 11 then 1000000 else 100000000), true⟩

theorem quantileIdx_slowTails :
    quantileIdx 12 (95 / 100) = 10 ∧ quantileIdx 24 (95 / 100) = 22 := by
  unfold quantileIdx
  rw [clamp_eq (by norm_num) (by norm_num), Nat.floor_eq_iff (by norm_num),
    Nat.floor_eq_iff (by norm_num)]
  norm_num

/-- The 95th percentile of each stream is its 11th sample, and so fast. That of the aggregate
is the 23rd of 24, and so slow. -/
theorem not_belowLargest_slowTails :
    (runBenchmark ⟨1000000000, 500000000, 0⟩ slowTails).aggregate.packetsAcked ≠ 0 ∧
      ¬BelowLargest (runBenchmark ⟨1000000000, 500000000, 0⟩ slowTails) .p95 := by
  obtain ⟨hidx, hidx'⟩ := quantileIdx_slowTails
  obtain ⟨hstreams, haggregate, -⟩ := runBenchmark_eq ⟨1000000000, 500000000, 0⟩ slowTails
  refine ⟨by decide +kernel, ?_⟩
  rintro ⟨s, hs, -, hle⟩
  have hslow : (runBenchmark ⟨1000000000, 500000000, 0⟩ slowTails).aggregate.percentile .p95 =
      100 := by
    rw [haggregate, percentile_buildAggregate]
    exact quantile_eq_of_isRank (by decide +kernel) (by decide +kernel) hidx'
      ⟨by decide +kernel, by decide +kernel⟩
  have hfast : s.percentile .p95 = 1 := by
    obtain ⟨stats, hstats, hentry⟩ := exists_streamStats
      ((measuredEvents slowTails).foldl applyEvent {}).streams (durationSecs 1000000000)
    rw [hstreams, hstats] at hs
    obtain ⟨⟨id, acc⟩, hmem, rfl⟩ := List.mem_map.mp hs
    rw [streams_foldl] at hmem
    have hids : id = 0 ∨ id = 1 := by
      have hkey := List.mem_map_of_mem (f := Prod.fst) hmem
      rw [Std.TreeMap.map_fst_toList_eq_keys] at hkey
      have hkeys : (KeyedFold.fold PacketEvent.streamId {} StreamAccumulator.record
          (measuredEvents slowTails)).keys = [0, 1] := by decide +kernel
      simpa [hkeys] using hkey
    have hacc := KeyedFold.mem_toList_fold _ _ _ hmem
    rw [(hentry (id, acc)).2]
    dsimp only
    rcases hids with rfl | rfl
    · subst hacc
      exact quantile_eq_of_isRank (by decide +kernel) (by decide +kernel) hidx
        ⟨by decide +kernel, by decide +kernel⟩
    · subst hacc
      exact quantile_eq_of_isRank (by decide +kernel) (by decide +kernel) hidx
        ⟨by decide +kernel, by decide +kernel⟩
  rw [hslow, hfast] at hle
  norm_num at hle

end Ipfusch
