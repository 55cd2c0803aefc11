import Ipfusch.Statistics
import Mathlib.Algebra.Order.Floor.Semifield

/-!
# The buckets of the latency histogram

The histogram keeps latencies in whole microseconds, in classes that leave 11 significant
bits. A bucket counts the classes up to that of its bound, so it counts exactly the latencies
up to the end of that class (`countBetween_eq`), which is at most 0.1 % above the bound
(`classEnd_le`).
-/

namespace Ipfusch

/-! ## Classes -/

/-- The first value after the class of `v`. -/
def Histogram.classEnd (v : ℕ) : ℕ :=
  (v / width v + 1) * width v

theorem Histogram.width_pos (v : ℕ) : 0 < width v :=
  Nat.two_pow_pos _

/-- A class is a single value, or at most `v / 1024` wide. -/
theorem Histogram.width_le (v : ℕ) : width v = 1 ∨ width v * 1024 ≤ v := by
  unfold width
  rcases Nat.lt_or_ge v.log2 10 with hlt | hge
  · left
    rw [Nat.sub_eq_zero_of_le hlt.le, Nat.pow_zero]
  · right
    have hv : v ≠ 0 := by
      rintro rfl
      simp at hge
    calc 2 ^ (v.log2 - 10) * 1024 = 2 ^ (v.log2 - 10 + 10) := by rw [Nat.pow_add]
      _ = 2 ^ v.log2 := by rw [Nat.sub_add_cancel hge]
      _ ≤ v := Nat.log2_self_le hv

theorem Histogram.lt_classEnd (v : ℕ) : v < classEnd v := by
  unfold classEnd
  have := Nat.lt_div_mul_add (a := v) (width_pos v)
  rw [Nat.add_mul, Nat.one_mul]
  exact this

theorem Histogram.classEnd_le (v : ℕ) : 1000 * (classEnd v - 1) ≤ 1001 * v := by
  have hend : classEnd v ≤ v + width v := by
    unfold classEnd
    rw [Nat.add_mul, Nat.one_mul]
    exact Nat.add_le_add_right (Nat.div_mul_le_self _ _) _
  rcases width_le v with hone | hwidth
  · omega
  · omega

/-- The values from `1` to the end of the class of `hi`. -/
theorem Histogram.countBetween_eq (h : Histogram) (hi : ℕ) :
    h.countBetween 1 hi = h.values.countP fun v => 1 ≤ v ∧ v ≤ classEnd hi - 1 := by
  have hone : 1 / width 1 * width 1 = 1 := by decide
  unfold countBetween
  refine List.countP_congr fun v _ => ?_
  have := lt_classEnd hi
  rw [hone]
  simp only [decide_eq_true_eq]
  unfold classEnd at this ⊢
  omega

/-! ## Latencies -/

/-- The latency of an acknowledged packet in microseconds, rounded down, but at least one. -/
def PacketEvent.latencyUs (event : PacketEvent) : Option ℕ :=
  event.recvMonoNs.map fun recvNs => max 1 ((recvNs - event.sendMonoNs) / 1000)

/-- The latencies of some events, in microseconds. -/
def latenciesUs (events : List PacketEvent) : List ℕ :=
  events.filterMap PacketEvent.latencyUs

theorem floor_latencyMs (sendMonoNs recvNs : ℕ) :
    ⌊max (latencyMs sendMonoNs recvNs * 1000) 1⌋₊ = max 1 ((recvNs - sendMonoNs) / 1000) := by
  have hus : latencyMs sendMonoNs recvNs * 1000 = ((recvNs - sendMonoNs : ℕ) : ℚ) / (1000 : ℕ) := by
    unfold latencyMs
    push_cast
    ring
  rw [hus, Nat.floor_mono.map_max, Nat.floor_div_eq_div, Nat.floor_one, max_comm]

/-- The values that an event adds to the histogram. -/
theorem recorded_eq (event : PacketEvent) :
    event.recorded = event.latencyUs.toList.filter (· < 2 ^ 27) := by
  unfold PacketEvent.recorded PacketEvent.latencyUs PacketEvent.latency
  cases event.recvMonoNs with
  | none => rfl
  | some recvNs =>
    simp only [Option.map_some, Option.toList_some, List.flatMap_singleton, floor_latencyMs]
    unfold Histogram.record
    split_ifs with h
    · rw [List.filter_cons_of_pos (by rwa [decide_eq_true_eq])]
      rfl
    · rw [List.filter_cons_of_neg (by rwa [decide_eq_true_eq])]
      rfl

/-- The histogram has the latencies in its range. -/
theorem histogram_eq (events : List PacketEvent) :
    (events.foldl applyEvent {}).histogram.values =
      (latenciesUs events).filter (· < 2 ^ 27) := by
  rw [histogram_foldl]
  unfold latenciesUs
  induction events with
  | nil => rfl
  | cons event events ih =>
    have hcons : (event :: events).filterMap PacketEvent.latencyUs =
        event.latencyUs.toList ++ events.filterMap PacketEvent.latencyUs := by
      cases h : event.latencyUs <;> simp [h]
    rw [List.flatMap_cons, ih, recorded_eq, hcons, List.filter_append]

theorem one_le_of_mem_latenciesUs {events : List PacketEvent} {u : ℕ}
    (h : u ∈ latenciesUs events) : 1 ≤ u := by
  obtain ⟨event, -, hu⟩ := List.mem_filterMap.mp h
  obtain ⟨recvNs, -, rfl⟩ := Option.map_eq_some_iff.mp hu
  exact le_max_left _ _

/-- A bucket in the range counts the latencies up to the end of its class. -/
theorem countBetween_histogram (events : List PacketEvent) {hi : ℕ}
    (hhi : Histogram.classEnd hi ≤ 2 ^ 27) :
    (events.foldl applyEvent {}).histogram.countBetween 1 hi =
      (latenciesUs events).countP (· ≤ Histogram.classEnd hi - 1) := by
  rw [Histogram.countBetween_eq, histogram_eq, List.countP_filter]
  refine List.countP_congr fun u hu => ?_
  have := one_le_of_mem_latenciesUs hu
  have := Histogram.lt_classEnd hi
  simp only [Bool.and_eq_true, decide_eq_true_eq]
  omega

/-! ## The buckets of the report -/

/-- The bounds of the buckets, in milliseconds. -/
def bucketBounds : List ℕ :=
  [1, 2, 5, 10, 20, 50, 100, 200, 500, 1000, 2000, 5000]

theorem pairwise_bucketBounds : bucketBounds.Pairwise fun m m' =>
    m < m' ∧ Histogram.classEnd (m * 1000) ≤ Histogram.classEnd (m' * 1000) := by
  decide

theorem classEnd_bucketBounds :
    ∀ m ∈ bucketBounds, Histogram.classEnd (m * 1000) ≤ 2 ^ 27 := by
  decide

theorem countP_limit_le {a b : ℕ} (h : a ≤ b) (us : List ℕ) :
    us.countP (· ≤ a) ≤ us.countP (· ≤ b) :=
  List.countP_mono_left fun u _ hu => by
    simp only [decide_eq_true_eq] at hu ⊢
    exact hu.trans h

/-- The number of acknowledged packets. -/
theorem length_latenciesUs (events : List PacketEvent) :
    (latenciesUs events).length = (events.foldl applyEvent {}).totals.packetsAcked := by
  rw [totals_foldl]
  unfold latenciesUs PacketEvent.latencyUs
  induction events with
  | nil => rfl
  | cons event events ih =>
    cases h : event.recvMonoNs <;> simp_all

/-- The buckets that are built from some events. -/
theorem buildHistogram_foldl_eq (events : List PacketEvent) :
    buildHistogram (events.foldl applyEvent {}).globalLatencies
        (events.foldl applyEvent {}).histogram =
      if latenciesUs events = [] then [] else bucketBounds.map fun m =>
        ⟨m, (latenciesUs events).countP (· ≤ Histogram.classEnd (m * 1000) - 1)⟩ := by
  have hempty : (events.foldl applyEvent {}).globalLatencies.isEmpty ↔ latenciesUs events = [] := by
    rw [globalLatencies_foldl, List.isEmpty_iff]
    unfold latenciesUs PacketEvent.latencyUs PacketEvent.latency
    simp [List.filterMap_eq_nil_iff]
  unfold buildHistogram
  simp only [hempty]
  split_ifs
  · rfl
  · exact List.map_congr_left fun m hm =>
      congrArg _ (countBetween_histogram events (classEnd_bucketBounds m hm))

/-- There are buckets if a packet was acknowledged. They are cumulative, count no more than the
acknowledged packets, and each counts exactly the latencies up to a limit that is at its bound,
or at most 0.1 % above. -/
theorem latencyHistogram_accurate (cfg : LoopConfig) (inputs : List LoopInput) :
    ((runBenchmark cfg inputs).latencyHistogram = [] ↔
      ∀ event ∈ measuredEvents inputs, event.recvMonoNs = none) ∧
    ((runBenchmark cfg inputs).latencyHistogram ≠ [] →
      (runBenchmark cfg inputs).latencyHistogram.map LatencyBucket.leMs = bucketBounds) ∧
    ((runBenchmark cfg inputs).latencyHistogram.Pairwise fun b b' =>
      b.leMs < b'.leMs ∧ b.count ≤ b'.count) ∧
    ∀ b ∈ (runBenchmark cfg inputs).latencyHistogram,
      b.count ≤ (runBenchmark cfg inputs).aggregate.packetsAcked ∧
        ∃ limit, 1000 * b.leMs ≤ limit ∧ 1000 * limit ≤ 1001 * (1000 * b.leMs) ∧
          b.count = (latenciesUs (measuredEvents inputs)).countP (· ≤ limit) := by
  obtain ⟨-, haggregate, hhistogram⟩ := runBenchmark_eq cfg inputs
  have hacked : (runBenchmark cfg inputs).aggregate.packetsAcked =
      (latenciesUs (measuredEvents inputs)).length := by
    rw [haggregate, length_latenciesUs]
    rfl
  rw [hhistogram, buildHistogram_foldl_eq, hacked]
  by_cases hnil : latenciesUs (measuredEvents inputs) = []
  · rw [if_pos hnil]
    refine ⟨iff_of_true rfl fun event hevent => ?_, fun h => absurd rfl h, List.Pairwise.nil,
      by simp⟩
    have hnone := List.filterMap_eq_nil_iff.mp hnil event hevent
    exact Option.map_eq_none_iff.mp hnone
  · rw [if_neg hnil]
    refine ⟨iff_of_false (by simp [bucketBounds]) fun hall => hnil ?_, fun _ => ?_,
      List.pairwise_map.mpr (pairwise_bucketBounds.imp fun hle =>
        ⟨hle.1, countP_limit_le (Nat.sub_le_sub_right hle.2 1) _⟩), ?_⟩
    · refine List.filterMap_eq_nil_iff.mpr fun event hevent => ?_
      rw [PacketEvent.latencyUs, hall event hevent, Option.map_none]
    · simp [Function.comp_def]
    · intro b hb
      obtain ⟨m, -, rfl⟩ := List.mem_map.mp hb
      have hlt := Histogram.lt_classEnd (m * 1000)
      have hle := Histogram.classEnd_le (m * 1000)
      exact ⟨List.countP_le_length, _, by dsimp only; omega, by dsimp only; omega, rfl⟩

end Ipfusch
