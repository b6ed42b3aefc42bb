/-
This file settles when the latest reading of a series is its newest one. The fast tail is in the
order of arrival, and two consumers take its last sample: the frame for the browsers and the spike
detector. The last sample is the newest one exactly as long as no sample of the tail has arrived
after a newer one; a sample that is overtaken stays in the tail until a hundred further samples
of its series have pushed it out.
-/

import PerfWeave.Server.FastRingLog
import PerfWeave.Server.SpikeRuns
import PerfWeave.Web.LiveIds

namespace PerfWeave

variable {Value : Type}

/-! ### What the consumers take -/

/-- A frame has a point of a series with the given value. -/
def Live.MetricFrame.Reports (frame : Live.MetricFrame Value) (k : SeriesKey) (value : Value) :
    Prop :=
  ∃ g ∈ frame.gpus, (g.nodeId, g.gpuId) = k.gpu ∧ ⟨k.metricId, value⟩ ∈ g.metrics

theorem SeriesKey.eq_of_gpu {first second : SeriesKey} (sameGpu : first.gpu = second.gpu)
    (sameMetric : first.metricId = second.metricId) : first = second := by
  obtain ⟨sameNode, sameGpuId⟩ := Prod.mk.inj sameGpu
  cases first
  cases second
  rw [SeriesKey.mk.injEq]
  exact ⟨sameNode, sameGpuId, sameMetric⟩

theorem FastRingSnapshot.mem_visited_iff (snapshot : FastRingSnapshot Value)
    (order : List SeriesKey) (k : SeriesKey) (v : SeriesSnapshot Value) :
    (k, v) ∈ snapshot.visited order ↔ k ∈ order ∧ snapshot.series k = some v := by
  unfold visited
  rw [List.mem_filterMap]
  constructor
  · rintro ⟨other, member, found⟩
    obtain ⟨tails, series, pair⟩ := Option.map_eq_some_iff.mp found
    obtain ⟨rfl, rfl⟩ := Prod.mk.inj pair
    exact ⟨member, series⟩
  · rintro ⟨member, series⟩
    exact ⟨k, member, by rw [series, Option.map_some]⟩

/-- A frame reports the series of the snapshot it was built from. -/
theorem reports_buildMetricFrame_iff [Zero Value] (snapshot : FastRingSnapshot Value)
    (order : List SeriesKey) (now : UInt64) (k : SeriesKey) (value : Value) :
    (buildMetricFrame snapshot order now).Reports k value ↔
      k ∈ order ∧ ∃ v, snapshot.series k = some v ∧ v.latestValue = value := by
  unfold Live.MetricFrame.Reports buildMetricFrame
  dsimp only
  constructor
  · rintro ⟨g, inGpus, sameGpu, inMetrics⟩
    obtain ⟨gpu, _, rfl⟩ := List.mem_map.mp inGpus
    obtain ⟨⟨other, v⟩, kept, point⟩ := List.mem_map.mp inMetrics
    obtain ⟨inVisited, ofGpu⟩ := List.mem_filter.mp kept
    obtain ⟨sameMetric, sameValue⟩ := Live.MetricPoint.mk.inj point
    obtain rfl := SeriesKey.eq_of_gpu ((of_decide_eq_true ofGpu).trans sameGpu) sameMetric
    obtain ⟨member, series⟩ := (snapshot.mem_visited_iff order other v).mp inVisited
    exact ⟨member, v, series, sameValue⟩
  · rintro ⟨member, v, series, rfl⟩
    have inVisited := (snapshot.mem_visited_iff order k v).mpr ⟨member, series⟩
    refine ⟨_, List.mem_map.mpr ⟨k.gpu, ?_, rfl⟩, rfl, ?_⟩
    · rw [(List.mergeSort_perm _ gpuLe).mem_iff, List.mem_dedup]
      exact List.mem_map.mpr ⟨(k, v), inVisited, rfl⟩
    · exact List.mem_map.mpr ⟨(k, v), List.mem_filter.mpr ⟨inVisited, decide_eq_true rfl⟩, rfl⟩

/-- A tick works on the series of the snapshot that have a sample in their fast tail. -/
theorem mem_work_iff (snapshot : FastRingSnapshot Value) (order : List SeriesKey) (k : SeriesKey)
    (x : Value) (snap : SeriesSnapshot Value) :
    (k, x, snap) ∈ SpikeDetector.work snapshot order ↔
      k ∈ order ∧ snapshot.series k = some snap ∧
        ∃ latest, snap.fast.getLast? = some latest ∧ latest.value = x := by
  unfold SpikeDetector.work
  rw [List.mem_filterMap]
  constructor
  · rintro ⟨other, member, found⟩
    obtain ⟨⟨latest, tails⟩, reads, entry⟩ := Option.map_eq_some_iff.mp found
    obtain ⟨rfl, sameRest⟩ := Prod.mk.inj entry
    obtain ⟨sameValue, rfl⟩ := Prod.mk.inj sameRest
    obtain ⟨series, last⟩ := FastRingSnapshot.latest_eq_some_iff.mp reads
    exact ⟨member, series, latest, last, sameValue⟩
  · rintro ⟨member, series, latest, last, rfl⟩
    exact ⟨k, member, by rw [FastRingSnapshot.latest_eq_some_iff.mpr ⟨series, last⟩]; rfl⟩

/-! ### The order of the fast tail -/

/-- The second sample is not earlier than the first. -/
def NotEarlier (first second : Sample Value) : Prop := first.tsNs ≤ second.tsNs

instance : @Trans (Sample Value) (Sample Value) (Sample Value) NotEarlier NotEarlier NotEarlier :=
  ⟨UInt64.le_trans⟩

/-- The fast tail of a series in a snapshot is ordered oldest first, and its last sample, whose
value the frame reports and the tick tests, has the greatest timestamp in it. -/
structure FastRingSnapshot.LatestIsNewest [Zero Value] (snapshot : FastRingSnapshot Value)
    (k : SeriesKey) (tails : SeriesSnapshot Value) : Prop where
  ordered : tails.fast.Pairwise NotEarlier
  newest : ∃ s ∈ tails.fast, (∀ other ∈ tails.fast, other.tsNs ≤ s.tsNs) ∧
    ∀ order, k ∈ order →
      (∀ now value, (buildMetricFrame snapshot order now).Reports k value ↔ value = s.value) ∧
        ∀ x snap, (k, x, snap) ∈ SpikeDetector.work snapshot order ↔ x = s.value ∧ snap = tails

/-- An ordered tail that is not empty ends in a newest sample, which both consumers take. -/
theorem FastRingSnapshot.latestIsNewest_of_ordered [Zero Value] {snapshot : FastRingSnapshot Value}
    {k : SeriesKey} {tails : SeriesSnapshot Value} (series : snapshot.series k = some tails)
    (nonempty : tails.fast ≠ []) (ordered : tails.fast.Pairwise NotEarlier) :
    snapshot.LatestIsNewest k tails := by
  obtain ⟨older, s, tail⟩ := (List.eq_nil_or_concat' tails.fast).resolve_left nonempty
  have last : tails.fast.getLast? = some s := by rw [tail, List.getLast?_concat]
  have reported : tails.latestValue = s.value := by
    rw [SeriesSnapshot.latestValue, last, Option.some_or, Option.map_some, Option.getD_some]
  refine ⟨ordered, s, List.mem_of_getLast? last, fun other member => ?_, fun order inOrder =>
    ⟨fun now value => ?_, fun x snap => ?_⟩⟩
  · rw [tail] at ordered member
    rcases List.mem_append.mp member with isOlder | isLast
    · exact (List.pairwise_append.mp ordered).2.2 other isOlder s (List.mem_singleton_self s)
    · rw [List.mem_singleton.mp isLast]
      exact UInt64.le_refl _
  · rw [reports_buildMetricFrame_iff, and_iff_right inOrder, series]
    simp only [Option.some.injEq, exists_eq_left', reported]
    exact eq_comm
  · rw [mem_work_iff, and_iff_right inOrder, series, Option.some.injEq]
    constructor
    · rintro ⟨rfl, latest, isLast, rfl⟩
      rw [last, Option.some.injEq] at isLast
      exact ⟨congrArg Sample.value isLast.symm, rfl⟩
    · rintro ⟨rfl, rfl⟩
      exact ⟨rfl, s, last, rfl⟩

/-! ### Runs -/

/-- The fast tail of a series is ordered exactly when every sample of it that has arrived right
after a newer one is out of the tail again. -/
theorem pairwise_fast_iff {log : List (Sample Value)} :
    (log.rtake fastCapacity).Pairwise NotEarlier ↔ ∀ earlier s t later,
      log = earlier ++ s :: t :: later → t.tsNs < s.tsNs → fastCapacity ≤ later.length + 1 := by
  rw [← List.isChain_iff_pairwise, RingBuffer.isChain_rtake_iff]
  simp only [NotEarlier, UInt64.not_le]

/-- The latest reading of every series is its newest one in every snapshot that a run publishes
exactly when each sample that arrives right after a newer one of its series is published only
with at least 99 further samples of the series. -/
theorem latestIsNewest_iff [Zero Value] (ops : List (FastRingOp Value)) :
    (∀ before now after, ops = before ++ .publish now :: after → ∀ k tails,
        (run FastRing.step FastRing.new (before ++ [.publish now])).snapshot.series k =
            some tails →
          (run FastRing.step FastRing.new (before ++ [.publish now])).snapshot.LatestIsNewest k
            tails) ↔
      ∀ before now after, ops = before ++ .publish now :: after → ∀ k earlier s t later,
        pushedTo k before = earlier ++ s :: t :: later → t.tsNs < s.tsNs →
          fastCapacity ≤ later.length + 1 := by
  refine forall_congr' fun before => forall_congr' fun now => forall_congr' fun after =>
    imp_congr_right fun _ => forall_congr' fun k => ?_
  rw [← pairwise_fast_iff]
  have shown := FastRing.series_publish before now k
  split at shown
  · rename_i none
    rw [none]
    exact iff_of_true (fun tails series => absurd (shown.symm.trans series) nofun) .nil
  · rename_i pushed
    have fast := SeriesRing.fast_run (pushedTo k before)
    have nonempty : (pushedTo k before).rtake fastCapacity ≠ [] := RingBuffer.rtake_ne_nil pushed
      (by decide)
    rw [← fast] at nonempty ⊢
    constructor
    · intro newest
      exact (newest _ shown).ordered
    · rintro ordered tails series
      obtain rfl := Option.some.inj (shown.symm.trans series)
      exact FastRingSnapshot.latestIsNewest_of_ordered shown nonempty ordered

/-- A reading of 2 s and, from another stream, one of 1 s. -/
def overtaken : List (FastRingOp Nat) :=
  [.push ⟨0, 0, 42⟩ ⟨2000000000, 7⟩, .push ⟨0, 0, 42⟩ ⟨1000000000, 9⟩]

/-- A late reading of the past is broadcast as the latest one. -/
theorem exists_latest_not_newest :
    ¬ ∀ (ops before : List (FastRingOp Nat)) (now : UInt64) (after : List (FastRingOp Nat)),
      ops = before ++ .publish now :: after → ∀ k tails,
        (run FastRing.step FastRing.new (before ++ [.publish now])).snapshot.series k =
            some tails →
          (run FastRing.step FastRing.new (before ++ [.publish now])).snapshot.LatestIsNewest k
            tails := by
  intro newest
  have shown := FastRing.series_publish overtaken 5 ⟨0, 0, 42⟩
  rw [if_neg (by decide)] at shown
  have ordered := (newest _ overtaken 5 [] rfl ⟨0, 0, 42⟩ _ shown).ordered
  rw [SeriesRing.snapshot, SeriesRing.fast_run] at ordered
  have apart := pairwise_fast_iff.mp ordered [] ⟨2000000000, 7⟩ ⟨1000000000, 9⟩ [] rfl (by decide)
  exact absurd apart (by decide)

end PerfWeave
