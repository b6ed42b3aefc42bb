/-
This file models the way of a metric id from the ring to the browser: the frame of
`perfweave-server/src/live.rs`, its integers as JSON literals, the listener of `web/src/live.ts`
that keys its series by node, GPU and metric, and the effect of `web/src/timeline/Timeline.tsx`
that reads the metric id back out of a key. A text is the list of its characters. A JSON number
is read as a double, so an integer keeps its 53 leading bits. `String` of an integer is taken to
write out all its digits: below `2 ^ 53` it does, above JavaScript writes the shortest digits that
give the same double. Readings are finite; JSON has `null` for the others.
-/

import PerfWeave.Library.Relational
import PerfWeave.Library.SignificantBits
import PerfWeave.Server.FastRing

namespace PerfWeave

variable {Value : Type}

/-! ### The frame -/

/-- `MetricPoint`. -/
structure Live.MetricPoint (Value : Type) where
  metricId : UInt64
  latest : Value

/-- `GpuFrame`. -/
structure Live.GpuFrame (Value : Type) where
  nodeId : UInt32
  gpuId : UInt32
  metrics : List (Live.MetricPoint Value)

/-- `MetricFrame`. -/
structure Live.MetricFrame (Value : Type) where
  tsNs : UInt64
  serverNowNs : UInt64
  gpus : List (Live.GpuFrame Value)

/-- The value that a frame reports of a series. -/
def SeriesSnapshot.latestValue [Zero Value] (v : SeriesSnapshot Value) : Value :=
  ((v.fast.getLast?.or v.slow.getLast?).map Sample.value).getD 0

/-- The order of `sort_by_key(|g| (g.node_id, g.gpu_id))`. -/
def gpuLe (first second : UInt32 × UInt32) : Bool :=
  first.1 < second.1 ∨ first.1 = second.1 ∧ first.2 ≤ second.2

/-- The GPU of a series. -/
def SeriesKey.gpu (k : SeriesKey) : UInt32 × UInt32 := (k.nodeId, k.gpuId)

/-- The series that an iteration of the snapshot in the given order meets. -/
def FastRingSnapshot.visited (snapshot : FastRingSnapshot Value) (order : List SeriesKey) :
    List (SeriesKey × SeriesSnapshot Value) :=
  order.filterMap fun k => (snapshot.series k).map fun v => (k, v)

/-- `build_metric_frame` at the host time `now`, on a snapshot iterated in the given order. -/
def buildMetricFrame [Zero Value] (snapshot : FastRingSnapshot Value) (order : List SeriesKey)
    (now : UInt64) : Live.MetricFrame Value :=
  let visited := snapshot.visited order
  let byGpu := (visited.map fun entry => entry.1.gpu).dedup.mergeSort gpuLe
  { tsNs := snapshot.publishedAtNs
    serverNowNs := now
    gpus := byGpu.map fun gpu =>
      { nodeId := gpu.1
        gpuId := gpu.2
        metrics := (visited.filter fun entry => entry.1.gpu = gpu).map fun entry =>
          ⟨entry.1.metricId, entry.2.latestValue⟩ } }

/-! ### On the wire -/

/-- An integer as `serde_json` writes it. -/
def jsonInteger (n : Nat) : List Char := Nat.toDigits 10 n

/-- A `MetricPoint` on the wire, with a finite reading. -/
structure WirePoint (Value : Type) where
  metricId : List Char
  latest : Value

/-- A `GpuFrame` on the wire. -/
structure WireGpu (Value : Type) where
  nodeId : List Char
  gpuId : List Char
  metrics : List (WirePoint Value)

/-- A `MetricFrame` on the wire. -/
structure WireFrame (Value : Type) where
  tsNs : List Char
  serverNowNs : List Char
  gpus : List (WireGpu Value)

/-- `frame_to_sse` of a metric frame. -/
def frameToSse (frame : Live.MetricFrame Value) : WireFrame Value where
  tsNs := jsonInteger frame.tsNs.toNat
  serverNowNs := jsonInteger frame.serverNowNs.toNat
  gpus := frame.gpus.map fun g =>
    { nodeId := jsonInteger g.nodeId.toNat
      gpuId := jsonInteger g.gpuId.toNat
      metrics := g.metrics.map fun m => ⟨jsonInteger m.metricId.toNat, m.latest⟩ }

/-! ### In the browser -/

/-- `JSON.parse` of an integer literal: the nearest double. -/
def parseInteger (literal : List Char) : Nat :=
  roundSignificant 53 (Nat.ofDigitChars 10 literal 0)

/-- `String` of an integer, all its digits. -/
def numberToString (n : Nat) : List Char := Nat.toDigits 10 n

/-- `seriesKey`. -/
def seriesKey (nodeId gpuId : Nat) (metricId : List Char) : List Char :=
  numberToString nodeId ++ ':' :: (numberToString gpuId ++ ':' :: metricId)

/-- `RING_SIZE`. -/
def ringSize : Nat := 120

/-- `LiveMetricSample`. -/
structure LiveMetricSample (Value : Type) where
  tsNs : Nat
  value : Value

/-- `LiveSeriesMap`. -/
abbrev LiveSeriesMap (Value : Type) := List Char → Option (List (LiveMetricSample Value))

/-- The series of the listener after a sample of the series with the given key. -/
def LiveSeriesMap.append (ring : LiveSeriesMap Value) (k : List Char)
    (sample : LiveMetricSample Value) : LiveSeriesMap Value :=
  Function.update ring k (some (((ring k).getD [] ++ [sample]).rtake ringSize))

/-- The keys that the listener computes from a frame, with the samples it files under them. -/
def liveSamples (msg : WireFrame Value) : List (List Char × LiveMetricSample Value) :=
  msg.gpus.flatMap fun g => g.metrics.map fun m =>
    (seriesKey (parseInteger g.nodeId) (parseInteger g.gpuId)
        (numberToString (parseInteger m.metricId)),
      ⟨parseInteger msg.tsNs, m.latest⟩)

/-- The listener for `metric`. -/
def handleMetric (ring : LiveSeriesMap Value) (msg : WireFrame Value) : LiveSeriesMap Value :=
  (liveSamples msg).foldl (fun ring sample => ring.append sample.1 sample.2) ring

/-- `BigInt` of a text of decimal digits. -/
def bigInt (text : List Char) : Option Nat :=
  if text.all Char.isDigit then some (Nat.ofDigitChars 10 text 0) else none

/-- The metric id that the catalog effect reads out of a key. -/
def catalogId (key : List Char) : Option Nat := (key.splitOn ':')[2]?.bind bigInt

/-! ### What becomes of an id -/

/-- The key of the listener for a series. -/
def SeriesKey.browserKey (k : SeriesKey) : List Char :=
  seriesKey (parseInteger (jsonInteger k.nodeId.toNat)) (parseInteger (jsonInteger k.gpuId.toNat))
    (numberToString (parseInteger (jsonInteger k.metricId.toNat)))

theorem parseInteger_jsonInteger (n : Nat) :
    parseInteger (jsonInteger n) = roundSignificant 53 n := by
  rw [parseInteger, jsonInteger, Nat.ofDigitChars_ten_toDigits]

/-- Node and GPU ids arrive as they are. -/
theorem parseInteger_jsonInteger_u32 (word : UInt32) :
    parseInteger (jsonInteger word.toNat) = word.toNat := by
  rw [parseInteger_jsonInteger]
  exact roundSignificant_of_lt (by decide) (word.toNat_lt.trans (by decide))

theorem isDigit_of_mem_numberToString {n : Nat} {c : Char} (member : c ∈ numberToString n) :
    c.isDigit :=
  Nat.isDigit_of_mem_toDigits (by decide) (by decide) member

theorem colon_not_mem_numberToString (n : Nat) : ':' ∉ numberToString n :=
  fun member => absurd (isDigit_of_mem_numberToString member) (by decide)

/-- The three parts of a key. -/
theorem splitOn_seriesKey (nodeId gpuId metricId : Nat) :
    (seriesKey nodeId gpuId (numberToString metricId)).splitOn ':' =
      [numberToString nodeId, numberToString gpuId, numberToString metricId] := by
  have joined : seriesKey nodeId gpuId (numberToString metricId) = [':'].intercalate
      [numberToString nodeId, numberToString gpuId, numberToString metricId] := by
    simp [seriesKey, List.intercalate]
  rw [joined]
  refine List.splitOn_intercalate ':' ?_ (by simp)
  simp only [List.mem_cons, List.not_mem_nil, or_false]
  rintro part (rfl | rfl | rfl) <;> exact colon_not_mem_numberToString _

theorem bigInt_numberToString (n : Nat) : bigInt (numberToString n) = some n := by
  unfold bigInt
  rw [if_pos (List.all_eq_true.mpr fun c member => isDigit_of_mem_numberToString member)]
  exact congrArg some Nat.ofDigitChars_ten_toDigits

theorem numberToString_injective : Function.Injective numberToString := by
  intro first second same
  have read := congrArg bigInt same
  rwa [bigInt_numberToString, bigInt_numberToString, Option.some.injEq] at read

/-- A series key says what it was made of. -/
theorem seriesKey_injective {nodeId gpuId metricId otherNode otherGpu otherMetric : Nat}
    (same : seriesKey nodeId gpuId (numberToString metricId) =
      seriesKey otherNode otherGpu (numberToString otherMetric)) :
    nodeId = otherNode ∧ gpuId = otherGpu ∧ metricId = otherMetric := by
  have parts := congrArg (List.splitOn ':') same
  rw [splitOn_seriesKey, splitOn_seriesKey] at parts
  obtain ⟨node, rest⟩ := List.cons.inj parts
  obtain ⟨gpu, rest⟩ := List.cons.inj rest
  obtain ⟨metric, _⟩ := List.cons.inj rest
  exact ⟨numberToString_injective node, numberToString_injective gpu,
    numberToString_injective metric⟩

theorem SeriesKey.browserKey_eq (k : SeriesKey) :
    k.browserKey = seriesKey k.nodeId.toNat k.gpuId.toNat
      (numberToString (roundSignificant 53 k.metricId.toNat)) := by
  rw [browserKey, parseInteger_jsonInteger_u32, parseInteger_jsonInteger_u32,
    parseInteger_jsonInteger]

/-- The id that comes back out of a key has kept its 53 leading bits. -/
theorem catalogId_browserKey (k : SeriesKey) :
    catalogId k.browserKey = some (roundSignificant 53 k.metricId.toNat) := by
  rw [catalogId, k.browserKey_eq, splitOn_seriesKey]
  exact bigInt_numberToString _

/-! ### Frames -/

/-- The listener computes the key of every series of the snapshot that a frame was built from. -/
theorem keys_liveSamples [Zero Value] (snapshot : FastRingSnapshot Value) (order : List SeriesKey)
    (now : UInt64) :
    ((liveSamples (frameToSse (buildMetricFrame snapshot order now))).map Prod.fst).Perm
      ((snapshot.visited order).map fun entry => entry.1.browserKey) := by
  have sameKey : ∀ gpu : UInt32 × UInt32,
      ((snapshot.visited order).filter fun entry => entry.1.gpu = gpu).map (fun entry =>
          seriesKey (parseInteger (jsonInteger gpu.1.toNat))
            (parseInteger (jsonInteger gpu.2.toNat))
            (numberToString (parseInteger (jsonInteger entry.1.metricId.toNat)))) =
        ((snapshot.visited order).filter fun entry => entry.1.gpu = gpu).map fun entry =>
          entry.1.browserKey := by
    intro gpu
    refine List.map_congr_left fun entry member => ?_
    obtain rfl := of_decide_eq_true (List.mem_filter.mp member).2
    rfl
  have keys : (liveSamples (frameToSse (buildMetricFrame snapshot order now))).map Prod.fst =
      ((((snapshot.visited order).map fun entry => entry.1.gpu).dedup.mergeSort gpuLe).flatMap
        fun gpu => (snapshot.visited order).filter fun entry => entry.1.gpu = gpu).map fun entry =>
          entry.1.browserKey := by
    rw [List.map_flatMap, ← List.flatMap_congr fun gpu _ => sameKey gpu]
    unfold liveSamples frameToSse buildMetricFrame
    simp only [List.flatMap_map, List.map_flatMap]
    refine List.flatMap_congr fun gpu _ => ?_
    simp only [List.map_map]
    rfl
  have distinct := (List.mergeSort_perm _ gpuLe).nodup_iff.mpr
    (List.nodup_dedup ((snapshot.visited order).map fun entry => entry.1.gpu))
  rw [keys]
  refine (perm_flatMap_group (fun entry : SeriesKey × SeriesSnapshot Value => entry.1.gpu)
    distinct fun entry member => ?_).map _
  rw [(List.mergeSort_perm _ gpuLe).mem_iff, List.mem_dedup]
  exact List.mem_map_of_mem member

/-- The listener has the series that it had and those of the frame. -/
theorem isSome_handleMetric_iff (ring : LiveSeriesMap Value) (msg : WireFrame Value)
    (key : List Char) :
    (handleMetric ring msg key).isSome ↔
      (ring key).isSome ∨ key ∈ (liveSamples msg).map Prod.fst := by
  unfold handleMetric
  induction liveSamples msg generalizing ring with
  | nil => simp
  | cons sample rest inductionHypothesis =>
    rw [List.foldl_cons, inductionHypothesis, List.map_cons, List.mem_cons, ← or_assoc]
    refine or_congr_left ?_
    unfold LiveSeriesMap.append
    by_cases same : key = sample.1
    · rw [same, Function.update_self]
      exact iff_of_true rfl (.inr rfl)
    · rw [Function.update_of_ne same]
      exact (or_iff_left same).symm

/-- Two series keep apart in the browser, and their ids come back out of their keys. -/
structure IdsSurvive (first second : SeriesKey) : Prop where
  distinct : first.browserKey ≠ second.browserKey
  firstId : catalogId first.browserKey = some first.metricId.toNat
  secondId : catalogId second.browserKey = some second.metricId.toNat

/-- The listener files every series of a frame under its key. Two series keep apart and their ids
come back out of the keys exactly when both ids have at most 53 significant bits. -/
theorem idsSurvive_iff [Zero Value] (snapshot : FastRingSnapshot Value) (order : List SeriesKey)
    (now : UInt64) :
    (∀ ring key, (handleMetric ring (frameToSse (buildMetricFrame snapshot order now)) key).isSome ↔
        (ring key).isSome ∨ ∃ entry ∈ snapshot.visited order, entry.1.browserKey = key) ∧
      ∀ first second : SeriesKey, first ≠ second →
        (IdsSurvive first second ↔
          FitsIn 53 first.metricId.toNat ∧ FitsIn 53 second.metricId.toNat) := by
  constructor
  · intro ring key
    rw [isSome_handleMetric_iff, (keys_liveSamples snapshot order now).mem_iff, List.mem_map]
  intro first second differ
  have exact : ∀ k : SeriesKey, catalogId k.browserKey = some k.metricId.toNat ↔
      FitsIn 53 k.metricId.toNat := by
    intro k
    rw [catalogId_browserKey, Option.some.injEq, roundSignificant_eq_self_iff (by decide)]
  constructor
  · rintro ⟨_, firstId, secondId⟩
    exact ⟨(exact first).mp firstId, (exact second).mp secondId⟩
  · rintro ⟨firstFits, secondFits⟩
    refine ⟨fun same => differ ?_, (exact first).mpr firstFits, (exact second).mpr secondFits⟩
    rw [first.browserKey_eq, second.browserKey_eq] at same
    obtain ⟨node, gpu, metric⟩ := seriesKey_injective same
    rw [(roundSignificant_eq_self_iff (by decide) _).mpr firstFits,
      (roundSignificant_eq_self_iff (by decide) _).mpr secondFits] at metric
    obtain ⟨firstNode, firstGpu, firstMetric⟩ := first
    obtain ⟨secondNode, secondGpu, secondMetric⟩ := second
    rw [SeriesKey.mk.injEq]
    exact ⟨UInt32.toNat_inj.mp node, UInt32.toNat_inj.mp gpu, UInt64.toNat_inj.mp metric⟩

/-- A snapshot without series. -/
def silentSnapshot : FastRingSnapshot Int := ⟨fun _ => none, 0⟩

theorem idsSurvive_iff_small : IdsSurvive ⟨0, 0, 42⟩ ⟨0, 0, 43⟩ ↔ FitsIn 53 42 ∧ FitsIn 53 43 :=
  (idsSurvive_iff silentSnapshot [] 5).2 ⟨0, 0, 42⟩ ⟨0, 0, 43⟩ (by decide)

/-- Two ids that differ in their 54th bit share a key. -/
theorem exists_ids_not_survive :
    ¬ ∀ first second : SeriesKey, first ≠ second → IdsSurvive first second := by
  intro survive
  have distinct := (survive ⟨0, 0, 9007199254740992⟩ ⟨0, 0, 9007199254740993⟩ (by decide)).distinct
  rw [SeriesKey.browserKey_eq, SeriesKey.browserKey_eq] at distinct
  exact distinct (by decide)

end PerfWeave
