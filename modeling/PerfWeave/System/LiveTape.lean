/-
This file follows a reading from the ring of `perfweave-server/src/fast_ring.rs` to the ring that
`web/src/live.ts` keeps of its series: the ticker of `live.rs` reports the latest reading of every
series of the snapshot, and the browser files what it receives under the time of the publish. A
frame that a browser is too slow for, or that finds none connected, is not received. When a frame is
handled makes no difference to what it says. Readings are finite, and the metric id in a key is
written out in full, as JavaScript does below `2 ^ 53`.
-/

import PerfWeave.Web.LiveIds

namespace PerfWeave

variable {Value : Type}

/-! ### The tape -/

/-- The ring of the server and the series of a browser. -/
structure LiveTape (Value : Type) where
  fast : FastRing Value
  series : LiveSeriesMap Value

/-- What can happen: an operation on the ring, or a frame built at the host time `now` from the
snapshot iterated in the given order, which the browser receives or not. -/
inductive LiveTapeInput (Value : Type) where
  | ring (op : FastRingOp Value)
  | frame (order : List SeriesKey) (now : UInt64) (received : Bool)

/-- One input. -/
def LiveTape.step [Zero Value] (tape : LiveTape Value) : LiveTapeInput Value → LiveTape Value
  | .ring op => { tape with fast := tape.fast.step op }
  | .frame order now received =>
    if received then
      { tape with
        series := handleMetric tape.series
          (frameToSse (buildMetricFrame tape.fast.snapshot order now)) }
    else tape

/-- The tape after its inputs. -/
def liveTapeRun [Zero Value] (inputs : List (LiveTapeInput Value)) : LiveTape Value :=
  run LiveTape.step ⟨.new, fun _ => none⟩ inputs

/-- An order lists the series of a snapshot, each once. -/
def FastRingSnapshot.IteratedBy (snapshot : FastRingSnapshot Value) (order : List SeriesKey) :
    Prop :=
  order.Nodup ∧ ∀ k, k ∈ order ↔ (snapshot.series k).isSome

/-- What a frame from a snapshot reports of a series. -/
def FastRingSnapshot.report [Zero Value] (snapshot : FastRingSnapshot Value) (k : SeriesKey) :
    Option (LiveMetricSample Value) :=
  (snapshot.series k).map fun v =>
    ⟨parseInteger (jsonInteger snapshot.publishedAtNs.toNat), v.latestValue⟩

/-- What a browser is told of a series from a ring on. -/
def reportsOf [Zero Value] (k : SeriesKey) : FastRing Value → List (LiveTapeInput Value) →
    List (LiveMetricSample Value)
  | _, [] => []
  | fast, .ring op :: rest => reportsOf k (fast.step op) rest
  | fast, .frame _ _ received :: rest =>
    (if received then (fast.snapshot.report k).toList else []) ++ reportsOf k fast rest

/-! ### A frame -/

/-- The listener files the report of every series of a snapshot under its key. -/
theorem perm_liveSamples [Zero Value] (snapshot : FastRingSnapshot Value) (order : List SeriesKey)
    (now : UInt64) :
    (liveSamples (frameToSse (buildMetricFrame snapshot order now))).Perm
      ((snapshot.visited order).map fun entry => (entry.1.browserKey,
        ⟨parseInteger (jsonInteger snapshot.publishedAtNs.toNat), entry.2.latestValue⟩)) := by
  have sameGpu : ∀ gpu : UInt32 × UInt32,
      ((snapshot.visited order).filter fun entry => entry.1.gpu = gpu).map (fun entry =>
          (seriesKey (parseInteger (jsonInteger gpu.1.toNat))
            (parseInteger (jsonInteger gpu.2.toNat))
            (numberToString (parseInteger (jsonInteger entry.1.metricId.toNat))),
            (⟨parseInteger (jsonInteger snapshot.publishedAtNs.toNat), entry.2.latestValue⟩ :
              LiveMetricSample Value))) =
        ((snapshot.visited order).filter fun entry => entry.1.gpu = gpu).map fun entry =>
          (entry.1.browserKey,
            ⟨parseInteger (jsonInteger snapshot.publishedAtNs.toNat), entry.2.latestValue⟩) := by
    intro gpu
    refine List.map_congr_left fun entry member => ?_
    obtain rfl := of_decide_eq_true (List.mem_filter.mp member).2
    rfl
  have samples : liveSamples (frameToSse (buildMetricFrame snapshot order now)) =
      ((((snapshot.visited order).map fun entry => entry.1.gpu).dedup.mergeSort gpuLe).flatMap
        fun gpu => (snapshot.visited order).filter fun entry => entry.1.gpu = gpu).map fun entry =>
          (entry.1.browserKey,
            ⟨parseInteger (jsonInteger snapshot.publishedAtNs.toNat), entry.2.latestValue⟩) := by
    rw [List.map_flatMap, ← List.flatMap_congr fun gpu _ => sameGpu gpu]
    unfold liveSamples frameToSse buildMetricFrame
    simp only [List.flatMap_map]
    refine List.flatMap_congr fun gpu _ => ?_
    simp only [List.map_map]
    rfl
  have distinct := (List.mergeSort_perm _ gpuLe).nodup_iff.mpr
    (List.nodup_dedup ((snapshot.visited order).map fun entry => entry.1.gpu))
  rw [samples]
  refine (perm_flatMap_group (fun entry : SeriesKey × SeriesSnapshot Value => entry.1.gpu)
    distinct fun entry member => ?_).map _
  rw [(List.mergeSort_perm _ gpuLe).mem_iff, List.mem_dedup]
  exact List.mem_map_of_mem member

/-- A snapshot iterated as it should be has a series once or not at all. -/
theorem FastRingSnapshot.IteratedBy.visited_filter {snapshot : FastRingSnapshot Value}
    {order : List SeriesKey} (iterated : snapshot.IteratedBy order) (k : SeriesKey) :
    (snapshot.visited order).filter (fun entry => entry.1 = k) =
      ((snapshot.series k).map fun v => (k, v)).toList := by
  obtain ⟨nodup, lists⟩ := iterated
  have single : order.filter (fun other => other = k) = if k ∈ order then [k] else [] := by
    rw [List.filter_eq, nodup.count]
    split <;> rfl
  have narrowed : (snapshot.visited order).filter (fun entry => entry.1 = k) =
      snapshot.visited (order.filter fun other => other = k) := by
    unfold visited
    rw [List.filter_filterMap, List.filterMap_filter]
    refine List.filterMap_congr fun other _ => ?_
    cases snapshot.series other with
    | none => simp
    | some v => by_cases same : other = k <;> simp [same]
  rw [narrowed, single]
  by_cases member : k ∈ order
  · rw [if_pos member]
    obtain ⟨v, isSeries⟩ := Option.isSome_iff_exists.mp ((lists k).mp member)
    rw [isSeries, Option.map_some, Option.toList_some]
    exact List.filterMap_cons_some (by rw [isSeries, Option.map_some])
  · have none : snapshot.series k = none :=
      Option.not_isSome_iff_eq_none.mp fun isSome => member ((lists k).mpr isSome)
    rw [if_neg member, none]
    rfl

/-- No other series of a snapshot shares the browser's key of this one. -/
def FastRingSnapshot.KeyAlone (snapshot : FastRingSnapshot Value) (k : SeriesKey) : Prop :=
  ∀ other, (snapshot.series other).isSome → other.browserKey = k.browserKey → other = k

/-- What the listener files under the key of a series is what the frame reports of it. -/
theorem liveSamples_of_key [Zero Value] {snapshot : FastRingSnapshot Value}
    {order : List SeriesKey} (iterated : snapshot.IteratedBy order) {k : SeriesKey}
    (alone : snapshot.KeyAlone k) (now : UInt64) :
    ((liveSamples (frameToSse (buildMetricFrame snapshot order now))).filter fun sample =>
      sample.1 = k.browserKey).map Prod.snd = (snapshot.report k).toList := by
  have perm := ((perm_liveSamples snapshot order now).filter fun sample =>
    decide (sample.1 = k.browserKey)).map Prod.snd
  have same : (snapshot.visited order).filter (fun entry => entry.1.browserKey = k.browserKey) =
      (snapshot.visited order).filter fun entry => entry.1 = k := by
    refine List.filter_congr fun entry member => decide_eq_decide.mpr
      ⟨fun shared => ?_, congrArg SeriesKey.browserKey⟩
    obtain ⟨other, _, found⟩ := List.mem_filterMap.mp member
    obtain ⟨v, isSeries, rfl⟩ := Option.map_eq_some_iff.mp found
    exact alone other (by rw [isSeries]; rfl) shared
  have reported : ((((snapshot.visited order).map fun entry => (entry.1.browserKey,
      (⟨parseInteger (jsonInteger snapshot.publishedAtNs.toNat), entry.2.latestValue⟩ :
        LiveMetricSample Value))).filter fun sample => sample.1 = k.browserKey).map Prod.snd) =
      (snapshot.report k).toList := by
    rw [List.filter_map]
    show (((snapshot.visited order).filter fun entry =>
      entry.1.browserKey = k.browserKey).map _).map Prod.snd = _
    rw [same, iterated.visited_filter, FastRingSnapshot.report]
    cases snapshot.series k <;> rfl
  rw [reported] at perm
  cases report : snapshot.report k with
  | none =>
    rw [report] at perm
    exact List.perm_nil.mp perm
  | some sample =>
    rw [report] at perm
    exact List.perm_singleton.mp perm

/-! ### The ring of the browser -/

/-- A key shows the end of a log, or is not there when the log is empty. -/
def LiveSeriesMap.Shows (ring : LiveSeriesMap Value) (key : List Char)
    (log : List (LiveMetricSample Value)) : Prop :=
  ring key = if log.isEmpty then none else some (log.rtake ringSize)

theorem LiveSeriesMap.Shows.append {ring : LiveSeriesMap Value} {key : List Char}
    {log : List (LiveMetricSample Value)} (shows : ring.Shows key log) (k : List Char)
    (sample : LiveMetricSample Value) :
    (ring.append k sample).Shows key (if k = key then log ++ [sample] else log) := by
  unfold Shows LiveSeriesMap.append
  by_cases same : k = key
  · have before : (ring key).getD [] = log.rtake ringSize := by
      rw [shows]
      cases log with
      | nil =>
        rw [List.rtake_nil]
        rfl
      | cons first log => rw [if_neg (by simp), Option.getD_some]
    rw [if_pos same, same, Function.update_self, before, RingBuffer.rtake_rtake_concat,
      if_neg (by simp)]
  · rw [if_neg same, Function.update_of_ne (Ne.symm same)]
    exact shows

/-- A key whose log ends with enough readings shows the last of these. -/
theorem LiveSeriesMap.Shows.eq_of_full {ring : LiveSeriesMap Value} {key : List Char}
    {log recent : List (LiveMetricSample Value)} (shows : ring.Shows key (log ++ recent))
    (full : ringSize ≤ recent.length) : ring key = some (recent.rtake ringSize) := by
  have nonempty : ¬ (log ++ recent).isEmpty := by
    have positive : 0 < ringSize := by decide
    rw [List.isEmpty_iff_length_eq_zero, List.length_append]
    omega
  rw [shows, if_neg nonempty, RingBuffer.rtake_append, Nat.sub_eq_zero_of_le full,
    List.rtake_zero, List.nil_append]

theorem LiveSeriesMap.Shows.foldl {ring : LiveSeriesMap Value} {key : List Char}
    {log : List (LiveMetricSample Value)} (shows : ring.Shows key log)
    (samples : List (List Char × LiveMetricSample Value)) :
    (samples.foldl (fun ring sample => ring.append sample.1 sample.2) ring).Shows key
      (log ++ (samples.filter fun sample => sample.1 = key).map Prod.snd) := by
  induction samples generalizing ring log with
  | nil =>
    rw [List.filter_nil, List.map_nil, List.append_nil]
    exact shows
  | cons sample samples inductionHypothesis =>
    have rest := inductionHypothesis (shows.append sample.1 sample.2)
    by_cases same : sample.1 = key
    · rw [if_pos same] at rest
      rw [List.filter_cons, if_pos (decide_eq_true same), List.map_cons]
      rw [List.append_assoc] at rest
      exact rest
    · rw [if_neg same] at rest
      rw [List.filter_cons, if_neg (by rwa [decide_eq_true_eq])]
      exact rest

/-! ### Whole runs -/

/-- Every frame of a run iterates the snapshot it is built from, and there no other series shares
the browser's key of this one. -/
def FramesReport [Zero Value] (k : SeriesKey) (inputs : List (LiveTapeInput Value)) : Prop :=
  ∀ before order now received, before ++ [.frame order now received] <+: inputs →
    (liveTapeRun before).fast.snapshot.IteratedBy order ∧
      (liveTapeRun before).fast.snapshot.KeyAlone k

theorem reportsOf_frame [Zero Value] (k : SeriesKey) (fast : FastRing Value)
    (order : List SeriesKey) (now : UInt64) (received : Bool)
    (rest : List (LiveTapeInput Value)) :
    reportsOf k fast (.frame order now received :: rest) =
      (if received then (fast.snapshot.report k).toList else []) ++ reportsOf k fast rest := rfl

/-- What a browser is told, one part of a run after the other. -/
theorem reportsOf_append [Zero Value] (k : SeriesKey) (tape : LiveTape Value)
    (inputs later : List (LiveTapeInput Value)) :
    reportsOf k tape.fast (inputs ++ later) =
      reportsOf k tape.fast inputs ++
        reportsOf k (run LiveTape.step tape inputs).fast later := by
  induction inputs generalizing tape with
  | nil => rfl
  | cons first inputs inductionHypothesis =>
    rw [List.cons_append, run_cons]
    cases first with
    | ring op => exact inductionHypothesis (tape.step (.ring op))
    | frame order now received =>
      have same : (tape.step (.frame order now received)).fast = tape.fast := by
        unfold LiveTape.step
        simp only
        split <;> rfl
      have rest := inductionHypothesis (tape.step (.frame order now received))
      rw [same] at rest
      rw [reportsOf_frame, reportsOf_frame, rest, List.append_assoc]

/-- From any tape on, the browser's ring of a series goes on with what the frames report of it, when
each is iterated as it should be and no series shares its key. -/
theorem LiveTape.shows_run [Zero Value] {k : SeriesKey} {tape : LiveTape Value}
    {log : List (LiveMetricSample Value)} (shows : tape.series.Shows k.browserKey log)
    (inputs : List (LiveTapeInput Value))
    (frames : ∀ before order now received, before ++ [.frame order now received] <+: inputs →
      (run LiveTape.step tape before).fast.snapshot.IteratedBy order ∧
        (run LiveTape.step tape before).fast.snapshot.KeyAlone k) :
    (run LiveTape.step tape inputs).series.Shows k.browserKey
      (log ++ reportsOf k tape.fast inputs) := by
  induction inputs using List.reverseRecOn with
  | nil =>
    rw [reportsOf, List.append_nil]
    exact shows
  | append_singleton inputs input inductionHypothesis =>
    have before := inductionHypothesis fun earlier order now received isPrefix =>
      frames earlier order now received (isPrefix.trans (List.prefix_append _ _))
    rw [run_concat, reportsOf_append k tape inputs [input], ← List.append_assoc]
    cases input with
    | ring op =>
      rw [reportsOf, reportsOf, List.append_nil]
      exact before
    | frame order now received =>
      obtain ⟨iterated, alone⟩ := frames inputs order now received List.prefix_rfl
      rw [reportsOf_frame, LiveTape.step, reportsOf, List.append_nil]
      by_cases isReceived : received = true
      · rw [if_pos isReceived, if_pos isReceived]
        have filed := before.foldl (liveSamples
          (frameToSse (buildMetricFrame (run LiveTape.step tape inputs).fast.snapshot order now)))
        rw [liveSamples_of_key iterated alone now] at filed
        exact filed
      · rw [if_neg isReceived, if_neg isReceived, List.append_nil]
        exact before

/-- In every run the browser's ring of a series holds the last 120 of the latest readings that the
frames it received had of that series, each under the time of the publish it was taken from. -/
theorem tape_shows_reports [Zero Value] (k : SeriesKey) (inputs : List (LiveTapeInput Value))
    (frames : FramesReport k inputs) :
    (liveTapeRun inputs).series.Shows k.browserKey (reportsOf k .new inputs) :=
  @LiveTape.shows_run Value _ k ⟨.new, fun _ => none⟩ [] rfl inputs frames

/-- One reading of one series, published and reported twice; the browser misses the first report. -/
def twoFrames : List (LiveTapeInput Nat) :=
  [.ring (.push ⟨1, 0, 7⟩ ⟨5000000000, 42⟩), .ring (.publish 5100000000),
    .frame [⟨1, 0, 7⟩] 5200000000 false, .frame [⟨1, 0, 7⟩] 5300000000 true]

/-- A snapshot of one series. -/
theorem series_twoFrames (other : SeriesKey) :
    ((liveTapeRun (twoFrames.take 2)).fast.snapshot.series other).isSome ↔
      other = ⟨1, 0, 7⟩ := by
  show ((FastRing.publish _ _).snapshot.series other).isSome ↔ _
  rw [FastRing.isSome_publish_series]
  show ((FastRing.push _ _ _).writer other).isSome ↔ _
  rw [FastRing.isSome_push_writer]
  exact or_iff_left (by simp [FastRing.new])

theorem framesReport_twoFrames : FramesReport ⟨1, 0, 7⟩ twoFrames := by
  have reports : (liveTapeRun (twoFrames.take 2)).fast.snapshot.IteratedBy [⟨1, 0, 7⟩] ∧
      (liveTapeRun (twoFrames.take 2)).fast.snapshot.KeyAlone ⟨1, 0, 7⟩ := by
    refine ⟨⟨List.nodup_singleton _, fun other => ?_⟩, fun other isSome _ => ?_⟩
    · rw [List.mem_singleton]
      exact (series_twoFrames other).symm
    · exact (series_twoFrames other).mp isSome
  intro before order now received isPrefix
  have split : twoFrames = twoFrames.take 2 ++ [.frame [⟨1, 0, 7⟩] 5200000000 false] ++
      [.frame [⟨1, 0, 7⟩] 5300000000 true] := rfl
  rw [split] at isPrefix
  rcases List.prefix_concat_iff.mp isPrefix with isSecond | earlier
  · obtain ⟨rfl, last⟩ := List.append_inj' isSecond rfl
    obtain ⟨rfl, _, _⟩ := LiveTapeInput.frame.inj (List.cons.inj last).1
    exact reports
  rcases List.prefix_concat_iff.mp earlier with isFirst | shorter
  · obtain ⟨rfl, last⟩ := List.append_inj' isFirst rfl
    obtain ⟨rfl, _, _⟩ := LiveTapeInput.frame.inj (List.cons.inj last).1
    exact reports
  · have member := shorter.subset (List.mem_append_right before List.mem_cons_self)
    exact absurd member (by simp [twoFrames])

theorem tape_shows_reports_twoFrames :
    (liveTapeRun twoFrames).series.Shows (SeriesKey.browserKey ⟨1, 0, 7⟩)
      (reportsOf ⟨1, 0, 7⟩ .new twoFrames) :=
  tape_shows_reports ⟨1, 0, 7⟩ twoFrames framesReport_twoFrames

/-! ### A series that falls silent -/

/-- The publish times of the frames a browser receives. -/
def framesReceived [Zero Value] : FastRing Value → List (LiveTapeInput Value) → List Nat
  | _, [] => []
  | fast, .ring op :: rest => framesReceived (fast.step op) rest
  | fast, .frame _ _ received :: rest =>
    (if received then [parseInteger (jsonInteger fast.snapshot.publishedAtNs.toNat)] else []) ++
      framesReceived fast rest

/-- A series whose ring has been published as it is. -/
def FastRing.Settled (fast : FastRing Value) (k : SeriesKey) (v : SeriesSnapshot Value) : Prop :=
  fast.snapshot.series k = some v ∧ (fast.writer k).map SeriesRing.snapshot = some v

theorem FastRing.Settled.step [Zero Value] {fast : FastRing Value} {k : SeriesKey}
    {v : SeriesSnapshot Value} (settled : fast.Settled k v) {op : FastRingOp Value}
    (silent : ∀ s, op ≠ .push k s) : (fast.step op).Settled k v := by
  cases op with
  | push other s =>
    have differs : k ≠ other := fun same => silent s (by rw [same])
    refine ⟨settled.1, ?_⟩
    show ((fast.push other s).writer k).map SeriesRing.snapshot = some v
    rw [FastRing.push_writer_of_ne fast differs]
    exact settled.2
  | publish now => exact ⟨settled.2, settled.2⟩

/-- What a browser is told of a silent series. -/
theorem reportsOf_of_settled [Zero Value] {fast : FastRing Value} {k : SeriesKey}
    {v : SeriesSnapshot Value} (settled : fast.Settled k v) {inputs : List (LiveTapeInput Value)}
    (silent : ∀ s, .ring (.push k s) ∉ inputs) :
    reportsOf k fast inputs =
      (framesReceived fast inputs).map fun tsNs => ⟨tsNs, v.latestValue⟩ := by
  induction inputs generalizing fast with
  | nil => rfl
  | cons input inputs inductionHypothesis =>
    have silentAfter : ∀ s, LiveTapeInput.ring (.push k s) ∉ inputs :=
      fun s member => silent s (List.mem_cons_of_mem _ member)
    cases input with
    | ring op =>
      refine inductionHypothesis (settled.step fun s same => silent s ?_) silentAfter
      rw [same]
      exact List.mem_cons_self
    | frame order now received =>
      rw [reportsOf_frame, inductionHypothesis settled silentAfter, framesReceived,
        List.map_append, FastRingSnapshot.report, settled.1]
      cases received <;> rfl

/-- From when a series has been pushed to and published for the last time, every frame that the
browser receives files its last reading once more, as one of the time of the frame's publish: the
series goes on as if it were still read, and from the 120th frame on it shows that reading only. -/
theorem silent_series_goes_on [Zero Value] (k : SeriesKey) (v : SeriesSnapshot Value)
    (before later : List (LiveTapeInput Value)) (frames : FramesReport k (before ++ later))
    (settled : (liveTapeRun before).fast.Settled k v)
    (silent : ∀ s, .ring (.push k s) ∉ later) :
    (liveTapeRun (before ++ later)).series.Shows k.browserKey
        (reportsOf k .new before ++
          (framesReceived (liveTapeRun before).fast later).map fun tsNs =>
            ⟨tsNs, v.latestValue⟩) ∧
      (120 ≤ (framesReceived (liveTapeRun before).fast later).length →
        (liveTapeRun (before ++ later)).series k.browserKey =
          some (((framesReceived (liveTapeRun before).fast later).rtake 120).map fun tsNs =>
            ⟨tsNs, v.latestValue⟩)) := by
  have told : reportsOf k .new (before ++ later) =
      reportsOf k .new before ++ reportsOf k (liveTapeRun before).fast later :=
    reportsOf_append k ⟨.new, fun _ => none⟩ before later
  have shows := @LiveTape.shows_run Value _ k ⟨.new, fun _ => none⟩ [] rfl (before ++ later) frames
  rw [List.nil_append, told, reportsOf_of_settled settled silent] at shows
  refine ⟨shows, fun enough => ?_⟩
  have full := shows.eq_of_full (enough.trans_eq (List.length_map _).symm)
  rw [List.rtake, List.length_map, ← List.map_drop] at full
  exact full

/-- The reading goes on after it was missed. -/
theorem silent_series_goes_on_twoFrames :
    (liveTapeRun (twoFrames.take 2 ++ twoFrames.drop 2)).series.Shows
        (SeriesKey.browserKey ⟨1, 0, 7⟩)
        (reportsOf ⟨1, 0, 7⟩ .new (twoFrames.take 2) ++
          (framesReceived (liveTapeRun (twoFrames.take 2)).fast (twoFrames.drop 2)).map fun tsNs =>
            ⟨tsNs, (⟨[⟨5000000000, 42⟩], [⟨5000000000, 42⟩]⟩ :
              SeriesSnapshot Nat).latestValue⟩) := by
  refine (silent_series_goes_on ⟨1, 0, 7⟩ _ (twoFrames.take 2) (twoFrames.drop 2)
    framesReport_twoFrames ⟨?_, ?_⟩ fun s member => ?_).1
  · decide +kernel
  · decide +kernel
  · exact absurd member (by simp [twoFrames])

end PerfWeave
