/-
This file proves what the detector reports over whole runs, in exact arithmetic. A tick is a
pass over the series of the snapshot, and a visit concerns one series: its running statistics,
the time of its last spike and the spikes it has reported. The invariant is that the sum of
squared deviations is nonnegative, so that no operation leaves its domain, and that the last
spike is the latest one, so that the ten seconds after it are kept clear.
-/

import PerfWeave.Server.SpikeDetect
import PerfWeave.Library.KeyedPass

namespace PerfWeave

open PartialArithmetic

variable {Value : Type}

/-! ### A tick is a pass over the series -/

/-- What the detector remembers of one series. -/
structure SeriesEntry (Value : Type) where
  welford : Option (Welford Value)
  lastFiredTs : Option UInt64

/-- The two maps as one table. -/
def SpikeDetector.entries (d : SpikeDetector Value) (k : SeriesKey) : SeriesEntry Value :=
  ⟨d.welford k, d.lastFiredTs k⟩

/-- Writing a key in both maps replaces its entry. -/
theorem SpikeDetector.entries_update (d : SpikeDetector Value) (k : SeriesKey)
    (welford : Option (Welford Value)) (lastFiredTs : Option UInt64) :
    entries ⟨Function.update d.welford k welford, Function.update d.lastFiredTs k lastFiredTs⟩ =
      Function.update d.entries k ⟨welford, lastFiredTs⟩ := by
  funext other
  unfold entries
  by_cases same : other = k
  · subst same
    simp only [Function.update_self]
  · simp only [Function.update_of_ne same]

section Pass

variable [Zero Value] [Add Value] [Sub Value] [Mul Value] [NatCast Value] [OfScientific Value]
  [LT Value] [DecidableLT Value] [LE Value] [DecidableLE Value] [PartialArithmetic Value]

/-- What a tick does to one series that has a reading. -/
def SeriesEntry.judge (k : SeriesKey) (x : Value) (snap : SeriesSnapshot Value)
    (entry : SeriesEntry Value) : Option (SeriesEntry Value × List (SpikeEvent Value)) := do
  let w ← (entry.welford.getD .default).update x
  let fired ← spikeAt k x snap w entry.lastFiredTs
  return (⟨some w, (fired.map SpikeEvent.bucketStartNs).or entry.lastFiredTs⟩, fired.toList)

/-- What a tick does to one series. -/
def SeriesEntry.visit (reading : Option (Sample Value × SeriesSnapshot Value)) (k : SeriesKey)
    (entry : SeriesEntry Value) : Option (SeriesEntry Value × List (SpikeEvent Value)) :=
  match reading with
  | none => some (entry, [])
  | some (latest, snap) => entry.judge k latest.value snap

/-- A turn of the loop does to its series what a visit does. -/
theorem SpikeDetector.judge_entries (d : SpikeDetector Value) (k : SeriesKey) (x : Value)
    (snap : SeriesSnapshot Value) :
    (d.judge k x snap).map (fun judged => (judged.1.entries, judged.2.toList)) =
      ((d.entries k).judge k x snap).map fun judged =>
        (Function.update d.entries k judged.1, judged.2) := by
  unfold judge SeriesEntry.judge
  have welford : (d.entries k).welford = d.welford k := rfl
  have lastFiredTs : (d.entries k).lastFiredTs = d.lastFiredTs k := rfl
  rw [welford, lastFiredTs]
  cases ((d.welford k).getD .default).update x with
  | none => rfl
  | some w =>
    simp only [Option.bind_eq_bind, Option.bind_some]
    cases spikeAt k x snap w (d.lastFiredTs k) with
    | none => rfl
    | some fired =>
      cases fired with
      | none =>
        have kept := d.entries_update k (some w) (d.lastFiredTs k)
        rw [Function.update_eq_self] at kept
        exact congrArg (fun entries => some (entries, [])) kept
      | some ev =>
        have written := d.entries_update k (some w) (some ev.bucketStartNs)
        exact congrArg (fun entries => some (entries, [ev])) written

omit [Add Value] in
/-- A spike that fires: it passed the gates of the deviation, of the distance in deviations and
of the time since the last spike, and it says what they looked at. -/
theorem spikeAt_fires {k : SeriesKey} {x : Value} {snap : SeriesSnapshot Value}
    {w : Welford Value} {prev : Option UInt64} {ev : SpikeEvent Value}
    (fires : spikeAt k x snap w prev = some (some ev)) :
    ∃ median mad zMad, medianAndMad snap = (median, mad) ∧ ¬ mad ≤ 0 ∧
      quotient (abs (x - median)) mad = some zMad ∧ ¬ zMad < madZThreshold ∧
      (∀ last ∈ prev, ¬ saturatingSub ev.bucketStartNs last < spikePeriodNs) ∧
      ev = {
        bucketStartNs := (snap.fast.getLast?.map Sample.tsNs).getD 0
        bucketWidthNs := 1000000000
        nodeId := k.nodeId
        gpuId := k.gpuId
        metricId := k.metricId
        value := x
        median
        mad
        zMad } := by
  unfold spikeAt at fires
  obtain ⟨z, _, fires⟩ := Option.bind_eq_some_iff.mp fires
  cases statistics : medianAndMad snap with
  | mk median mad =>
    rw [statistics] at fires
    dsimp only at fires
    split at fires
    · exact absurd fires nofun
    split at fires
    · exact absurd fires nofun
    rename_i deviates
    obtain ⟨zMad, isQuotient, fires⟩ := Option.bind_eq_some_iff.mp fires
    split at fires
    · exact absurd fires nofun
    rename_i atLeast
    split at fires
    · exact absurd fires nofun
    rename_i clear
    have same := (Option.some.inj (Option.some.inj fires)).symm
    subst same
    refine ⟨median, mad, zMad, rfl, deviates, isQuotient, atLeast, ?_, rfl⟩
    intro last isLast early
    rw [Option.mem_def.mp isLast, Option.any_some, decide_eq_true_eq] at clear
    exact clear early

omit [Add Value] in
theorem spikeAt_key {k : SeriesKey} {x : Value} {snap : SeriesSnapshot Value}
    {w : Welford Value} {prev : Option UInt64} {ev : SpikeEvent Value}
    (fires : spikeAt k x snap w prev = some (some ev)) : ev.key = k := by
  obtain ⟨_, _, _, _, _, _, _, _, rfl⟩ := spikeAt_fires fires
  rfl

omit [Add Value] in
/-- The gates decide as soon as the first one does and deviations that pass the third divide. -/
theorem exists_spikeAt_of_zScore {w : Welford Value} {x : Value} (scored : ∃ z, w.zScore x = some z)
    (divides : ∀ distance mad : Value, ¬ mad ≤ 0 → ∃ zMad, quotient distance mad = some zMad)
    (k : SeriesKey) (snap : SeriesSnapshot Value) (prev : Option UInt64) :
    ∃ fired, spikeAt k x snap w prev = some fired := by
  obtain ⟨z, isZ⟩ := scored
  unfold spikeAt
  rw [isZ, Option.bind_eq_bind, Option.bind_some]
  obtain ⟨median, mad⟩ := medianAndMad snap
  dsimp only
  split
  · exact ⟨none, rfl⟩
  split
  · exact ⟨none, rfl⟩
  rename_i deviates
  obtain ⟨zMad, isQuotient⟩ := divides (abs (x - median)) mad deviates
  rw [isQuotient, Option.bind_some]
  split
  · exact ⟨none, rfl⟩
  split
  · exact ⟨none, rfl⟩
  · exact ⟨_, rfl⟩

omit [Add Value] in
/-- A reading that passes all gates fires. -/
theorem spikeAt_of_gates {k : SeriesKey} {x z median mad zMad : Value} {snap : SeriesSnapshot Value}
    {w : Welford Value} {prev : Option UInt64} (scored : w.zScore x = some z)
    (far : ¬ z ≤ welfordZThreshold) (several : 16 ≤ w.n)
    (statistics : medianAndMad snap = (median, mad)) (deviates : ¬ mad ≤ 0)
    (isQuotient : quotient (abs (x - median)) mad = some zMad) (outlier : ¬ zMad < madZThreshold)
    (clear : ∀ last ∈ prev,
      ¬ saturatingSub ((snap.fast.getLast?.map Sample.tsNs).getD 0) last < spikePeriodNs) :
    ∃ ev, spikeAt k x snap w prev = some (some ev) := by
  have early : ¬ (prev.any fun last =>
      saturatingSub ((snap.fast.getLast?.map Sample.tsNs).getD 0) last < spikePeriodNs) := by
    rw [Option.any_eq_true]
    rintro ⟨last, isLast, soon⟩
    exact clear last isLast (of_decide_eq_true soon)
  unfold spikeAt
  rw [scored, Option.bind_eq_bind, Option.bind_some,
    if_neg (not_or.mpr ⟨far, Nat.not_lt.mpr several⟩), statistics]
  dsimp only
  rw [if_neg deviates, isQuotient, Option.bind_some, if_neg outlier, if_neg early]
  exact ⟨_, rfl⟩

/-- A visit that succeeds: the statistics learned, and the spike that fires on them. -/
theorem SeriesEntry.judge_eq_some_iff {entry next : SeriesEntry Value} {k : SeriesKey} {x : Value}
    {snap : SeriesSnapshot Value} {emitted : List (SpikeEvent Value)} :
    entry.judge k x snap = some (next, emitted) ↔
      ∃ w fired, (entry.welford.getD .default).update x = some w ∧
        spikeAt k x snap w entry.lastFiredTs = some fired ∧
        next = ⟨some w, (fired.map SpikeEvent.bucketStartNs).or entry.lastFiredTs⟩ ∧
        emitted = fired.toList := by
  unfold judge
  constructor
  · intro judged
    obtain ⟨w, learned, judged⟩ := Option.bind_eq_some_iff.mp judged
    obtain ⟨fired, fires, same⟩ := Option.bind_eq_some_iff.mp judged
    obtain ⟨rfl, rfl⟩ := Prod.mk.inj (Option.some.inj same)
    exact ⟨w, fired, learned, fires, rfl, rfl⟩
  · rintro ⟨w, fired, learned, fires, rfl, rfl⟩
    rw [learned, Option.bind_eq_bind, Option.bind_some, fires]
    rfl

/-- A visit reports spikes of its own series. -/
theorem SeriesEntry.visit_key {reading : Option (Sample Value × SeriesSnapshot Value)}
    {k : SeriesKey} {entry next : SeriesEntry Value} {emitted : List (SpikeEvent Value)}
    (visited : entry.visit reading k = some (next, emitted)) : ∀ ev ∈ emitted, ev.key = k := by
  intro ev member
  cases reading with
  | none =>
    rw [← (Prod.mk.inj (Option.some.inj visited)).2] at member
    exact absurd member List.not_mem_nil
  | some reading =>
    obtain ⟨w, fired, _, fires, _, rfl⟩ := judge_eq_some_iff.mp visited
    rw [Option.mem_toList] at member
    exact spikeAt_key (fires.trans (congrArg some member))

/-- A tick is a pass over the series. -/
theorem SpikeDetector.tickOnce_entries (d : SpikeDetector Value)
    (snapshot : FastRingSnapshot Value) (order : List SeriesKey) :
    (d.tickOnce snapshot order).map (fun ticked => (ticked.1.entries, ticked.2)) =
      pass (fun k => SeriesEntry.visit (snapshot.latest k) k) order d.entries := by
  unfold tickOnce
  induction order generalizing d with
  | nil => rfl
  | cons k rest inductionHypothesis =>
    rw [pass]
    cases seen : snapshot.latest k with
    | none =>
      rw [work_cons_of_none seen, SeriesEntry.visit, Option.bind_some, Function.update_eq_self,
        ← inductionHypothesis d]
      cases d.visit (work snapshot rest) <;> rfl
    | some reading =>
      have turn := d.judge_entries k reading.1.value reading.2
      rw [work_cons_of_some seen, visit, SeriesEntry.visit]
      cases judged : d.judge k reading.1.value reading.2 with
      | none =>
        rw [judged, Option.map_none, eq_comm, Option.map_eq_none_iff] at turn
        simp only [turn, Option.bind_none]
        rfl
      | some result =>
        rw [judged, Option.map_some, eq_comm, Option.map_eq_some_iff] at turn
        obtain ⟨visited, same, both⟩ := turn
        obtain ⟨entries, emitted⟩ := Prod.mk.inj both
        simp only [same, Option.bind_some, Option.bind_eq_bind, entries, emitted,
          ← inductionHypothesis result.1]
        cases result.1.visit (work snapshot rest) <;> rfl

/-- A tick over series that are tracked has a result and keeps them tracked, as soon as every visit
has a result and keeps its series tracked. -/
theorem SpikeDetector.exists_tickOnce_of_tracks
    (track : SeriesKey → List (SpikeEvent Value) → SeriesEntry Value → Prop)
    {snapshot : FastRingSnapshot Value}
    (visits : ∀ k past entry, track k past entry →
      ∃ next emitted, entry.visit (snapshot.latest k) k = some (next, emitted) ∧
        track k (past ++ emitted) next)
    (order : List SeriesKey) (past : List (SpikeEvent Value)) {d : SpikeDetector Value}
    (tracked : ∀ key, track key (ownedBy SpikeEvent.key key past) (d.entries key)) :
    ∃ after emitted, d.tickOnce snapshot order = some (after, emitted) ∧
      pass (fun k => SeriesEntry.visit (snapshot.latest k) k) order d.entries =
        some (after.entries, emitted) ∧
      ∀ key, track key (ownedBy SpikeEvent.key key (past ++ emitted)) (after.entries key) := by
  obtain ⟨_, emitted, passed, trackedAfter⟩ :=
    pass_tracks (fun _ _ _ _ => SeriesEntry.visit_key) visits order tracked
  have entries := d.tickOnce_entries snapshot order
  rw [passed] at entries
  obtain ⟨⟨after, _⟩, ticked, same⟩ := Option.map_eq_some_iff.mp entries
  obtain ⟨rfl, rfl⟩ := Prod.mk.inj same
  exact ⟨after, _, ticked, passed, trackedAfter⟩

end Pass

/-! ### Exact arithmetic stays in its domain -/

/-- Learning a reading divides by a positive count. -/
theorem Welford.update_real (w : Welford ℝ) (x : ℝ) :
    w.update x = some {
      n := w.n + 1
      mean := w.mean + (x - w.mean) / (w.n + 1 : Nat)
      m2 := w.m2 + (x - w.mean) * (x - (w.mean + (x - w.mean) / (w.n + 1 : Nat))) } := by
  have nonzero : ((w.n + 1 : Nat) : ℝ) ≠ 0 := Nat.cast_ne_zero.mpr (Nat.succ_ne_zero w.n)
  unfold update
  simp only [quotient_of_ne_zero _ nonzero, Option.bind_eq_bind, Option.bind_some]
  rfl

/-- Learning a reading keeps the squared deviations nonnegative. -/
theorem Welford.exists_update {w : Welford ℝ} (nonneg : 0 ≤ w.m2) (x : ℝ) :
    ∃ learned, w.update x = some learned ∧ 0 ≤ learned.m2 := by
  have deviations := mul_sub_div_nonneg (x - w.mean) (Nat.succ_pos w.n)
  rw [sub_sub] at deviations
  exact ⟨_, w.update_real x, add_nonneg nonneg deviations⟩

/-- Two or more readings have a deviation. -/
theorem Welford.sigma_of_two_le {w : Welford ℝ} (several : 2 ≤ w.n) (nonneg : 0 ≤ w.m2) :
    w.sigma = some √(w.m2 / (w.n - 1 : Nat)) := by
  have nonzero : ((w.n - 1 : Nat) : ℝ) ≠ 0 := Nat.cast_ne_zero.mpr (by omega)
  rw [sigma, if_neg (Nat.not_lt.mpr several), quotient_of_ne_zero _ nonzero, Option.bind_some,
    squareRoot_of_nonneg (div_nonneg nonneg (Nat.cast_nonneg _))]

theorem Welford.exists_sigma {w : Welford ℝ} (nonneg : 0 ≤ w.m2) :
    ∃ sigma, w.sigma = some sigma := by
  rcases Nat.lt_or_ge w.n 2 with few | several
  · exact ⟨0, if_pos few⟩
  · exact ⟨_, sigma_of_two_le several nonneg⟩

theorem Welford.zScore_of_two_le {w : Welford ℝ} (several : 2 ≤ w.n) (varied : 0 < w.m2) (x : ℝ) :
    w.zScore x = some (|x - w.mean| / √(w.m2 / (w.n - 1 : Nat))) := by
  have others : (0 : ℝ) < (w.n - 1 : Nat) := Nat.cast_pos.mpr (by omega)
  have positive : 0 < √(w.m2 / (w.n - 1 : Nat)) := Real.sqrt_pos.mpr (div_pos varied others)
  unfold zScore
  rw [sigma_of_two_le several varied.le, Option.bind_eq_bind, Option.bind_some, if_pos positive,
    quotient_of_ne_zero _ positive.ne']
  rfl

theorem Welford.exists_zScore {w : Welford ℝ} (nonneg : 0 ≤ w.m2) (x : ℝ) :
    ∃ z, w.zScore x = some z := by
  obtain ⟨sigma, isSigma⟩ := exists_sigma nonneg
  unfold zScore
  rw [isSigma, Option.bind_eq_bind, Option.bind_some]
  split
  · rename_i positive
    exact ⟨_, quotient_of_ne_zero _ positive.ne'⟩
  · exact ⟨0, rfl⟩

/-- The gates always decide: the last one divides by a deviation that passed the third. -/
theorem exists_spikeAt {w : Welford ℝ} (nonneg : 0 ≤ w.m2) (k : SeriesKey) (x : ℝ)
    (snap : SeriesSnapshot ℝ) (prev : Option UInt64) :
    ∃ fired, spikeAt k x snap w prev = some fired :=
  exists_spikeAt_of_zScore (Welford.exists_zScore nonneg x)
    (fun _ _ deviates => ⟨_, quotient_of_ne_zero _ (ne_of_gt (not_le.mp deviates))⟩) k snap prev

/-! ### What a spike says -/

/-- A spike reports the last sample of a fast tail, and its distance from the upper median of
the slow tail is at least three and a half of its scaled deviations. -/
structure SpikeEvent.Sound (ev : SpikeEvent ℝ) (latest : Sample ℝ) (snap : SeriesSnapshot ℝ) :
    Prop where
  reading : snap.fast.getLast? = some latest
  value : ev.value = latest.value
  bucketStart : ev.bucketStartNs = latest.tsNs
  statistics : medianAndMad snap = (ev.median, ev.mad)
  madPos : 0 < ev.mad
  zMad : ev.zMad = |ev.value - ev.median| / ev.mad
  atLeast : 3.5 ≤ ev.zMad

/-- A spike that fires is sound and keeps ten seconds from the last. -/
theorem spikeAt_sound {k : SeriesKey} {latest : Sample ℝ} {snap : SeriesSnapshot ℝ}
    (reading : snap.fast.getLast? = some latest) {w : Welford ℝ} {prev : Option UInt64}
    {ev : SpikeEvent ℝ} (fires : spikeAt k latest.value snap w prev = some (some ev)) :
    ev.Sound latest snap ∧
      ∀ last ∈ prev, last.toNat + spikePeriodNs.toNat ≤ ev.bucketStartNs.toNat := by
  obtain ⟨median, mad, zMad, statistics, deviates, isQuotient, atLeast, clear, rfl⟩ :=
    spikeAt_fires fires
  rw [not_le] at deviates
  rw [quotient_of_ne_zero _ deviates.ne', Option.some.injEq] at isQuotient
  constructor
  · refine ⟨reading, rfl, ?_, statistics, deviates, isQuotient.symm, not_lt.mp atLeast⟩
    rw [reading]
    rfl
  · intro last isLast
    have spaced := clear last isLast
    rwa [UInt64.not_lt, le_saturatingSub_iff (by decide)] at spaced

/-! ### One series -/

/-- Two spikes are at least ten seconds apart. -/
def SpikeEvent.Spaced (first second : SpikeEvent ℝ) : Prop :=
  first.bucketStartNs.toNat + spikePeriodNs.toNat ≤ second.bucketStartNs.toNat

/-- The invariant of a series and the spikes it has reported: its squared deviations are
nonnegative, its spikes are spaced, and the last of them is remembered. -/
structure SeriesEntry.Tracks (past : List (SpikeEvent ℝ)) (entry : SeriesEntry ℝ) : Prop where
  nonneg : ∀ w ∈ entry.welford, 0 ≤ w.m2
  spaced : past.Pairwise SpikeEvent.Spaced
  remembered : ∀ ev ∈ past, ∃ last ∈ entry.lastFiredTs, ev.bucketStartNs ≤ last

/-- A spike that keeps ten seconds from the remembered one keeps them from all. -/
theorem SeriesEntry.Tracks.spaced_of_clear {past : List (SpikeEvent ℝ)} {entry : SeriesEntry ℝ}
    (tracks : entry.Tracks past) {ev : SpikeEvent ℝ}
    (clear : ∀ last ∈ entry.lastFiredTs,
      last.toNat + spikePeriodNs.toNat ≤ ev.bucketStartNs.toNat) :
    ∀ earlier ∈ past, earlier.Spaced ev := by
  intro earlier member
  obtain ⟨last, isLast, atMost⟩ := tracks.remembered earlier member
  have kept := clear last isLast
  rw [UInt64.le_iff_toNat_le] at atMost
  unfold SpikeEvent.Spaced
  omega

/-- The statistics learned and the spike fired keep a series tracked. -/
theorem SeriesEntry.Tracks.append {past : List (SpikeEvent ℝ)} {entry : SeriesEntry ℝ}
    (tracks : entry.Tracks past) {w : Welford ℝ} (nonneg : 0 ≤ w.m2)
    {fired : Option (SpikeEvent ℝ)}
    (clear : ∀ ev ∈ fired, ∀ last ∈ entry.lastFiredTs,
      last.toNat + spikePeriodNs.toNat ≤ ev.bucketStartNs.toNat) :
    (⟨some w, (fired.map SpikeEvent.bucketStartNs).or entry.lastFiredTs⟩ :
      SeriesEntry ℝ).Tracks (past ++ fired.toList) := by
  cases fired with
  | none =>
    rw [Option.toList_none, List.append_nil]
    exact ⟨fun _ isW => Option.some.inj isW ▸ nonneg, tracks.spaced, tracks.remembered⟩
  | some ev =>
    have later := tracks.spaced_of_clear (clear ev rfl)
    refine ⟨fun _ isW => Option.some.inj isW ▸ nonneg, ?_, fun other member => ?_⟩
    · refine List.pairwise_append.mpr ⟨tracks.spaced, List.pairwise_singleton _ _, ?_⟩
      intro earlier member other isEv
      rw [List.mem_singleton.mp isEv]
      exact later earlier member
    · refine ⟨ev.bucketStartNs, rfl, ?_⟩
      rcases List.mem_append.mp member with before | now
      · have spaced := later other before
        unfold SpikeEvent.Spaced at spaced
        rw [UInt64.le_iff_toNat_le]
        omega
      · rw [List.mem_singleton.mp now]
        exact UInt64.le_refl _

/-- The latest reading of a series is the last sample of its fast tail. -/
theorem FastRingSnapshot.latest_eq_some_iff {snapshot : FastRingSnapshot Value} {k : SeriesKey}
    {latest : Sample Value} {snap : SeriesSnapshot Value} :
    snapshot.latest k = some (latest, snap) ↔
      snapshot.series k = some snap ∧ snap.fast.getLast? = some latest := by
  unfold FastRingSnapshot.latest SeriesSnapshot.latest
  simp only [Option.bind_eq_some_iff, Option.map_eq_some_iff, Prod.mk.injEq]
  constructor
  · rintro ⟨other, series, reading, last, rfl, rfl⟩
    exact ⟨series, last⟩
  · rintro ⟨series, last⟩
    exact ⟨snap, series, latest, last, rfl, rfl⟩

/-- A visit reports spikes that are sound for what the snapshot has of its series. -/
theorem SeriesEntry.visit_sound {snapshot : FastRingSnapshot ℝ} {k : SeriesKey}
    {entry next : SeriesEntry ℝ} {emitted : List (SpikeEvent ℝ)}
    (visited : entry.visit (snapshot.latest k) k = some (next, emitted)) :
    ∀ ev ∈ emitted, ∃ latest snap, snapshot.series ev.key = some snap ∧ ev.Sound latest snap := by
  intro ev member
  rw [visit_key visited ev member]
  cases seen : snapshot.latest k with
  | none =>
    rw [seen] at visited
    rw [← (Prod.mk.inj (Option.some.inj visited)).2] at member
    exact absurd member List.not_mem_nil
  | some reading =>
    obtain ⟨latest, snap⟩ := reading
    obtain ⟨series, last⟩ := FastRingSnapshot.latest_eq_some_iff.mp seen
    rw [seen, visit] at visited
    obtain ⟨w, fired, _, fires, _, rfl⟩ := judge_eq_some_iff.mp visited
    rw [Option.mem_toList] at member
    exact ⟨latest, snap, series, (spikeAt_sound last (fires.trans (congrArg some member))).1⟩

/-- A visit of a tracked series succeeds and keeps it tracked. -/
theorem SeriesEntry.Tracks.visit {past : List (SpikeEvent ℝ)} {entry : SeriesEntry ℝ}
    (tracks : entry.Tracks past) (snapshot : FastRingSnapshot ℝ) (k : SeriesKey) :
    ∃ next emitted, entry.visit (snapshot.latest k) k = some (next, emitted) ∧
      next.Tracks (past ++ emitted) := by
  cases seen : snapshot.latest k with
  | none =>
    refine ⟨entry, [], rfl, ?_⟩
    rw [List.append_nil]
    exact tracks
  | some reading =>
    obtain ⟨latest, snap⟩ := reading
    have last := (FastRingSnapshot.latest_eq_some_iff.mp seen).2
    have nonneg : 0 ≤ (entry.welford.getD .default).m2 := by
      cases learned : entry.welford with
      | none => exact le_refl (0 : ℝ)
      | some w => exact tracks.nonneg w learned
    obtain ⟨w, learned, learnedNonneg⟩ := Welford.exists_update nonneg latest.value
    obtain ⟨fired, fires⟩ := exists_spikeAt learnedNonneg k latest.value snap entry.lastFiredTs
    refine ⟨_, _, judge_eq_some_iff.mpr ⟨w, fired, learned, fires, rfl, rfl⟩, ?_⟩
    refine tracks.append learnedNonneg fun ev isFired => ?_
    exact (spikeAt_sound last (fires.trans (congrArg some isFired))).2

/-! ### Whole runs -/

/-- A tick over tracked series has a result and keeps them tracked, and its spikes are sound for
the snapshot it saw. -/
theorem SpikeDetector.exists_tickOnce {d : SpikeDetector ℝ} {past : List (SpikeEvent ℝ)}
    (tracks : ∀ key, (d.entries key).Tracks (ownedBy SpikeEvent.key key past))
    (snapshot : FastRingSnapshot ℝ) (order : List SeriesKey) :
    ∃ after emitted, d.tickOnce snapshot order = some (after, emitted) ∧
      (∀ key, (after.entries key).Tracks (ownedBy SpikeEvent.key key (past ++ emitted))) ∧
      ∀ ev ∈ emitted, ∃ latest snap,
        snapshot.series ev.key = some snap ∧ ev.Sound latest snap := by
  obtain ⟨after, emitted, ticked, passed, tracksAfter⟩ :=
    exists_tickOnce_of_tracks (fun _ past (entry : SeriesEntry ℝ) => entry.Tracks past)
      (fun k _ _ tracked => tracked.visit snapshot k) order past tracks
  refine ⟨after, emitted, ticked, tracksAfter, fun ev member => ?_⟩
  obtain ⟨_, _, _, _, _, visited, isEmitted⟩ := exists_visit_of_mem_pass passed member
  exact SeriesEntry.visit_sound visited ev isEmitted

/-- A spike is reported by a tick of the run and sound for the last sample of the tail that the
tick saw. -/
def SpikeEvent.ReportedIn (inputs : List (SpikeInput ℝ)) (ev : SpikeEvent ℝ) : Prop :=
  ∃ before order earlier detector emitted latest snap, before ++ [.tick order] <+: inputs ∧
    runPartial SpikeWatch.step .start before = some earlier ∧
    earlier.detector.tickOnce earlier.ring.snapshot order = some (detector, emitted) ∧
    ev ∈ emitted ∧ earlier.ring.snapshot.series ev.key = some snap ∧ ev.Sound latest snap

theorem SpikeEvent.ReportedIn.append {inputs : List (SpikeInput ℝ)} {ev : SpikeEvent ℝ}
    (reported : ev.ReportedIn inputs) (input : SpikeInput ℝ) :
    ev.ReportedIn (inputs ++ [input]) := by
  obtain ⟨before, order, earlier, detector, emitted, latest, snap, isPrefix, rest⟩ := reported
  exact ⟨before, order, earlier, detector, emitted, latest, snap,
    isPrefix.trans (List.prefix_append _ _), rest⟩

/-- The invariant of a run: the rows are those of the spikes, every series is tracked, and every
spike is reported by a tick. -/
structure SpikeWatch.Sound (inputs : List (SpikeInput ℝ)) (state : SpikeWatch ℝ) : Prop where
  rows : state.rows = state.spikes.map SpikeEvent.row
  tracks : ∀ key,
    (state.detector.entries key).Tracks (ownedBy SpikeEvent.key key state.spikes)
  reported : ∀ ev ∈ state.spikes, ev.ReportedIn inputs

theorem SpikeWatch.start_sound : (start : SpikeWatch ℝ).Sound [] where
  rows := rfl
  tracks _ := ⟨nofun, List.Pairwise.nil, fun _ member => absurd member List.not_mem_nil⟩
  reported _ member := absurd member List.not_mem_nil

/-- Every input of a sound run has a result and keeps it sound. -/
theorem SpikeWatch.Sound.step {inputs : List (SpikeInput ℝ)} {state : SpikeWatch ℝ}
    (sound : state.Sound inputs)
    (reached : runPartial SpikeWatch.step .start inputs = some state) (input : SpikeInput ℝ) :
    ∃ next, state.step input = some next ∧ next.Sound (inputs ++ [input]) := by
  have reported := fun ev member => (sound.reported ev member).append input
  cases input with
  | push key s => exact ⟨_, rfl, sound.rows, sound.tracks, reported⟩
  | publish now => exact ⟨_, rfl, sound.rows, sound.tracks, reported⟩
  | tick order =>
    obtain ⟨detector, emitted, ticked, tracks, emittedSound⟩ :=
      SpikeDetector.exists_tickOnce sound.tracks state.ring.snapshot order
    refine ⟨{ state with
      detector
      rows := state.rows ++ emitted.map SpikeEvent.row
      spikes := state.spikes ++ emitted }, ?_, ?_, tracks, ?_⟩
    · rw [SpikeWatch.step, ticked]
      rfl
    · rw [sound.rows, List.map_append]
    · intro ev member
      rcases List.mem_append.mp member with before | now
      · exact reported ev before
      · obtain ⟨latest, snap, series, evSound⟩ := emittedSound ev now
        exact ⟨inputs, order, state, detector, emitted, latest, snap, List.prefix_rfl, reached,
          ticked, now, series, evSound⟩

theorem SpikeWatch.run_sound (inputs : List (SpikeInput ℝ)) :
    ∃ state, runPartial SpikeWatch.step .start inputs = some state ∧ state.Sound inputs :=
  runPartial_induction SpikeWatch.start_sound
    (fun _ input _ reached sound => SpikeWatch.Sound.step sound reached input) inputs

/-- Every tick of a run in exact arithmetic has a result. The spikes of a series are at least ten
seconds apart, and each is reported by a tick and sound for the last sample of the tail that
the tick saw. The rows for the sink are those of the spikes. -/
theorem spikes_sound_and_spaced (inputs : List (SpikeInput ℝ)) :
    ∃ state, runPartial SpikeWatch.step .start inputs = some state ∧
      state.rows = state.spikes.map SpikeEvent.row ∧
      (∀ key, (ownedBy SpikeEvent.key key state.spikes).Pairwise SpikeEvent.Spaced) ∧
      ∀ ev ∈ state.spikes, ev.ReportedIn inputs := by
  obtain ⟨state, reached, sound⟩ := SpikeWatch.run_sound inputs
  exact ⟨state, reached, sound.rows, fun key => (sound.tracks key).spaced, sound.reported⟩

end PerfWeave
