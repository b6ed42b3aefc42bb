/-
This file settles from which states the detector can still report a spike of a series. A way out
of every state whose statistics are those of numbers is a restart: two minutes of readings that
fill the slow tail anew, some ticks on a quiet reading, and then a reading far enough from
everything. Statistics that a reading has poisoned have no way out.
-/

import PerfWeave.Server.PoisonedStatistics
import PerfWeave.Server.RobustPass
import PerfWeave.Server.SlowTail
import PerfWeave.Server.SpikeContinuation

namespace PerfWeave

open PartialArithmetic WithNaN

/-! ### A reading far from the mean -/

/-- At a distance of more than the squared deviations of fifteen or more readings, what they add to
the variance is outweighed. -/
theorem deviations_lt_reach {count m2 distance : ℝ} (several : 15 ≤ count) (nonneg : 0 ≤ m2)
    (far : m2 + 2 ≤ distance) :
    9 * m2 * (count + 1) ^ 2 < distance ^ 2 * (count * (count ^ 2 - 9 * count - 9)) := by
  have square : 4 * m2 + 4 ≤ distance ^ 2 := by nlinarith
  have share : 5 * count ^ 2 ≤ count * (count ^ 2 - 9 * count - 9) := by nlinarith
  have grown : (count + 1) ^ 2 ≤ 2 * count ^ 2 := by nlinarith
  have spread : 9 * m2 * (count + 1) ^ 2 ≤ 18 * m2 * count ^ 2 := by nlinarith
  have reach : (4 * m2 + 4) * (5 * count ^ 2) ≤
      distance ^ 2 * (count * (count ^ 2 - 9 * count - 9)) :=
    mul_le_mul square share (by positivity) (by positivity)
  have gap : 0 < count ^ 2 := by positivity
  nlinarith

/-- The score of a reading at a distance of more than the squared deviations of fifteen or more
readings before it: what it adds to the deviation is a small part of the distance. -/
theorem three_lt_score {count m2 distance : ℝ} (several : 15 ≤ count) (nonneg : 0 ≤ m2)
    (far : m2 + 2 ≤ distance) :
    0 < m2 + distance * (distance - distance / (count + 1)) ∧
      3 < (distance - distance / (count + 1)) /
        √((m2 + distance * (distance - distance / (count + 1))) / count) := by
  have positive : 0 < distance := by linarith
  have countPos : 0 < count := by linarith
  have next : (0 : ℝ) < count + 1 := by linarith
  have rest : distance - distance / (count + 1) = distance * count / (count + 1) := by
    field_simp
    ring
  rw [rest]
  have restPos : 0 < distance * count / (count + 1) := by positivity
  have varied : 0 < m2 + distance * (distance * count / (count + 1)) := by positivity
  refine ⟨varied, ?_⟩
  have apart := deviations_lt_reach several nonneg far
  have difference : (distance * count / (count + 1)) ^ 2 -
      9 * ((m2 + distance * (distance * count / (count + 1))) / count) =
        (distance ^ 2 * (count * (count ^ 2 - 9 * count - 9)) - 9 * m2 * (count + 1) ^ 2) /
          (count * (count + 1) ^ 2) := by
    field_simp
    ring
  have squares : 9 * ((m2 + distance * (distance * count / (count + 1))) / count) <
      (distance * count / (count + 1)) ^ 2 := by
    rw [← sub_pos, difference]
    exact div_pos (sub_pos.mpr apart) (by positivity)
  have variance : 0 < (m2 + distance * (distance * count / (count + 1))) / count := by positivity
  rw [lt_div_iff₀ (Real.sqrt_pos.mpr variance)]
  refine lt_of_pow_lt_pow_left₀ 2 restPos.le ?_
  rw [mul_pow, Real.sq_sqrt variance.le]
  linarith

/-- After fifteen readings one that is far enough above their mean scores above three. -/
theorem Welford.exists_far_score {v : Welford ℝ} (several : 15 ≤ v.n) (nonneg : 0 ≤ v.m2) {x : ℝ}
    (far : v.mean + v.m2 + 2 ≤ x) :
    ∃ w z, v.update x = some w ∧ w.n = v.n + 1 ∧ w.zScore x = some z ∧ 3 < z := by
  have count : (15 : ℝ) ≤ v.n := by exact_mod_cast several
  have distance : v.m2 + 2 ≤ x - v.mean := by linarith
  obtain ⟨varied, score⟩ := three_lt_score count nonneg distance
  have rest : x - (v.mean + (x - v.mean) / (v.n + 1 : Nat)) =
      x - v.mean - (x - v.mean) / (v.n + 1) := by
    push_cast
    ring
  rw [← rest] at varied score
  have restPos : 0 < x - (v.mean + (x - v.mean) / (v.n + 1 : Nat)) := by
    by_contra notPositive
    have quotient := div_nonpos_of_nonpos_of_nonneg (not_lt.mp notPositive) (Real.sqrt_nonneg
      ((v.m2 + (x - v.mean) * (x - (v.mean + (x - v.mean) / (v.n + 1 : Nat)))) / v.n))
    linarith
  refine ⟨_, _, v.update_real x, rfl, zScore_of_two_le ?_ varied x, ?_⟩
  · exact Nat.succ_le_succ (by omega)
  · dsimp only
    rw [Nat.add_sub_cancel, abs_of_pos restPos]
    exact score

/-! ### The second pass on numbers -/

theorem sortValues_num (xs : List ℝ) :
    sortValues (xs.map WithNaN.num) = (sortValues xs).map WithNaN.num := by
  unfold sortValues
  refine (List.map_mergeSort fun a _ b _ => ?_).symm
  exact decide_eq_decide.mpr Iff.rfl

/-- The element of the middle rank of numbers. -/
theorem getD_sortValues_num (xs : List ℝ) :
    (sortValues (xs.map WithNaN.num)).getD ((sortValues (xs.map WithNaN.num)).length / 2) 0 =
      .num ((sortValues xs).getD ((sortValues xs).length / 2) 0) := by
  rw [sortValues_num, List.length_map, zero_eq]
  exact List.getD_map _ _ _

/-- On a slow tail of numbers the second pass computes what it computes on the numbers. -/
theorem medianAndMad_num {snap : SeriesSnapshot (WithNaN ℝ)} {finite : SeriesSnapshot ℝ}
    (same : snap.slow.map Sample.value = finite.values.map WithNaN.num) :
    medianAndMad snap = (.num (medianAndMad finite).1, .num (medianAndMad finite).2) := by
  have sameEmpty : snap.slow.isEmpty = finite.slow.isEmpty := by
    have lengths := congrArg List.length same
    rw [SeriesSnapshot.values, List.length_map, List.length_map, List.length_map] at lengths
    rw [Bool.eq_iff_iff, List.isEmpty_iff_length_eq_zero, List.isEmpty_iff_length_eq_zero, lengths]
  unfold medianAndMad
  rw [sameEmpty]
  split
  · rfl
  · dsimp only
    have distances : ∀ (xs : List ℝ) (median : ℝ),
        (xs.map WithNaN.num).map (fun v => PartialArithmetic.abs (v - .num median)) =
          (xs.map fun v => PartialArithmetic.abs (v - median)).map WithNaN.num := by
      intro xs median
      rw [List.map_map, List.map_map]
      rfl
    rw [same, getD_sortValues_num, sortValues_num, distances, getD_sortValues_num]
    rfl

/-! ### Readings that fill the slow tail -/

/-- Seconds after the history, whose timestamps are below `2 ^ 63`. -/
def resumeAt (seconds : Nat) : UInt64 := .ofNat (2 ^ 63 + seconds * 1000000000)

theorem toNat_resumeAt {seconds : Nat} (bound : seconds ≤ 120) :
    (resumeAt seconds).toNat = 2 ^ 63 + seconds * 1000000000 := by
  rw [resumeAt, UInt64.toNat_ofNat']
  exact Nat.mod_eq_of_lt (by omega)

/-- Two minutes of readings that are not all the same. -/
def freshValues : List ℝ := List.replicate 60 0 ++ List.replicate 60 1

/-- The readings, one a second. -/
def freshSamples : List (Sample (WithNaN ℝ)) :=
  freshValues.zipIdx.map fun value => ⟨resumeAt (value.2 + 1), .num value.1⟩

theorem length_freshSamples : freshSamples.length = slowCapacity := by
  rw [freshSamples, List.length_map, List.length_zipIdx, freshValues, List.length_append,
    List.length_replicate, List.length_replicate]
  rfl

theorem freshSamples_values : freshSamples.map Sample.value = freshValues.map WithNaN.num := by
  rw [freshSamples, List.map_map]
  conv_rhs => rw [← List.zipIdx_map_fst 0 freshValues, List.map_map]
  rfl

theorem getElem_freshSamples {rank : Nat} (bound : rank < freshSamples.length) :
    ∃ v, freshSamples[rank] = ⟨resumeAt (rank + 1), .num v⟩ := by
  simp only [freshSamples, List.getElem_map, List.getElem_zipIdx, Nat.zero_add]
  exact ⟨_, rfl⟩

theorem freshSamples_spaced : freshSamples.Pairwise SlowSpaced := by
  refine List.pairwise_iff_getElem.mpr fun early late earlyBound lateBound order => ?_
  obtain ⟨first, isFirst⟩ := getElem_freshSamples earlyBound
  obtain ⟨second, isSecond⟩ := getElem_freshSamples lateBound
  rw [length_freshSamples] at lateBound
  have capacity : slowCapacity = 120 := rfl
  rw [isFirst, isSecond, SlowSpaced, toNat_resumeAt (by omega), toNat_resumeAt (by omega)]
  omega

/-- The fresh readings are numbers of the two minutes after the history. -/
theorem mem_freshSamples {s : Sample (WithNaN ℝ)} (member : s ∈ freshSamples) :
    s.value ≠ nan ∧ 2 ^ 63 + 1000000000 ≤ s.tsNs.toNat ∧ s.tsNs.toNat ≤ 2 ^ 63 + 120000000000 := by
  obtain ⟨rank, bound, rfl⟩ := List.getElem_of_mem member
  obtain ⟨v, isSample⟩ := getElem_freshSamples bound
  rw [length_freshSamples] at bound
  have capacity : slowCapacity = 120 := rfl
  rw [isSample, toNat_resumeAt (by omega)]
  exact ⟨nofun, by omega, by omega⟩

/-- The fresh readings push everything else out of the slow tail, and one more reading at the time
of the last of them does not get in. -/
theorem slow_of_freshSamples {past : List (Sample (WithNaN ℝ))}
    (early : ∀ s ∈ past, s.tsNs.toNat ≤ 2 ^ 63) (x : WithNaN ℝ) :
    ((run SeriesRing.push .new (past ++ freshSamples)).push ⟨resumeAt 120, x⟩).slow.read =
      freshSamples := by
  have bound : tsBound = 2 ^ 64 - 950000000 := rfl
  have bounded : ∀ s ∈ past ++ freshSamples, s.tsNs.toNat < tsBound := by
    intro s member
    rcases List.mem_append.mp member with inPast | isFresh
    · have atMost := early s inPast
      omega
    · have atMost := (mem_freshSamples isFresh).2.2
      omega
  have threshold := lastAcceptedAfter_le (Nat.zero_le _) early
  have whole := accepted_append_of_due freshSamples_spaced fun s member =>
    (Nat.add_le_add_right threshold _).trans
      ((by omega : 2 ^ 63 + 950000000 ≤ 2 ^ 63 + 1000000000).trans (mem_freshSamples member).2.1)
  have lastRank : 119 < freshSamples.length := by
    rw [length_freshSamples]
    decide
  obtain ⟨v, isLast⟩ := getElem_freshSamples lastRank
  have last : (accepted past ++ freshSamples).getLast? = some ⟨resumeAt 120, .num v⟩ := by
    rw [List.getLast?_append, List.getLast?_eq_getElem?, length_freshSamples,
      show slowCapacity - 1 = 119 from rfl, List.getElem?_eq_getElem lastRank, isLast,
      Option.some_or]
  have skipped : accepted (past ++ freshSamples ++ [⟨resumeAt 120, x⟩]) =
      accepted (past ++ freshSamples) := by
    rw [accepted, acceptedAfter_concat, lastAcceptedAfter_eq, ← accepted, whole, last,
      Option.map_some, Option.getD_some,
      if_neg (Nat.not_le.mpr (Nat.lt_add_of_pos_right (by decide)))]
  rw [(SeriesRing.run_records _ bounded).slow_push, skipped, whole, RingBuffer.rtake_append,
    length_freshSamples, Nat.sub_self, List.rtake_zero, List.nil_append,
    RingBuffer.rtake_of_length_le length_freshSamples.le]

/-- The fresh readings deviate from their median. -/
theorem mad_freshValues_pos : 0 < (medianAndMad (tailOf freshValues)).2 := by
  have nonempty : (tailOf freshValues).slow ≠ [] := List.cons_ne_nil _ _
  obtain ⟨median, mad, isPair, isMedian, isMad⟩ := medianAndMad_spec nonempty
  rw [values_tailOf] at isMedian isMad
  have atLeast : 1 ≤ mad := by
    refine isMad.ge_of_countP ?_
    have zeroOrOne : median = 0 ∨ median = 1 := by
      rcases List.mem_append.mp isMedian.mem with isZero | isOne
      · exact .inl (List.eq_of_mem_replicate isZero)
      · exact .inr (List.eq_of_mem_replicate isOne)
    rw [freshValues, List.map_append, List.map_replicate, List.map_replicate, List.countP_append,
      List.countP_replicate, List.countP_replicate]
    rcases zeroOrOne with rfl | rfl <;> norm_num
  rw [isPair]
  dsimp only
  linarith

/-! ### A restart -/

/-- The reading that the ticks of a restart learn. -/
def quietSample : Sample (WithNaN ℝ) := ⟨resumeAt 0, .num 0⟩

theorem toNat_tsNs_quietSample : quietSample.tsNs.toNat = 2 ^ 63 := by
  rw [quietSample, toNat_resumeAt (Nat.zero_le _), Nat.zero_mul, Nat.add_zero]

/-- What a series sees of a restart: a quiet reading, learned fifteen times, and then the readings
that fill the slow tail. -/
def restart : List (SeriesInput (WithNaN ℝ)) :=
  [.push quietSample, .publish] ++ List.replicate 15 .tick ++ freshSamples.map .push

theorem restart_samples : restart.filterMap SeriesInput.sample = quietSample :: freshSamples := by
  have ticks : (List.replicate 15 (.tick : SeriesInput (WithNaN ℝ))).filterMap
      SeriesInput.sample = [] := List.filterMap_replicate_of_none rfl
  have pushes : (freshSamples.map SeriesInput.push).filterMap SeriesInput.sample =
      freshSamples := by
    rw [List.filterMap_map]
    exact List.filterMap_some
  rw [restart, List.filterMap_append, List.filterMap_append, ticks, pushes]
  rfl

theorem restart_learned (register : SampleRegister (WithNaN ℝ)) :
    (run SampleRegister.step register restart).learned =
      register.learned ++ List.replicate 15 quietSample := by
  have ticked := @SampleRegister.run_ticks _ (run SampleRegister.step register
    [.push quietSample, .publish]) quietSample rfl 15
  rw [restart, run_append, run_append, SampleRegister.learned_pushes, ticked]
  rfl

/-- The statistics after a restart of a series that has learned numbers only. -/
theorem Welford.exists_restarted {learned : List (Sample (WithNaN ℝ))}
    (healthy : ∀ s ∈ learned, s.value ≠ nan) :
    ∃ v : Welford ℝ, Welford.ofSamples (learned ++ List.replicate 15 quietSample) = some v.num ∧
      0 ≤ v.m2 ∧ 15 ≤ v.n := by
  obtain ⟨w, isLearned, reachable, poisoned⟩ :=
    ofSamples_reachable (learned ++ List.replicate 15 quietSample)
  have clean : w.m2 ≠ nan := by
    rw [ne_eq, poisoned]
    rintro ⟨s, member, isNan⟩
    rcases List.mem_append.mp member with before | quiet
    · exact healthy s before isNan
    · rw [List.eq_of_mem_replicate quiet] at isNan
      exact absurd isNan nofun
  obtain ⟨v, nonneg, rfl⟩ := reachable.of_ne_nan clean
  have count := n_of_ofSamples isLearned
  rw [List.length_append, List.length_replicate] at count
  exact ⟨v, isLearned, nonneg, (Nat.le_add_left 15 _).trans_eq count.symm⟩

/-- A number that is three and a half deviations above the median passes the gate of the median. -/
theorem exists_outlying_quotient {x median mad : ℝ} (madPos : 0 < mad)
    (fromMedian : median + 3.5 * mad ≤ x) :
    ∃ quotient : WithNaN ℝ, PartialArithmetic.quotient
      (PartialArithmetic.abs ((.num x : WithNaN ℝ) - .num median)) (.num mad) = some quotient ∧
        ¬ quotient < madZThreshold := by
  refine ⟨.num (|x - median| / mad), ?_, not_lt.mpr (?_ : (3.5 : ℝ) ≤ |x - median| / mad)⟩
  · rw [num_sub, abs_num, quotient_num, quotient_of_ne_zero _ madPos.ne', Option.map_some]
    rfl
  · rw [le_div_iff₀ madPos]
    exact (by linarith : 3.5 * mad ≤ x - median).trans (le_abs_self _)

/-- A reading fires that is far from the statistics and from a slow tail of the fresh readings, two
minutes after the last spike. -/
theorem spikeAt_of_far (key : SeriesKey) {x : ℝ} {snap : SeriesSnapshot (WithNaN ℝ)}
    {v : Welford ℝ} {prev : Option UInt64} (several : 15 ≤ v.n) (nonneg : 0 ≤ v.m2)
    (fromMean : v.mean + v.m2 + 2 ≤ x)
    (fromMedian : (medianAndMad (tailOf freshValues)).1 +
      3.5 * (medianAndMad (tailOf freshValues)).2 ≤ x)
    (slow : snap.slow = freshSamples)
    (latest : snap.fast.getLast? = some ⟨resumeAt 120, .num x⟩)
    (early : ∀ last ∈ prev, last.toNat ≤ 2 ^ 63) :
    ∃ w ev, v.num.update (.num x) = some w ∧
      spikeAt key (.num x) snap w prev = some (some ev) := by
  obtain ⟨w, z, updates, counted, scored, above⟩ :=
    Welford.exists_far_score several nonneg fromMean
  have madPos := mad_freshValues_pos
  have values : snap.slow.map Sample.value = (tailOf freshValues).values.map WithNaN.num := by
    rw [slow, freshSamples_values, values_tailOf]
  have statistics := medianAndMad_num values
  revert madPos fromMedian statistics
  generalize (medianAndMad (tailOf freshValues)).1 = median
  generalize (medianAndMad (tailOf freshValues)).2 = mad
  intro fromMedian madPos statistics
  have far : ¬ (.num z : WithNaN ℝ) ≤ welfordZThreshold := by
    intro near
    have atMost : z ≤ 3.0 := near
    norm_num at atMost
    linarith
  obtain ⟨quotient, isQuotient, outlier⟩ := exists_outlying_quotient madPos fromMedian
  have clear : ∀ last ∈ prev, ¬ saturatingSub ((snap.fast.getLast?.map Sample.tsNs).getD 0) last <
      spikePeriodNs := by
    intro last isLast
    have atMost := early last isLast
    have time := toNat_resumeAt (le_refl 120)
    have period : spikePeriodNs.toNat = 10000000000 := rfl
    rw [latest, Option.map_some, Option.getD_some, UInt64.not_lt,
      le_saturatingSub_iff (by decide), time, period]
    omega
  obtain ⟨ev, fires⟩ := spikeAt_of_gates
    ((w.zScore_num x).trans (congrArg (Option.map WithNaN.num) scored)) far
    (show 16 ≤ w.n by omega) statistics (not_le.mpr madPos) isQuotient outlier clear
  refine ⟨w.num, ev, ?_, fires⟩
  rw [Welford.update_num, updates, Option.map_some]

/-- What a restart leaves of a series that has learned numbers only: their statistics, a slow ring
that the fresh readings have filled, and no spike that is later than the quiet reading. -/
structure SeriesWatch.Restarted (v : Welford ℝ) (state : SeriesWatch (WithNaN ℝ)) : Prop where
  statistics : state.entry.welford.getD .default = v.num
  writer : ∃ past : List (Sample (WithNaN ℝ)), (∀ s ∈ past, s.tsNs.toNat ≤ 2 ^ 63) ∧
    state.writer.getD .new = run SeriesRing.push .new (past ++ freshSamples)
  lastFired : ∀ ts ∈ state.entry.lastFiredTs, ts.toNat ≤ 2 ^ 63

theorem SeriesWatch.restarted_of_run {key : SeriesKey} {seen : List (SeriesInput (WithNaN ℝ))}
    (earlySeen : ∀ s ∈ seen.filterMap SeriesInput.sample, s.tsNs.toNat < 2 ^ 63) {v : Welford ℝ}
    (isLearned : Welford.ofSamples ((run SampleRegister.step .empty seen).learned ++
      List.replicate 15 quietSample) = some v.num)
    {state : SeriesWatch (WithNaN ℝ)}
    (reached : runPartial (SeriesWatch.step key) (SpikeWatch.start.project key)
      (seen ++ restart) = some state) : state.Restarted v := by
  have statistics := (follows_run ⟨rfl, rfl, rfl⟩ _ reached).learned
  rw [run_append, restart_learned, isLearned, Option.some.injEq] at statistics
  have writer := writer_of_run rfl reached
  rw [List.filterMap_append, restart_samples, List.append_cons] at writer
  have remembered := lastFiredTs_of_run ⟨rfl, rfl, rfl⟩ rfl reached
  have quietTime : ∀ s ∈ [quietSample], s.tsNs.toNat ≤ 2 ^ 63 := fun s quiet => by
    rw [List.mem_singleton.mp quiet, toNat_tsNs_quietSample]
  refine ⟨statistics.symm, ⟨_, fun s member => ?_, writer⟩, fun ts isLast => ?_⟩
  · exact (List.mem_append.mp member).elim (fun before => (earlySeen s before).le) (quietTime s)
  · obtain ⟨s, member, rfl⟩ := remembered ts isLast
    rw [run_append, restart_learned] at member
    rcases List.mem_append.mp member with before | quiet
    · exact (earlySeen s (SampleRegister.mem_pushed_of_run seen s
        (List.mem_append_right _ before))).le
    · exact quietTime s (List.mem_singleton.mpr (List.eq_of_mem_replicate quiet))

/-- A restarted series fires at a reading that is far from its statistics and from the fresh
readings. -/
theorem SeriesWatch.Restarted.fires {key : SeriesKey} {v : Welford ℝ}
    {state final : SeriesWatch (WithNaN ℝ)} (restarted : state.Restarted v) (several : 15 ≤ v.n)
    (nonneg : 0 ≤ v.m2) {x : ℝ} (fromMean : v.mean + v.m2 + 2 ≤ x)
    (fromMedian : (medianAndMad (tailOf freshValues)).1 +
      3.5 * (medianAndMad (tailOf freshValues)).2 ≤ x)
    (reached : runPartial (SeriesWatch.step key) state
      ([.push ⟨resumeAt 120, .num x⟩, .publish] ++ .tick :: []) = some final) :
    ∃ ev, final.spikes = state.spikes ++ [ev] := by
  obtain ⟨shown, next, reachedShown, ticks, done⟩ := runPartial_split reached
  obtain rfl := Option.some.inj done
  have isShown := (Option.some.inj reachedShown).symm
  obtain ⟨past, early, writer⟩ := restarted.writer
  have slow := slow_of_freshSamples early (.num x)
  rw [← writer] at slow
  have fast := SeriesRing.getLast?_fast_push (state.writer.getD .new) ⟨resumeAt 120, .num x⟩
  generalize (state.writer.getD .new).push ⟨resumeAt 120, .num x⟩ = ring at isShown slow fast
  have published : shown.published = some ring.snapshot := by rw [isShown]; rfl
  rcases step_tick_cases ticks with
    ⟨unread, _⟩ | ⟨snap, s, w, fired, isPublished, latest, updates, fires, rfl⟩
  · rw [published, Option.bind_some] at unread
    exact absurd (unread.symm.trans fast) nofun
  · obtain rfl := Option.some.inj (published.symm.trans isPublished)
    obtain rfl := Option.some.inj (latest.symm.trans fast)
    obtain ⟨learned, ev, updated, isFired⟩ := @spikeAt_of_far key x ring.snapshot v
      state.entry.lastFiredTs several nonneg fromMean fromMedian slow fast restarted.lastFired
    rw [isShown] at updates fires
    rw [restarted.statistics, updated, Option.some.injEq] at updates
    subst updates
    obtain rfl := Option.some.inj (fires.symm.trans isFired)
    exact ⟨ev, by rw [isShown]; rfl⟩

/-- After a restart of a series that has learned numbers only, there is a reading that fires. -/
theorem SeriesWatch.fires_after_restart (key : SeriesKey)
    {seen : List (SeriesInput (WithNaN ℝ))}
    (earlySeen : ∀ s ∈ seen.filterMap SeriesInput.sample, s.tsNs.toNat < 2 ^ 63)
    (healthy : ∀ s ∈ (run SampleRegister.step .empty seen).learned, s.value ≠ nan) :
    ∃ x : ℝ, ∀ final, runPartial (SeriesWatch.step key) (SpikeWatch.start.project key)
        (seen ++ restart ++ [.push ⟨resumeAt 120, .num x⟩, .publish, .tick]) = some final →
      ∃ middle ev, runPartial (SeriesWatch.step key) (SpikeWatch.start.project key)
          (seen ++ restart) = some middle ∧ final.spikes = middle.spikes ++ [ev] := by
  obtain ⟨v, isLearned, nonneg, several⟩ := Welford.exists_restarted healthy
  obtain ⟨x, fromMean, fromMedian⟩ : ∃ x, v.mean + v.m2 + 2 ≤ x ∧
      (medianAndMad (tailOf freshValues)).1 + 3.5 * (medianAndMad (tailOf freshValues)).2 ≤ x :=
    ⟨max _ _, le_max_left _ _, le_max_right _ _⟩
  refine ⟨x, fun final reached => ?_⟩
  rw [runPartial_append] at reached
  obtain ⟨middle, reachedMiddle, last⟩ := Option.bind_eq_some_iff.mp reached
  have restarted := restarted_of_run earlySeen isLearned reachedMiddle
  obtain ⟨ev, spikes⟩ := restarted.fires several nonneg fromMean fromMedian last
  exact ⟨middle, ev, reachedMiddle, spikes⟩

/-! ### Continuations -/

/-- A number with a later timestamp than everything pushed before. -/
structure Sample.Resumes (history : List (SpikeInput (WithNaN ℝ))) (s : Sample (WithNaN ℝ)) :
    Prop where
  isNumber : s.value ≠ nan
  later : ∀ k earlier, .push k earlier ∈ history → earlier.tsNs < s.tsNs

/-- Detection of a series is not disabled for good: the run can go on with pushes of later numbers,
publishes and ticks to a state with another spike of the series. -/
def CanFire (history : List (SpikeInput (WithNaN ℝ))) (key : SeriesKey) : Prop :=
  ∃ continuation before after fired, RunIterates (history ++ continuation) ∧
    (∀ k s, .push k s ∈ continuation → s.Resumes history) ∧
    runPartial SpikeWatch.step .start history = some before ∧
    runPartial SpikeWatch.step .start (history ++ continuation) = some after ∧ fired ≠ [] ∧
    ownedBy SpikeEvent.key key after.spikes = ownedBy SpikeEvent.key key before.spikes ++ fired

theorem mem_of_mem_samplesPushed {Value : Type} {key : SeriesKey}
    {inputs : List (SpikeInput Value)} {s : Sample Value} (member : s ∈ samplesPushed key inputs) :
    .push key s ∈ inputs := by
  obtain ⟨seen, inView, isSample⟩ := List.mem_filterMap.mp member
  obtain ⟨input, inInputs, view⟩ := List.mem_filterMap.mp inView
  cases input with
  | publish now =>
    obtain rfl := Option.some.inj view
    exact absurd isSample (Option.some_ne_none s).symm
  | tick order =>
    obtain rfl := Option.some.inj view
    exact absurd isSample (Option.some_ne_none s).symm
  | push other pushed =>
    rw [SpikeInput.viewOf] at view
    split at view
    · rename_i same
      obtain rfl := Option.some.inj view
      obtain rfl := Option.some.inj isSample
      rwa [← same]
    · exact absurd view (Option.some_ne_none seen).symm

/-- The inputs of a restart and the reading that fires are pushes of later numbers. -/
theorem resumes_of_restart {history : List (SpikeInput (WithNaN ℝ))}
    (bounded : ∀ k s, .push k s ∈ history → s.tsNs.toNat < 2 ^ 63) {x : ℝ}
    {s : Sample (WithNaN ℝ)}
    (member : .push s ∈ restart ++ [.push ⟨resumeAt 120, .num x⟩, .publish, .tick]) :
    s.Resumes history := by
  have late (number : s.value ≠ nan) (late : 2 ^ 63 ≤ s.tsNs.toNat) : s.Resumes history :=
    ⟨number, fun k earlier pushed =>
      UInt64.lt_iff_toNat_lt.mpr ((bounded k earlier pushed).trans_le late)⟩
  have isSample : SeriesInput.sample (.push s) = some s := rfl
  have sample := List.mem_filterMap.mpr ⟨_, member, isSample⟩
  rw [List.filterMap_append, restart_samples] at sample
  rcases List.mem_append.mp sample with inRestart | isLast
  · rcases List.mem_cons.mp inRestart with rfl | fresh
    · exact late nofun toNat_tsNs_quietSample.ge
    · obtain ⟨number, atLeast, _⟩ := mem_freshSamples fresh
      exact late number ((Nat.le_add_right _ _).trans atLeast)
  · obtain rfl := List.mem_singleton.mp isLast
    exact late nofun ((Nat.le_add_right _ _).trans (toNat_resumeAt (le_refl 120)).ge)

/-- A series on its own goes on from where the history has left it. -/
theorem SpikeWatch.run_project_append (key : SeriesKey)
    {history continuation : List (SpikeInput (WithNaN ℝ))} (iterates : RunIterates history)
    (iteratesAll : RunIterates (history ++ continuation)) {before after : SpikeWatch (WithNaN ℝ)}
    (reached : runPartial SpikeWatch.step .start history = some before)
    (reachedAll : runPartial SpikeWatch.step .start (history ++ continuation) = some after) :
    runPartial (SeriesWatch.step key) (before.project key)
      (continuation.filterMap (SpikeInput.viewOf key)) = some (after.project key) := by
  have whole := run_project key iteratesAll reachedAll
  rwa [List.filterMap_append, runPartial_append, run_project key iterates reached,
    Option.bind_some] at whole

/-- A series that has learned a reading that is not a number stays silent. -/
theorem CanFire.healthy {history : List (SpikeInput (WithNaN ℝ))} {key : SeriesKey}
    (canFire : CanFire history key) (iterates : RunIterates history) :
    ∀ s ∈ samplesLearned key history, s.value ≠ nan := by
  obtain ⟨continuation, before, after, fired, iteratesAll, _, reached, reachedAll, emitted,
    spikes⟩ := canFire
  intro s member isNan
  obtain ⟨w, learned, _, poisoned⟩ := Welford.ofSamples_reachable (samplesLearned key history)
  rw [SpikeWatch.statistics_of_run iterates reached key, Option.some.injEq] at learned
  have disabled : ((before.project key).entry.welford.getD .default).m2 = nan :=
    (congrArg Welford.m2 learned).trans (poisoned.mpr ⟨s, member, isNan⟩)
  have kept := SeriesWatch.spikes_of_nan disabled
    (SpikeWatch.run_project_append key iterates iteratesAll reached reachedAll)
  exact emitted (List.append_right_eq_self.mp (spikes.symm.trans kept))

/-- A series that has learned numbers only fires after a restart. -/
theorem canFire_of_healthy {history : List (SpikeInput (WithNaN ℝ))}
    (iterates : RunIterates history)
    (bounded : ∀ k s, .push k s ∈ history → s.tsNs.toNat < 2 ^ 63) {key : SeriesKey}
    (healthy : ∀ s ∈ samplesLearned key history, s.value ≠ nan) : CanFire history key := by
  have early : ∀ s ∈ samplesPushed key history, s.tsNs.toNat < 2 ^ 63 :=
    fun s member => bounded key s (mem_of_mem_samplesPushed member)
  obtain ⟨x, fires⟩ := SeriesWatch.fires_after_restart key early healthy
  obtain ⟨continuation, iteratesAll, view, pushes⟩ := SpikeWatch.exists_continuation key iterates
    (restart ++ [.push ⟨resumeAt 120, .num x⟩, .publish, .tick])
  obtain ⟨before, reached, _⟩ := SpikeWatch.run_reachable history
  obtain ⟨after, reachedAll, _⟩ := SpikeWatch.run_reachable (history ++ continuation)
  have whole := SpikeWatch.run_project key iteratesAll reachedAll
  rw [List.filterMap_append, view, ← List.append_assoc] at whole
  obtain ⟨middle, ev, reachedMiddle, last⟩ := fires _ whole
  rw [runPartial_append, SpikeWatch.run_project key iterates reached, Option.bind_some]
    at reachedMiddle
  obtain ⟨meanwhile, grown⟩ := SeriesWatch.spikes_prefix reachedMiddle
  refine ⟨continuation, before, after, meanwhile ++ [ev], iteratesAll,
    fun k s member => resumes_of_restart bounded (pushes k s member), reached, reachedAll,
    List.append_ne_nil_of_right_ne_nil _ (List.cons_ne_nil _ _), ?_⟩
  rw [← List.append_assoc]
  exact last.trans (congrArg (· ++ [ev]) grown.symm)

/-- A reading that is not a number, published before the first tick. -/
def nanReading : List (SpikeInput (WithNaN ℝ)) :=
  [.push ⟨0, 0, 42⟩ ⟨1000000000, nan⟩] ++ [.publish 5]

theorem nanReading_bounded : ∀ k s, .push k s ∈ nanReading → s.tsNs.toNat < 2 ^ 63 := by
  intro k s member
  rcases List.mem_cons.mp member with same | other
  · obtain ⟨_, rfl⟩ := SpikeInput.push.inj same
    exact show (1000000000 : UInt64).toNat < 2 ^ 63 by decide
  · exact absurd (List.mem_singleton.mp other) nofun

end PerfWeave
