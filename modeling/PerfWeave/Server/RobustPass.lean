/-
This file settles what the second pass of the detector looks at. Over exact numbers the median
and the deviation it computes are upper medians, so they stay within the spread of any majority of
the slow tail, whatever stands in the other places. They are medians of the whole slow tail: its
samples are counted, not timed, so a sample of more than a minute ago has as much weight as any.
-/

import PerfWeave.Server.FastRingLog
import PerfWeave.Server.SpikeDetect
import PerfWeave.Library.Median

namespace PerfWeave

/-! ### The two medians -/

theorem sortValues_perm (values : List ℝ) : (sortValues values).Perm values :=
  List.mergeSort_perm _ _

theorem sortValues_pairwise (values : List ℝ) : (sortValues values).Pairwise (· ≤ ·) := by
  have transitive : ∀ a b c : ℝ, decide (¬ b < a) → decide (¬ c < b) → decide (¬ c < a) := by
    simp only [decide_eq_true_eq, not_lt]
    exact fun a b c => le_trans
  have total : ∀ a b : ℝ, decide (¬ b < a) || decide (¬ a < b) := by
    simp only [Bool.or_eq_true, decide_eq_true_eq, not_lt]
    exact le_total
  exact (List.pairwise_mergeSort transitive total values).imp fun ordered =>
    not_lt.mp (of_decide_eq_true ordered)

theorem isUpperMedian_sortValues {values : List ℝ} (nonempty : values ≠ []) :
    IsUpperMedian values ((sortValues values).getD ((sortValues values).length / 2) 0) := by
  have positive := List.length_pos_iff.mpr nonempty
  have sameLength := (sortValues_perm values).length_eq
  have bound : values.length / 2 < (sortValues values).length := by omega
  rw [sameLength, List.getD_eq_getElem _ _ bound]
  exact isUpperMedian_of_sorted (sortValues_perm values) (sortValues_pairwise values) bound

/-- The values of the slow tail. -/
def SeriesSnapshot.values (snap : SeriesSnapshot ℝ) : List ℝ := snap.slow.map Sample.value

/-- The second pass computes the upper median of the slow tail and the scaled upper median of the
distances from it. -/
theorem medianAndMad_spec {snap : SeriesSnapshot ℝ} (nonempty : snap.slow ≠ []) :
    ∃ median mad, medianAndMad snap = (median, mad * 1.4826) ∧
      IsUpperMedian snap.values median ∧
      IsUpperMedian (snap.values.map fun v => |v - median|) mad := by
  have some : snap.values ≠ [] := mt List.map_eq_nil_iff.mp nonempty
  refine ⟨_, _, if_neg (mt List.isEmpty_iff.mp nonempty), isUpperMedian_sortValues some, ?_⟩
  have sortedSome : sortValues snap.values ≠ [] := fun empty => by
    have perm := sortValues_perm snap.values
    rw [empty] at perm
    exact some perm.nil_eq.symm
  exact (isUpperMedian_sortValues (mt List.map_eq_nil_iff.mp sortedSome)).of_perm
    ((sortValues_perm snap.values).map _)

/-! ### Contamination -/

/-- The values of a tail outside some places. -/
def SeriesSnapshot.valuesOutside (snap : SeriesSnapshot ℝ) (places : Finset Nat) : Set ℝ :=
  {value | ∃ place ∉ places, snap.values[place]? = some value}

/-- A tail with a place outside some places has a smallest and a largest value there. -/
theorem exists_bounds_outside (snap : SeriesSnapshot ℝ) {places : Finset Nat}
    (few : places.card < snap.values.length) :
    ∃ low high, IsLeast (snap.valuesOutside places) low ∧
      IsGreatest (snap.valuesOutside places) high := by
  have finite : (snap.valuesOutside places).Finite := by
    refine (List.finite_toSet snap.values).subset ?_
    rintro value ⟨place, _, found⟩
    exact List.mem_of_getElem? found
  obtain ⟨place, inRange, outside⟩ := Finset.exists_mem_notMem_of_card_lt_card
    (few.trans_eq (Finset.card_range snap.values.length).symm)
  have bound := Finset.mem_range.mp inRange
  have nonempty : (snap.valuesOutside places).Nonempty :=
    ⟨snap.values[place], place, outside, List.getElem?_eq_getElem bound⟩
  obtain ⟨low, isLow, lowest⟩ := Set.exists_min_image _ id finite nonempty
  obtain ⟨high, isHigh, highest⟩ := Set.exists_max_image _ id finite nonempty
  exact ⟨low, high, ⟨isLow, lowest⟩, isHigh, highest⟩

/-- When fewer places are overwritten than are left above half of the slow tail, the median stays
between the smallest and the largest of the other values, and the deviation within their
spread. -/
theorem medianAndMad_of_overwritten (before after : SeriesSnapshot ℝ) (places : Finset Nat)
    (nonempty : before.slow ≠ []) (sameLength : after.values.length = before.values.length)
    (few : places.card ≤ before.values.length - before.values.length / 2 - 1)
    (untouched : ∀ place ∉ places, after.values[place]? = before.values[place]?) :
    ∃ low high, IsLeast (before.valuesOutside places) low ∧
      IsGreatest (before.valuesOutside places) high ∧
      low ≤ (medianAndMad after).1 ∧ (medianAndMad after).1 ≤ high ∧
      (medianAndMad after).2 / 1.4826 ≤ high - low := by
  have positive : 0 < before.values.length :=
    List.length_pos_iff.mpr (mt List.map_eq_nil_iff.mp nonempty)
  have someLeft : places.card < before.values.length := by omega
  obtain ⟨low, high, isLow, isHigh⟩ := exists_bounds_outside before someLeft
  have afterSome : after.slow ≠ [] := by
    rintro empty
    rw [SeriesSnapshot.values, empty, List.map_nil, List.length_nil] at sameLength
    omega
  obtain ⟨median, mad, isPair, isMedian, isMad⟩ := medianAndMad_spec afterSome
  have many : after.values.length / 2 <
      (Finset.range after.values.length \ places).card := by
    have left := Finset.le_card_sdiff places (Finset.range after.values.length)
    rw [Finset.card_range] at left
    omega
  have kept : ∀ place ∈ Finset.range after.values.length \ places,
      ∃ value, after.values[place]? = some value ∧ low ≤ value ∧ value ≤ high := by
    intro place member
    obtain ⟨inRange, outside⟩ := Finset.mem_sdiff.mp member
    have bound := Finset.mem_range.mp inRange
    have found := List.getElem?_eq_getElem bound
    have isOutside : after.values[place] ∈ before.valuesOutside places :=
      ⟨place, outside, (untouched place outside).symm.trans found⟩
    exact ⟨_, found, isLow.2 isOutside, isHigh.2 isOutside⟩
  have between := isMedian.mem_Icc_of_places many kept
  refine ⟨low, high, isLow, isHigh, ?_⟩
  rw [isPair]
  refine ⟨between.1, between.2, ?_⟩
  rw [mul_div_cancel_right₀ mad (by norm_num)]
  have distances : ∀ place ∈ Finset.range after.values.length \ places, ∃ distance,
      (after.values.map fun v => |v - median|)[place]? = some distance ∧
        0 ≤ distance ∧ distance ≤ high - low := by
    intro place member
    obtain ⟨value, found, atLeast, atMost⟩ := kept place member
    refine ⟨|value - median|, by rw [List.getElem?_map, found]; rfl, abs_nonneg _, ?_⟩
    rw [abs_le]
    constructor <;> linarith [between.1, between.2]
  exact (isMad.mem_Icc_of_places (by rw [List.length_map]; exact many) distances).2

/-- A tail with the given values, one a second. -/
def tailOf (values : List ℝ) : SeriesSnapshot ℝ where
  slow := values.zipIdx.map fun value => ⟨.ofNat (value.2 * 1000000000), value.1⟩
  fast := []

theorem values_tailOf (values : List ℝ) : (tailOf values).values = values := by
  unfold tailOf SeriesSnapshot.values
  rw [List.map_map]
  exact List.zipIdx_map_fst 0 values

/-- One of three values is overwritten. -/
theorem medianAndMad_of_overwritten_first :
    ∃ low high, IsLeast ((tailOf [1, 2, 3]).valuesOutside {0}) low ∧
      IsGreatest ((tailOf [1, 2, 3]).valuesOutside {0}) high ∧
      low ≤ (medianAndMad (tailOf [100, 2, 3])).1 ∧
      (medianAndMad (tailOf [100, 2, 3])).1 ≤ high ∧
      (medianAndMad (tailOf [100, 2, 3])).2 / 1.4826 ≤ high - low := by
  refine medianAndMad_of_overwritten (tailOf [1, 2, 3]) (tailOf [100, 2, 3]) {0}
    (List.cons_ne_nil _ _) ?_ ?_ ?_
  · rw [values_tailOf, values_tailOf]
    rfl
  · rw [values_tailOf]
    decide
  · intro place untouched
    rw [values_tailOf, values_tailOf]
    cases place with
    | zero => exact absurd (Finset.mem_singleton_self 0) untouched
    | succ place => rfl

/-! ### The window -/

/-- Not more than 60 s before a timestamp. -/
def isRecent (newest ts : UInt64) : Bool := newest.toNat ≤ ts.toNat + 60000000000

/-- The samples of a tail not more than 60 s before a timestamp. -/
def recentSamples (newest : UInt64) (tail : List (Sample ℝ)) : List (Sample ℝ) :=
  tail.filter fun s => isRecent newest s.tsNs

/-- Two snapshots of a series are the same to the second pass, and to the gates around it. -/
structure SameVerdict (first second : SeriesSnapshot ℝ) : Prop where
  statistics : medianAndMad first = medianAndMad second
  spike : ∀ k x w prev, spikeAt k x first w prev = spikeAt k x second w prev

/-- A tail with the given timestamps: the first recent samples are zero, so many as given, the
other recent ones are one, and the old ones have a value of their own. -/
def filledTail (newest : UInt64) (old : ℝ) : List UInt64 → Nat → List (Sample ℝ)
  | [], _ => []
  | ts :: rest, zeros =>
    if isRecent newest ts then
      ⟨ts, if zeros = 0 then 1 else 0⟩ :: filledTail newest old rest (zeros - 1)
    else ⟨ts, old⟩ :: filledTail newest old rest zeros

theorem filledTail_recent {newest ts : UInt64} (recent : isRecent newest ts) (old : ℝ)
    (rest : List UInt64) (zeros : Nat) :
    filledTail newest old (ts :: rest) zeros =
      ⟨ts, if zeros = 0 then 1 else 0⟩ :: filledTail newest old rest (zeros - 1) :=
  if_pos recent

theorem filledTail_old {newest ts : UInt64} (isOld : ¬ isRecent newest ts) (old : ℝ)
    (rest : List UInt64) (zeros : Nat) :
    filledTail newest old (ts :: rest) zeros = ⟨ts, old⟩ :: filledTail newest old rest zeros :=
  if_neg isOld

theorem map_tsNs_filledTail (newest : UInt64) (old : ℝ) (stamps : List UInt64) (zeros : Nat) :
    (filledTail newest old stamps zeros).map Sample.tsNs = stamps := by
  induction stamps generalizing zeros with
  | nil => rfl
  | cons ts rest inductionHypothesis =>
    by_cases recent : isRecent newest ts
    · rw [filledTail_recent recent, List.map_cons, inductionHypothesis]
    · rw [filledTail_old recent, List.map_cons, inductionHypothesis]

/-- The recent samples of a filled tail are those of the recent timestamps. -/
theorem recentSamples_filledTail (newest : UInt64) (old : ℝ) (stamps : List UInt64)
    (zeros : Nat) :
    recentSamples newest (filledTail newest old stamps zeros) =
      filledTail newest 0 (stamps.filter (isRecent newest)) zeros := by
  unfold recentSamples
  induction stamps generalizing zeros with
  | nil => rfl
  | cons ts rest inductionHypothesis =>
    by_cases recent : isRecent newest ts
    · rw [filledTail_recent recent, List.filter_cons, List.filter_cons, if_pos recent,
        if_pos recent, filledTail_recent recent, inductionHypothesis]
    · rw [filledTail_old recent, List.filter_cons, List.filter_cons, if_neg recent, if_neg recent,
        inductionHypothesis]

/-- With ones in the old places a filled tail has no more zeros than given. -/
theorem countP_filledTail_one_le (newest : UInt64) (stamps : List UInt64) (zeros : Nat) :
    ((filledTail newest 1 stamps zeros).map Sample.value).countP (· < 1) ≤ zeros := by
  induction stamps generalizing zeros with
  | nil => exact Nat.zero_le _
  | cons ts rest inductionHypothesis =>
    by_cases recent : isRecent newest ts
    · rw [filledTail_recent recent, List.map_cons, List.countP_cons]
      have counted := inductionHypothesis (zeros - 1)
      cases zeros with
      | zero => simpa using counted
      | succ zeros => simpa using counted
    · rw [filledTail_old recent, List.map_cons, List.countP_cons_of_neg (by simp)]
      exact inductionHypothesis zeros

/-- With zeros in the old places a filled tail has them and the given ones. -/
theorem le_countP_filledTail_zero (newest : UInt64) (stamps : List UInt64) (zeros : Nat) :
    min zeros (stamps.countP (isRecent newest)) + stamps.countP (fun ts => !isRecent newest ts) ≤
      ((filledTail newest 0 stamps zeros).map Sample.value).countP (· ≤ 0) := by
  induction stamps generalizing zeros with
  | nil => simp
  | cons ts rest inductionHypothesis =>
    by_cases recent : isRecent newest ts
    · rw [filledTail_recent recent, List.map_cons, List.countP_cons_of_pos recent,
        List.countP_cons_of_neg (by simp [recent])]
      have counted := inductionHypothesis (zeros - 1)
      cases zeros with
      | zero => simpa using counted
      | succ zeros =>
        rw [Nat.add_sub_cancel] at counted ⊢
        rw [List.countP_cons_of_pos (by simp)]
        omega
    · rw [filledTail_old recent, List.map_cons, List.countP_cons_of_neg recent,
        List.countP_cons_of_pos (by simp [recent]), List.countP_cons_of_pos (by simp)]
      have counted := inductionHypothesis zeros
      omega

/-- An old timestamp matters: with half of the tail zero at most, the old values decide on which
side of them the median is. -/
theorem filledTail_median {newest : UInt64} {stamps : List UInt64} {ts : UInt64}
    (member : ts ∈ stamps) (isOld : ¬ isRecent newest ts) (fast : List (Sample ℝ)) :
    medianAndMad ⟨filledTail newest 0 stamps (stamps.length / 2), fast⟩ ≠
      medianAndMad ⟨filledTail newest 1 stamps (stamps.length / 2), fast⟩ := by
  have length : ∀ old, (filledTail newest old stamps (stamps.length / 2)).length =
      stamps.length := by
    intro old
    rw [← List.length_map Sample.tsNs, map_tsNs_filledTail]
  have positive := List.length_pos_of_mem member
  have some : ∀ old, filledTail newest old stamps (stamps.length / 2) ≠ [] :=
    fun old => List.ne_nil_of_length_pos (positive.trans_eq (length old).symm)
  obtain ⟨low, lowMad, isLow, lowMedian, _⟩ := @medianAndMad_spec
    ⟨filledTail newest 0 stamps (stamps.length / 2), fast⟩ (some 0)
  obtain ⟨high, highMad, isHigh, highMedian, _⟩ := @medianAndMad_spec
    ⟨filledTail newest 1 stamps (stamps.length / 2), fast⟩ (some 1)
  have atMost : low ≤ 0 := by
    refine lowMedian.le_of_countP ?_
    have olds : 0 < stamps.countP fun ts => !isRecent newest ts :=
      List.countP_pos_iff.mpr ⟨ts, member, Bool.not_eq_true' _ ▸ Bool.eq_false_iff.mpr isOld⟩
    have zeros := le_countP_filledTail_zero newest stamps (stamps.length / 2)
    have total := stamps.length_eq_countP_add_countP (isRecent newest)
    simp only [Bool.not_eq_true, Bool.decide_eq_false] at total
    rw [SeriesSnapshot.values, List.length_map]
    dsimp only
    rw [length]
    omega
  have atLeast : 1 ≤ high := by
    refine highMedian.ge_of_countP ?_
    rw [SeriesSnapshot.values, List.length_map, length]
    exact countP_filledTail_one_le newest stamps _
  rw [isLow, isHigh, ne_eq, Prod.mk.injEq]
  rintro ⟨same, _⟩
  linarith

/-- The second pass cannot tell two slow tails with the given timestamps apart by what is older
than a minute exactly when neither of them has anything that old. -/
theorem sameVerdict_iff (older : List (Sample ℝ)) (newest : Sample ℝ)
    (firstStamps secondStamps : List UInt64)
    (sameRecent : firstStamps.filter (isRecent newest.tsNs) =
      secondStamps.filter (isRecent newest.tsNs)) :
    (∀ first second : List (Sample ℝ), first.map Sample.tsNs = firstStamps →
        second.map Sample.tsNs = secondStamps →
        recentSamples newest.tsNs first = recentSamples newest.tsNs second →
        SameVerdict ⟨first, older ++ [newest]⟩ ⟨second, older ++ [newest]⟩) ↔
      (∀ ts ∈ firstStamps, isRecent newest.tsNs ts) ∧
        ∀ ts ∈ secondStamps, isRecent newest.tsNs ts := by
  constructor
  · intro same
    have filled : ∀ old other zeros, medianAndMad ⟨filledTail newest.tsNs old firstStamps zeros,
        older ++ [newest]⟩ = medianAndMad ⟨filledTail newest.tsNs other secondStamps zeros,
          older ++ [newest]⟩ := by
      intro old other zeros
      refine (same _ _ (map_tsNs_filledTail _ _ _ _) (map_tsNs_filledTail _ _ _ _) ?_).statistics
      rw [recentSamples_filledTail, recentSamples_filledTail, sameRecent]
    constructor
    · intro ts member
      by_contra isOld
      exact filledTail_median member isOld _ ((filled 0 0 _).trans (filled 1 0 _).symm)
    · intro ts member
      by_contra isOld
      exact filledTail_median member isOld _ ((filled 0 0 _).symm.trans (filled 0 1 _))
  · rintro ⟨firstRecent, secondRecent⟩ first second rfl rfl same
    have whole : ∀ tail : List (Sample ℝ), (∀ ts ∈ tail.map Sample.tsNs, isRecent newest.tsNs ts) →
        recentSamples newest.tsNs tail = tail := fun tail recent =>
      List.filter_eq_self.mpr fun s member => recent s.tsNs (List.mem_map_of_mem member)
    rw [whole first firstRecent, whole second secondRecent] at same
    rw [same]
    exact ⟨rfl, fun _ _ _ _ => rfl⟩

/-- A tail of two samples of the last minute. -/
theorem sameVerdict_iff_minute :
    (∀ first second : List (Sample ℝ), first.map Sample.tsNs = [99000000000, 100000000000] →
        second.map Sample.tsNs = [99000000000, 100000000000] →
        recentSamples 100000000000 first = recentSamples 100000000000 second →
        SameVerdict ⟨first, [⟨100000000000, 7⟩]⟩ ⟨second, [⟨100000000000, 7⟩]⟩) ↔
      (∀ ts ∈ [(99000000000 : UInt64), 100000000000], isRecent 100000000000 ts) ∧
        ∀ ts ∈ [(99000000000 : UInt64), 100000000000], isRecent 100000000000 ts :=
  sameVerdict_iff [] ⟨100000000000, 7⟩ [99000000000, 100000000000] [99000000000, 100000000000] rfl

/-- A reading at one second and then a hundred readings of zero at 100 s. -/
def staleReading (old : ℝ) : List (Sample ℝ) :=
  ⟨1000000000, old⟩ :: List.replicate 100 ⟨100000000000, 0⟩

theorem accepted_staleReading (old : ℝ) :
    accepted (staleReading old) = filledTail 100000000000 old [1000000000, 100000000000] 1 := by
  have repeated : ∀ count, acceptedAfter 100000000000
      (List.replicate count (⟨100000000000, 0⟩ : Sample ℝ)) = [] := by
    intro count
    induction count with
    | zero => rfl
    | succ count inductionHypothesis =>
      rw [List.replicate_succ, acceptedAfter, if_neg (by decide), inductionHypothesis]
  have first : 0 + 950000000 ≤ (1000000000 : UInt64).toNat := by decide
  have second : (1000000000 : UInt64).toNat + 950000000 ≤ (100000000000 : UInt64).toNat := by decide
  have kept : accepted (staleReading old) = [⟨1000000000, old⟩, ⟨100000000000, 0⟩] := by
    rw [accepted, staleReading, acceptedAfter, if_pos first, List.replicate_succ, acceptedAfter,
      if_pos second]
    exact congrArg (fun rest => ⟨1000000000, old⟩ :: ⟨100000000000, 0⟩ :: rest) (repeated 99)
  rw [kept, filledTail_old (by decide), filledTail_recent (by decide), filledTail,
    if_neg one_ne_zero]

/-- What readers see of it. -/
theorem series_staleReading (old : ℝ) :
    (run FastRing.step FastRing.new
        ((staleReading old).map (.push ⟨0, 0, 42⟩) ++ [.publish 5])).snapshot.series ⟨0, 0, 42⟩ =
      some {
        slow := filledTail 100000000000 old [1000000000, 100000000000] 1
        fast := List.replicate 100 ⟨100000000000, 0⟩ } := by
  have bounded : ∀ s ∈ staleReading old, s.tsNs.toNat < tsBound := by
    intro s member
    rcases List.mem_cons.mp member with rfl | stale
    · exact show (1000000000 : UInt64).toNat < tsBound by decide
    · rw [List.eq_of_mem_replicate stale]
      exact show (100000000000 : UInt64).toNat < tsBound by decide
  have slow : (filledTail 100000000000 old [1000000000, 100000000000] 1).length ≤ slowCapacity := by
    rw [← List.length_map Sample.tsNs, map_tsNs_filledTail]
    decide
  have fast : (staleReading old).rtake fastCapacity = List.replicate 100 ⟨100000000000, 0⟩ := by
    have hundred : (List.replicate 100 (⟨100000000000, 0⟩ : Sample ℝ)).length = fastCapacity :=
      List.length_replicate
    rw [staleReading, RingBuffer.rtake_cons_of_le _ hundred.ge,
      RingBuffer.rtake_of_length_le hundred.le]
  have pushed : staleReading old ≠ [] := List.cons_ne_nil _ _
  rw [FastRing.series_publish, pushedTo_map_push, if_neg pushed,
    SeriesRing.snapshot, SeriesRing.fast_run, fast, (SeriesRing.run_records _ bounded).slow,
    accepted_staleReading, RingBuffer.rtake_of_length_le slow]

/-- A reading of 99 s ago decides what the second pass computes. -/
theorem exists_stale_influence :
    ¬ ∀ (k : SeriesKey) (firstOps secondOps : List (FastRingOp ℝ)) (now : UInt64)
        (firstSlow secondSlow older : List (Sample ℝ)) (newest : Sample ℝ),
      (run FastRing.step FastRing.new (firstOps ++ [.publish now])).snapshot.series k =
        some ⟨firstSlow, older ++ [newest]⟩ →
      (run FastRing.step FastRing.new (secondOps ++ [.publish now])).snapshot.series k =
        some ⟨secondSlow, older ++ [newest]⟩ →
      recentSamples newest.tsNs firstSlow = recentSamples newest.tsNs secondSlow →
      medianAndMad ⟨firstSlow, older ++ [newest]⟩ =
        medianAndMad ⟨secondSlow, older ++ [newest]⟩ := by
  intro window
  have same := window ⟨0, 0, 42⟩ ((staleReading 0).map (.push ⟨0, 0, 42⟩))
    ((staleReading 1).map (.push ⟨0, 0, 42⟩)) 5 _ _ (List.replicate 99 ⟨100000000000, 0⟩)
    ⟨100000000000, 0⟩ (series_staleReading 0) (series_staleReading 1)
    (by rw [recentSamples_filledTail, recentSamples_filledTail])
  exact filledTail_median (List.mem_cons_self) (by decide) _ same

end PerfWeave
