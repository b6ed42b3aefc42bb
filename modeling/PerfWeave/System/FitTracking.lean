/-
This file follows a clock fit from the agent's `OffsetHandle` to the collector's `SkewTable`.
The agent casts its signed 128-bit fields to words, the table reads the words back without a
sign, and a fit without a correction is not sent at all. The two sides agree on every fit that
is sent with nonnegative fields, and on no other; and the table follows the handle over a run
exactly as long as no fit that is not sent comes after one that corrects.
-/

import PerfWeave.System.ClockCorrection

namespace PerfWeave

variable {Value : Type}

/-! ### One fit over the wire -/

/-- The table maps the timestamps of a node's GPU 0 as a fit does. -/
def SkewTable.Follows (table : SkewTable) (nodeId : UInt32) (fit : ClockOffset) : Prop :=
  ∀ t, table.map nodeId 0 t = fit.map t

/-- The fields of a fit are 64-bit integers. -/
structure ClockOffset.Fits64 (fit : ClockOffset) : Prop where
  offset : |fit.offsetNs| < 2 ^ 63
  slopeNum : |fit.slopeNum| < 2 ^ 63
  slopeDen : fit.slopeDen < 2 ^ 63

/-- The offset and the slope of a fit are not negative. -/
def ClockOffset.Nonneg (fit : ClockOffset) : Prop := 0 ≤ fit.offsetNs ∧ 0 ≤ fit.slopeNum

/-- The entry the table makes of a fit that is sent. -/
structure SkewEntry.Carries (record : SkewEntry) (fit : ClockOffset) : Prop where
  offset : record.offsetNs = fit.offsetNs % 2 ^ 64
  slopeNum : record.slopeNum = fit.slopeNum % 2 ^ 64
  slopeDen : record.slopeDen = fit.slopeDen

/-- A fit that is sent arrives with its fields reduced to words. -/
theorem ofMessage_carries {fit : ClockOffset} {nodeId : UInt32} {message : ClockOffsetMessage}
    (sent : fit.latestProto nodeId = some message) (fits : fit.Fits64) (now : UInt64) :
    (SkewEntry.ofMessage now message).Carries fit := by
  have denPos := fit.slopeDenPos
  have denSmall := fits.slopeDen
  unfold ClockOffset.latestProto at sent
  split at sent
  · exact absurd sent (by simp)
  · rw [← Option.some.inj sent]
    refine ⟨toNat_truncateU64 _, toNat_truncateU64 _, ?_⟩
    show max ((truncateU64 fit.slopeDen).toNat : Int) 1 = fit.slopeDen
    rw [toNat_truncateU64_of_mem (by omega) (by omega)]
    omega

theorem upsert_latestProto_map {fit : ClockOffset} {nodeId : UInt32}
    {message : ClockOffsetMessage} (sent : fit.latestProto nodeId = some message)
    (table : SkewTable) (now t : UInt64) :
    (table.upsert now message).map nodeId 0 t = (SkewEntry.ofMessage now message).map t := by
  have held : (table.upsert now message).inner (nodeId, 0) =
      some (.ofMessage now message) := by
    rw [← latestProto_key sent]
    exact Function.update_self _ _ _
  rw [SkewTable.map, held]

/-- The product of a timestamp and a 64-bit slope leaves room for a 64-bit offset. -/
theorem slope_mul_le {slope : Int} (nonneg : 0 ≤ slope) (small : slope < 2 ^ 63) (t : UInt64) :
    0 ≤ slope * t.toNat ∧ slope * t.toNat ≤ (2 ^ 63 - 1) * (2 ^ 64 - 1) := by
  obtain ⟨tNonneg, tBelow⟩ := word_bounds t
  exact ⟨mul_nonneg nonneg tNonneg, mul_le_mul (by omega) (by omega) tNonneg (by norm_num)⟩

/-- On a nonnegative fit the mapping is the plain line, cut back to a word. -/
theorem ClockOffset.map_of_nonneg {fit : ClockOffset} (nonneg : fit.Nonneg) (fits : fit.Fits64)
    (t : UInt64) :
    fit.map t = truncateU64 (fit.offsetNs + fit.slopeNum * t.toNat / fit.slopeDen) := by
  have offsetSmall := (abs_lt.mp fits.offset).2
  have offsetNonneg := nonneg.1
  have product := slope_mul_le nonneg.2 (abs_lt.mp fits.slopeNum).2 t
  have quotientNonneg := Int.ediv_nonneg product.1 fit.slopeDenPos.le
  have quotientLe := Int.ediv_le_self fit.slopeDen product.1
  have wrapped : wrapI128 (fit.slopeNum * t.toNat) = fit.slopeNum * t.toNat :=
    wrapI128_of_mem (by omega) (by omega)
  unfold map
  simp only
  rw [wrapped, Int.tdiv_eq_ediv_of_nonneg product.1, wrapI128_of_mem (by omega) (by omega),
    max_eq_left (by omega)]

/-- The table's mapping of a product that does not saturate is the plain line as well. -/
theorem SkewEntry.map_of_small (record : SkewEntry) (t : UInt64)
    (small : record.slopeNum * t.toNat < 2 ^ 127)
    (inside : record.offsetNs + record.slopeNum * t.toNat / record.slopeDen < 2 ^ 127) :
    record.map t =
      truncateU64 (record.offsetNs + record.slopeNum * t.toNat / record.slopeDen) := by
  have product : 0 ≤ record.slopeNum * (t.toNat : Int) :=
    mul_nonneg record.slopeNumWord.1 (word_bounds t).1
  have quotientNonneg := Int.ediv_nonneg product record.slopeDenWord.1.le
  have offsetNonneg := record.offsetWord.1
  unfold map
  simp only
  rw [saturateI128_of_mem (by omega) small, Int.tdiv_eq_ediv_of_nonneg product,
    wrapI128_of_mem (by omega) inside, max_eq_left (by omega)]

/-- A nonnegative offset is read as it is. -/
theorem SkewEntry.Carries.offsetNs_of_nonneg {record : SkewEntry} {fit : ClockOffset}
    (carries : record.Carries fit) (fits : fit.Fits64) (nonneg : 0 ≤ fit.offsetNs) :
    record.offsetNs = fit.offsetNs := by
  have offsetSmall := (abs_lt.mp fits.offset).2
  rw [carries.offset, Int.emod_eq_of_lt nonneg (by omega)]

/-- The two sides map by a nonnegative fit alike. -/
theorem SkewEntry.Carries.map_eq {record : SkewEntry} {fit : ClockOffset}
    (carries : record.Carries fit) (fits : fit.Fits64) (nonneg : fit.Nonneg) (t : UInt64) :
    record.map t = fit.map t := by
  have offsetSmall := (abs_lt.mp fits.offset).2
  have slopeSmall := (abs_lt.mp fits.slopeNum).2
  have product := slope_mul_le nonneg.2 slopeSmall t
  have quotientLe := Int.ediv_le_self fit.slopeDen product.1
  have offset := carries.offsetNs_of_nonneg fits nonneg.1
  have slope : record.slopeNum = fit.slopeNum := by
    rw [carries.slopeNum, Int.emod_eq_of_lt nonneg.2 (by omega)]
  rw [fit.map_of_nonneg nonneg fits, record.map_of_small, offset, slope, carries.slopeDen]
  · rw [slope]
    omega
  · rw [offset, slope, carries.slopeDen]
    omega

/-- At time zero a negative offset is clamped by the agent and read as a large one by the
table. -/
theorem SkewEntry.Carries.map_zero_ne {record : SkewEntry} {fit : ClockOffset}
    (carries : record.Carries fit) (fits : fit.Fits64) (negative : fit.offsetNs < 0) :
    record.map 0 ≠ fit.map 0 := by
  have offsetLarge := (abs_lt.mp fits.offset).1
  have offset := carries.offset
  have offsetWord := record.offsetWord
  have wrapped : wrapI128 0 = 0 := wrapI128_of_mem (by norm_num) (by norm_num)
  have agent : fit.map 0 = 0 := by
    show truncateU64 (max (wrapI128 (fit.offsetNs +
      (wrapI128 (fit.slopeNum * 0)).tdiv fit.slopeDen)) 0) = 0
    rw [mul_zero, wrapped, Int.zero_tdiv, add_zero, wrapI128_of_mem (by omega) (by omega),
      max_eq_right negative.le]
    rfl
  have table : record.map 0 = truncateU64 record.offsetNs := by
    have line := record.map_of_small 0
      (by rw [UInt64.toNat_zero, Nat.cast_zero, mul_zero]; norm_num)
      (by rw [UInt64.toNat_zero, Nat.cast_zero, mul_zero, Int.zero_ediv, add_zero]; omega)
    rwa [UInt64.toNat_zero, Nat.cast_zero, mul_zero, Int.zero_ediv, add_zero] at line
  rw [agent, table, ne_eq, truncateU64_eq_iff]
  show ¬ record.offsetNs % 2 ^ 64 = 0
  omega

/-- Where the agent's product stays inside 128 bits, a falling line is at most its offset. -/
theorem ClockOffset.map_of_falling {fit : ClockOffset} (fits : fit.Fits64)
    (offsetNonneg : 0 ≤ fit.offsetNs) (falling : fit.slopeNum < 0) (t : UInt64) :
    fit.map t = truncateU64 (max (fit.offsetNs - -fit.slopeNum * t.toNat / fit.slopeDen) 0) := by
  have offsetSmall := (abs_lt.mp fits.offset).2
  have slopeLarge := (abs_lt.mp fits.slopeNum).1
  have product := @slope_mul_le (-fit.slopeNum) (by omega) (by omega) t
  have quotientNonneg := Int.ediv_nonneg product.1 fit.slopeDenPos.le
  have quotientLe := Int.ediv_le_self fit.slopeDen product.1
  have wrapped : wrapI128 (fit.slopeNum * t.toNat) = -(-fit.slopeNum * t.toNat) := by
    rw [neg_mul, neg_neg]
    rw [neg_mul] at product
    exact wrapI128_of_mem (by omega) (by omega)
  unfold map
  simp only
  rw [wrapped, Int.neg_tdiv, Int.tdiv_eq_ediv_of_nonneg product.1, ← sub_eq_add_neg,
    wrapI128_of_mem (by omega) (by omega)]

/-- A negative slope is read as a large one by the table. -/
theorem SkewEntry.Carries.slopeNum_of_falling {record : SkewEntry} {fit : ClockOffset}
    (carries : record.Carries fit) (fits : fit.Fits64) (falling : fit.slopeNum < 0) :
    record.slopeNum = fit.slopeNum + 2 ^ 64 := by
  have slopeLarge := (abs_lt.mp fits.slopeNum).1
  rw [carries.slopeNum]
  omega

/-- A falling line of whole nanoseconds and the table's reading of it part where the line reaches
zero. -/
theorem SkewEntry.Carries.exists_map_ne_of_slopeDen_one {record : SkewEntry} {fit : ClockOffset}
    (carries : record.Carries fit) (fits : fit.Fits64) (offsetNonneg : 0 ≤ fit.offsetNs)
    (falling : fit.slopeNum < 0) (den : fit.slopeDen = 1) : ∃ t, record.map t ≠ fit.map t := by
  have offsetSmall := (abs_lt.mp fits.offset).2
  have slopeLarge := (abs_lt.mp fits.slopeNum).1
  have offset := carries.offsetNs_of_nonneg fits offsetNonneg
  have slope := carries.slopeNum_of_falling fits falling
  have steep : 0 < -fit.slopeNum := by omega
  have below := Int.mul_ediv_self_le (x := fit.offsetNs) steep.ne'
  have above := Int.lt_mul_ediv_self_add (x := fit.offsetNs) steep
  have crossingNonneg := Int.ediv_nonneg offsetNonneg steep.le
  have crossingLe := Int.ediv_le_self (-fit.slopeNum) offsetNonneg
  have crossing : ((truncateU64 (fit.offsetNs / -fit.slopeNum + 1)).toNat : Int) =
      fit.offsetNs / -fit.slopeNum + 1 := toNat_truncateU64_of_mem (by omega) (by omega)
  generalize truncateU64 (fit.offsetNs / -fit.slopeNum + 1) = t at crossing
  have product : -fit.slopeNum * t.toNat =
      -fit.slopeNum * (fit.offsetNs / -fit.slopeNum) + -fit.slopeNum := by
    rw [crossing, mul_add, mul_one]
  have read : (fit.slopeNum + 2 ^ 64) * (t.toNat : Int) =
      2 ^ 64 * t.toNat - -fit.slopeNum * t.toNat := by ring
  have recordMap := record.map_of_small t (by rw [slope, read]; omega)
    (by rw [offset, slope, carries.slopeDen, den, Int.ediv_one, read]; omega)
  rw [offset, slope, carries.slopeDen, den, Int.ediv_one, read] at recordMap
  have agentMap := fit.map_of_falling fits offsetNonneg falling t
  rw [den, Int.ediv_one, max_eq_right (by omega)] at agentMap
  refine ⟨t, fun same => ?_⟩
  rw [recordMap, agentMap, truncateU64_eq_iff] at same
  change _ = (0 : Int) at same
  omega

/-- Any other falling line and the table's reading of it part at time one. -/
theorem SkewEntry.Carries.map_one_ne {record : SkewEntry} {fit : ClockOffset}
    (carries : record.Carries fit) (fits : fit.Fits64) (offsetNonneg : 0 ≤ fit.offsetNs)
    (falling : fit.slopeNum < 0) (two : 2 ≤ fit.slopeDen) : record.map 1 ≠ fit.map 1 := by
  have offsetSmall := (abs_lt.mp fits.offset).2
  have slopeLarge := (abs_lt.mp fits.slopeNum).1
  have denSmall := fits.slopeDen
  have offset := carries.offsetNs_of_nonneg fits offsetNonneg
  have slope := carries.slopeNum_of_falling fits falling
  have moved : 1 ≤ record.slopeNum / record.slopeDen := by
    rw [slope, carries.slopeDen]
    exact Int.le_ediv_of_mul_le fit.slopeDenPos (by omega)
  have movedLittle : record.slopeNum / record.slopeDen < 2 ^ 63 := by
    rw [slope, carries.slopeDen]
    exact Int.ediv_lt_of_lt_mul fit.slopeDenPos (by omega)
  have fallen := Int.ediv_nonneg (a := -fit.slopeNum) (by omega) fit.slopeDenPos.le
  have slopeWord := record.slopeNumWord.2
  have recordMap := record.map_of_small 1
  have agentMap := fit.map_of_falling fits offsetNonneg falling 1
  rw [UInt64.toNat_one, Nat.cast_one, mul_one] at recordMap agentMap
  intro same
  rw [recordMap (by omega) (by omega), agentMap, truncateU64_eq_iff, toNat_truncateU64] at same
  omega

/-- The table does not map as a falling fit does. -/
theorem SkewEntry.Carries.exists_map_ne {record : SkewEntry} {fit : ClockOffset}
    (carries : record.Carries fit) (fits : fit.Fits64) (offsetNonneg : 0 ≤ fit.offsetNs)
    (falling : fit.slopeNum < 0) : ∃ t, record.map t ≠ fit.map t := by
  rcases (Int.add_one_le_of_lt fit.slopeDenPos).eq_or_lt with one | more
  · exact carries.exists_map_ne_of_slopeDen_one fits offsetNonneg falling one.symm
  · exact ⟨1, carries.map_one_ne fits offsetNonneg falling more⟩

/-- A table that stores a nonnegative fit maps as the fit does. -/
theorem SkewTable.follows_upsert {fit : ClockOffset} {nodeId : UInt32}
    {message : ClockOffsetMessage} (sent : fit.latestProto nodeId = some message)
    (fits : fit.Fits64) (nonneg : fit.Nonneg) (table : SkewTable) (now : UInt64) :
    (table.upsert now message).Follows nodeId fit := fun t => by
  rw [upsert_latestProto_map sent]
  exact (ofMessage_carries sent fits now).map_eq fits nonneg t

/-- After a fit with 64-bit fields is sent and stored, agent and collector map every timestamp
alike exactly when its offset and its slope are not negative. -/
theorem shippedFit_followed_iff (now : UInt64) (table : SkewTable) (nodeId : UInt32)
    (fit : ClockOffset) (message : ClockOffsetMessage)
    (sent : fit.latestProto nodeId = some message) (fits : fit.Fits64) :
    (table.upsert now message).Follows nodeId fit ↔ fit.Nonneg := by
  refine ⟨fun follows => ?_, fun nonneg => SkewTable.follows_upsert sent fits nonneg table now⟩
  have carries := ofMessage_carries sent fits now
  have agrees : ∀ t, (SkewEntry.ofMessage now message).map t = fit.map t := fun t => by
    rw [← upsert_latestProto_map sent table, follows t]
  have offsetNonneg : 0 ≤ fit.offsetNs := by
    by_contra negative
    exact carries.map_zero_ne fits (not_le.mp negative) (agrees 0)
  refine ⟨offsetNonneg, ?_⟩
  by_contra falling
  obtain ⟨t, parts⟩ := carries.exists_map_ne fits offsetNonneg (not_le.mp falling)
  exact parts (agrees t)

/-- A clock a second behind the host's is followed. -/
theorem aheadFit_followed :
    (SkewTable.new.upsert 0 ⟨3, 0, 1000000000, 1, 1, 0⟩).Follows 3
      { ClockOffset.identity with offsetNs := 1000000000 } :=
  (shippedFit_followed_iff 0 .new 3 { ClockOffset.identity with offsetNs := 1000000000 } _
    (by decide) ⟨by decide, by decide, by decide⟩).mpr ⟨by decide, by decide⟩

/-- A clock one nanosecond ahead of the host's is not: at time zero the table answers
`2 ^ 64 - 1`. -/
theorem behindFit_not_followed :
    ¬ ∀ (now : UInt64) (table : SkewTable) (nodeId : UInt32) (fit : ClockOffset)
      (message : ClockOffsetMessage), fit.latestProto nodeId = some message → fit.Fits64 →
        (table.upsert now message).Follows nodeId fit := by
  intro follows
  have atZero := follows 0 .new 0 { ClockOffset.identity with offsetNs := -1 }
    ⟨0, 0, 18446744073709551615, 1, 1, 0⟩ (by decide) ⟨by decide, by decide, by decide⟩ 0
  exact absurd atZero (by decide)

/-! ### The handle and the table over a run -/

/-- A batch under way, with the fit that was current when it was built. -/
structure BuiltBatch (Value : Type) where
  fit : ClockOffset
  batch : Batch Value

/-- The agent's handle, the batches under way, oldest first, and the collector's state. The
last two fields are ghosts: the fit of the batch processed last, and the fit that reached the
table last. -/
structure FitTracking (Value : Type) where
  handle : ClockOffset
  wire : List (BuiltBatch Value)
  skew : SkewTable
  fast : FastRing Value
  processed : Option ClockOffset
  reached : Option ClockOffset

/-- What can happen: the clock task sets a fit, a flush builds a batch, the collector processes
the oldest batch under way. -/
inductive FitInput (Value : Type) where
  | set (c : ClockOffset)
  | build (interner : Interner) (events : List (Event Value))
      (metricFrames : List (MetricFrame Value))
  | process (clock : Nat → UInt64)

namespace FitTracking

/-- An agent that starts on a fit and a collector that knows nothing. -/
def start (fit : ClockOffset) : FitTracking Value where
  handle := fit
  wire := []
  skew := .new
  fast := .new
  processed := none
  reached := none

/-- One input. -/
def step [Zero Value] (hash : String → UInt64) (cfg : UploaderConfig)
    (state : FitTracking Value) : FitInput Value → FitTracking Value
  | .set c => { state with handle := c }
  | .build interner events metricFrames =>
    let (batch, _) := buildBatch hash cfg state.handle interner events metricFrames
    { state with wire := state.wire ++ [⟨state.handle, batch⟩] }
  | .process clock =>
    match state.wire with
    | [] => state
    | built :: rest =>
      let ingested := ingestBatch clock state.skew state.fast built.batch
      { state with
        wire := rest
        skew := ingested.skew
        fast := ingested.fast
        processed := some built.fit
        reached := if built.batch.offsets.isEmpty then state.reached else some built.fit }

/-- The table follows the fit of the batch processed last. -/
def Tracks (nodeId : UInt32) (state : FitTracking Value) : Prop :=
  ∀ fit, state.processed = some fit → state.skew.Follows nodeId fit

end FitTracking

/-- A fit that maps nothing: the identity, whatever its residual. -/
def ClockOffset.CorrectsNothing (fit : ClockOffset) : Prop :=
  fit.offsetNs = 0 ∧ fit.slopeNum = fit.slopeDen

/-- The step leaves the table behind only when it processes a batch whose fit was not worth
sending after a fit that corrects. -/
def FitTracking.StaysCurrent (state : FitTracking Value) : FitInput Value → Prop
  | .process _ => ∀ built rest, state.wire = built :: rest →
      built.fit.CorrectsNothing ∧ built.fit.residualMaxNs = 0 →
        ∀ fit, state.reached = some fit → fit.CorrectsNothing
  | .set _ => True
  | .build _ _ _ => True

/-- A fit with nonnegative 64-bit fields. -/
structure ClockOffset.Tame (fit : ClockOffset) : Prop where
  fits : fit.Fits64
  nonneg : fit.Nonneg

theorem ClockOffset.identity_tame : ClockOffset.identity.Tame :=
  ⟨⟨by decide, by decide, by decide⟩, by decide, by decide⟩

/-- An input sets only tame fits. -/
def FitInput.SetsTame : FitInput Value → Prop
  | .set c => c.Tame
  | .build _ _ _ => True
  | .process _ => True

theorem latestProto_eq_none_iff {fit : ClockOffset} {nodeId : UInt32} :
    fit.latestProto nodeId = none ↔ fit.CorrectsNothing ∧ fit.residualMaxNs = 0 := by
  unfold ClockOffset.latestProto ClockOffset.CorrectsNothing
  rw [ite_eq_left_iff, and_assoc]
  simp only [reduceCtorEq, imp_false, not_not]

/-- A slope that leaves the last word where it is, after the cut to 64 bits, is one. -/
theorem slopeNum_eq_of_fixes_last {num den : Int} (numNonneg : 0 ≤ num) (numSmall : num < 2 ^ 63)
    (denPos : 0 < den)
    (fixed : num * (2 ^ 64 - 1) / den % 2 ^ 64 = 2 ^ 64 - 1) : num = den := by
  have quotientNonneg := Int.ediv_nonneg (a := num * (2 ^ 64 - 1)) (by omega) denPos.le
  have below := Int.mul_ediv_self_le (x := num * (2 ^ 64 - 1)) denPos.ne'
  have above := Int.lt_mul_ediv_self_add (x := num * (2 ^ 64 - 1)) denPos
  generalize num * (2 ^ 64 - 1) / den = quotient at fixed quotientNonneg below above
  have turns : quotient = (quotient / 2 ^ 64 + 1) * 2 ^ 64 - 1 := by omega
  have expanded : den * quotient = den * (quotient / 2 ^ 64 + 1) * 2 ^ 64 - den := by
    calc den * quotient = den * ((quotient / 2 ^ 64 + 1) * 2 ^ 64 - 1) :=
          congrArg (den * ·) turns
      _ = den * (quotient / 2 ^ 64 + 1) * 2 ^ 64 - den := by ring
  have denLe : den ≤ den * (quotient / 2 ^ 64 + 1) :=
    le_mul_of_one_le_right denPos.le (by omega)
  omega

/-- A tame fit maps every timestamp to itself exactly when it corrects nothing. -/
theorem ClockOffset.Tame.map_eq_self_iff {fit : ClockOffset} (tame : fit.Tame) :
    (∀ t, fit.map t = t) ↔ fit.CorrectsNothing := by
  obtain ⟨fits, nonneg⟩ := tame
  have offsetSmall := (abs_lt.mp fits.offset).2
  have slopeSmall := (abs_lt.mp fits.slopeNum).2
  have denPos := fit.slopeDenPos
  simp only [fit.map_of_nonneg nonneg fits, truncateU64_eq_iff]
  constructor
  · intro fixed
    have atZero : fit.offsetNs = 0 := by
      have zero := fixed 0
      rw [UInt64.toNat_zero, Nat.cast_zero, mul_zero, Int.zero_ediv, add_zero] at zero
      have offsetNonneg := nonneg.1
      omega
    refine ⟨atZero, ?_⟩
    have atLast := fixed 18446744073709551615
    rw [atZero, zero_add] at atLast
    exact slopeNum_eq_of_fixes_last nonneg.2 slopeSmall denPos atLast
  · rintro ⟨offset, slope⟩ t
    rw [offset, slope, zero_add, Int.mul_ediv_cancel_left _ denPos.ne']
    have bounds := word_bounds t
    exact Int.emod_eq_of_lt bounds.1 bounds.2

/-! ### The table stays with the fit that reached it -/

/-- The fits in the system are tame, every batch under way carries its fit when that is sent,
and the table follows the fit that reached it last. -/
structure FitTracking.Sound (nodeId : UInt32) (state : FitTracking Value) : Prop where
  handle : state.handle.Tame
  wire : ∀ built ∈ state.wire, built.fit.Tame ∧
    built.batch.offsets = (built.fit.latestProto nodeId).toList
  reached : (state.reached.getD .identity).Tame
  table : state.skew.Follows nodeId (state.reached.getD .identity)

namespace FitTracking

variable [Zero Value] {hash : String → UInt64} {cfg : UploaderConfig} {state : FitTracking Value}

omit [Zero Value] in
theorem start_sound {fit : ClockOffset} (tame : fit.Tame) (nodeId : UInt32) :
    (start fit : FitTracking Value).Sound nodeId :=
  ⟨tame, fun _ member => absurd member List.not_mem_nil, ClockOffset.identity_tame,
    fun t => (ClockOffset.identity_tame.map_eq_self_iff.mpr ⟨rfl, rfl⟩ t).symm⟩

/-- What processing the oldest batch does to the table: a fit that is sent replaces the old
one, and one that is not leaves it. -/
theorem Sound.process {built : BuiltBatch Value} {rest : List (BuiltBatch Value)}
    (sound : state.Sound cfg.nodeId) (oldest : state.wire = built :: rest)
    (clock : Nat → UInt64) :
    let next := state.step hash cfg (.process clock)
    next.handle = state.handle ∧ next.wire = rest ∧ next.processed = some built.fit ∧
      ((∃ message, built.fit.latestProto cfg.nodeId = some message ∧
          next.reached = some built.fit ∧ next.skew.Follows cfg.nodeId built.fit) ∨
        (built.fit.latestProto cfg.nodeId = none ∧ next.reached = state.reached ∧
          next.skew = state.skew)) := by
  obtain ⟨tame, offsets⟩ := sound.wire built (oldest ▸ List.mem_cons_self)
  unfold step
  simp only [oldest, true_and]
  cases sent : built.fit.latestProto cfg.nodeId with
  | none =>
    rw [sent] at offsets
    refine .inr ⟨rfl, ?_, ?_⟩
    · rw [offsets]
      rfl
    · rw [ingestBatch, offsets]
      rfl
  | some message =>
    rw [sent] at offsets
    refine .inl ⟨message, rfl, ?_, ?_⟩
    · rw [offsets]
      rfl
    · rw [ingestBatch, offsets]
      exact SkewTable.follows_upsert sent tame.fits tame.nonneg state.skew (clock 0)

theorem Sound.step (sound : state.Sound cfg.nodeId) (input : FitInput Value)
    (setsTame : input.SetsTame) : (state.step hash cfg input).Sound cfg.nodeId := by
  cases input with
  | set c => exact ⟨setsTame, sound.wire, sound.reached, sound.table⟩
  | build interner events metricFrames =>
    refine ⟨sound.handle, fun built member => ?_, sound.reached, sound.table⟩
    rcases List.mem_append.mp member with before | now
    · exact sound.wire built before
    · rw [List.mem_singleton.mp now]
      exact ⟨sound.handle, rfl⟩
  | process clock =>
    cases oldest : state.wire with
    | nil =>
      unfold FitTracking.step
      simp only [oldest]
      exact sound
    | cons built rest =>
      obtain ⟨handle, wire, _, ⟨message, _, reached, follows⟩ | ⟨_, reached, skew⟩⟩ :=
        @sound.process _ _ hash _ _ _ _ oldest clock
      · have tame := (sound.wire built (oldest ▸ List.mem_cons_self)).1
        refine ⟨handle ▸ sound.handle, fun other member => ?_, ?_, ?_⟩
        · rw [wire] at member
          exact sound.wire other (oldest ▸ List.mem_cons_of_mem _ member)
        · rw [reached]
          exact tame
        · rw [reached]
          exact follows
      · refine ⟨handle ▸ sound.handle, fun other member => ?_, ?_, ?_⟩
        · rw [wire] at member
          exact sound.wire other (oldest ▸ List.mem_cons_of_mem _ member)
        · rw [reached]
          exact sound.reached
        · rw [reached, skew]
          exact sound.table

/-- A table that follows one tame fit follows a fit that corrects nothing exactly when the
first one corrects nothing either. -/
theorem follows_iff_of_correctsNothing {table : SkewTable} {nodeId : UInt32}
    {held fit : ClockOffset} (follows : table.Follows nodeId held) (heldTame : held.Tame)
    (tame : fit.Tame) (nothing : fit.CorrectsNothing) :
    table.Follows nodeId fit ↔ held.CorrectsNothing := by
  rw [← heldTame.map_eq_self_iff]
  refine forall_congr' fun t => ?_
  rw [follows t, tame.map_eq_self_iff.mpr nothing t]

/-- A step leaves the table with the fit processed last exactly when it stays current. -/
theorem Sound.tracks_step_iff (sound : state.Sound cfg.nodeId)
    (tracks : state.Tracks cfg.nodeId) (input : FitInput Value) :
    (state.step hash cfg input).Tracks cfg.nodeId ↔ state.StaysCurrent input := by
  cases input with
  | set c => exact ⟨fun _ => trivial, fun _ => tracks⟩
  | build interner events metricFrames => exact ⟨fun _ => trivial, fun _ => tracks⟩
  | process clock =>
    unfold StaysCurrent
    cases oldest : state.wire with
    | nil =>
      unfold FitTracking.step
      simp only [oldest]
      exact ⟨fun _ _ _ empty => absurd empty (by simp), fun _ => tracks⟩
    | cons built rest =>
      have tame := (sound.wire built (oldest ▸ List.mem_cons_self)).1
      obtain ⟨_, _, processed, ⟨message, sent, _, follows⟩ | ⟨unsent, _, skew⟩⟩ :=
        @sound.process _ _ hash _ _ _ _ oldest clock
      · refine ⟨fun _ other _ same nothing => ?_, fun _ fit isFit => ?_⟩
        · rw [← (List.cons.inj same).1, ← @latestProto_eq_none_iff _ cfg.nodeId,
            sent] at nothing
          exact absurd nothing (by simp)
        · rw [processed] at isFit
          exact Option.some.inj isFit ▸ follows
      · have nothing := latestProto_eq_none_iff.mp unsent
        have after : (state.step hash cfg (.process clock)).Tracks cfg.nodeId ↔
            state.skew.Follows cfg.nodeId built.fit := by
          unfold Tracks
          rw [processed, skew]
          exact ⟨fun all => all _ rfl, fun follows fit isFit => Option.some.inj isFit ▸ follows⟩
        rw [after, follows_iff_of_correctsNothing sound.table sound.reached tame nothing.1]
        constructor
        · intro held other _ _ _ fit isFit
          rw [isFit] at held
          exact held
        · intro stays
          cases isFit : state.reached with
          | none => exact ⟨rfl, rfl⟩
          | some fit => exact stays built rest rfl nothing fit isFit

end FitTracking

/-- Over any run on tame fits, the table follows the fit of every batch it has just processed
exactly as long as no batch whose fit is not sent is processed after a fit that corrects. -/
theorem table_tracks_handle_iff [Zero Value] (hash : String → UInt64) (cfg : UploaderConfig)
    (fit : ClockOffset) (tame : fit.Tame) (inputs : List (FitInput Value))
    (setsTame : ∀ input ∈ inputs, input.SetsTame) :
    (∀ before, before <+: inputs →
        (run (FitTracking.step hash cfg) (.start fit) before).Tracks cfg.nodeId) ↔
      ∀ before input, before ++ [input] <+: inputs →
        (run (FitTracking.step hash cfg) (.start fit) before).StaysCurrent input :=
  run_always_iff (FitTracking.start_sound tame cfg.nodeId) (fun _ none => absurd none nofun)
    (fun _ input setsTame sound => sound.step input setsTame)
    (fun _ input _ sound tracks => sound.tracks_step_iff tracks input) inputs setsTame

/-- A batch under the identity, a fit that corrects, and a batch under it. -/
def correctingInputs : List (FitInput Nat) :=
  [.build .new [] [], .process fun _ => 0, .set microsecondFit, .build .new [] [],
    .process fun _ => 0]

theorem microsecondFit_tame : microsecondFit.Tame :=
  ⟨⟨by decide, by decide, by decide⟩, by decide, by decide⟩

theorem correctingInputs_setTame : ∀ input ∈ correctingInputs, input.SetsTame := by
  unfold correctingInputs
  simp only [List.forall_mem_cons]
  exact ⟨trivial, trivial, microsecondFit_tame, trivial, trivial, List.forall_mem_nil _⟩

/-- The table takes the fit up. -/
theorem correctingInputs_tracked :
    (run (FitTracking.step (fun _ => 0) defaultUploader) (.start .identity)
      correctingInputs).Tracks 0 := by
  refine (table_tracks_handle_iff (fun _ => 0) defaultUploader .identity
    ClockOffset.identity_tame correctingInputs correctingInputs_setTame).mpr ?_ _ List.prefix_rfl
  unfold correctingInputs
  simp only [forall_step_cons_iff]
  refine ⟨trivial, ?_, trivial, trivial, ?_, forall_step_nil⟩
  · exact fun _ _ _ _ _ none => absurd none nofun
  · rintro built rest same ⟨⟨offset, _⟩, _⟩
    rw [← (List.cons.inj same).1] at offset
    exact absurd offset (by decide)

/-- Going back to the identity does not reach the table: it still adds the microsecond. -/
theorem identity_after_fit_not_tracked :
    ¬ ∀ inputs : List (FitInput Nat), (∀ input ∈ inputs, input.SetsTame) →
      (run (FitTracking.step (fun _ => 0) defaultUploader) (.start .identity) inputs).Tracks 0 := by
  intro tracks
  have atZero := tracks (correctingInputs ++
    [.set .identity, .build .new [] [], .process fun _ => 0]) (by
      rw [List.forall_mem_append]
      exact ⟨correctingInputs_setTame, by
        simp only [List.forall_mem_cons]
        exact ⟨ClockOffset.identity_tame, trivial, trivial, List.forall_mem_nil _⟩⟩)
    .identity rfl 0
  exact absurd atZero (by decide)

end PerfWeave
