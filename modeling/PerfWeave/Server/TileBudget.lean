/-
This file bounds the answers of the activity query. The picker takes a width of at least one
pixel's share of the range, so a lane gets about one bar for each pixel: at most one more for
every thousand pixels, where the share is rounded down, and one for the ends of the range. That
holds as long as some width is that wide; beyond it the widest one is finer than a pixel. It holds
for whatever views there are, as they write no bucket of a width but at its multiples.
-/

import PerfWeave.Server.TileCoverage
import PerfWeave.Server.TileStore

namespace PerfWeave

variable {Value : Type}

/-! ### Counting buckets -/

/-- A quotient rounded up covers its numerator. -/
theorem le_roundedUp_mul {width : Nat} (positive : 0 < width) (length : Nat) :
    length ≤ (length + width - 1) / width * width := by
  have whole := Nat.lt_div_mul_add positive (a := length + width - 1)
  omega

theorem roundedUp_sub_le {width : Nat} (positive : 0 < width) (first last : Nat) :
    (last + width - 1) / width - (first + width - 1) / width ≤
      (last - first + width - 1) / width := by
  have before := le_roundedUp_mul positive first
  have between := le_roundedUp_mul positive (last - first)
  rw [Nat.sub_le_iff_le_add]
  refine Nat.lt_succ_iff.mp ((Nat.div_lt_iff_lt_mul positive).mpr ?_)
  rw [Nat.succ_mul, Nat.add_mul]
  omega

/-- The multiples of a width in a half-open range. -/
theorem length_multiples_le {width first last : Nat} (positive : 0 < width) {starts : List Nat}
    (distinct : starts.Nodup) (multiples : ∀ start ∈ starts, width ∣ start)
    (inRange : ∀ start ∈ starts, first ≤ start ∧ start < last) :
    starts.length ≤ (last - first + width - 1) / width := by
  have numbers : ∀ start ∈ starts,
      start / width ∈ Finset.Ico ((first + width - 1) / width) ((last + width - 1) / width) := by
    intro start member
    obtain ⟨number, rfl⟩ := multiples start member
    obtain ⟨fromFirst, beforeLast⟩ := inRange _ member
    rw [Nat.mul_div_cancel_left number positive, Finset.mem_Ico]
    refine ⟨Nat.lt_succ_iff.mp ((Nat.div_lt_iff_lt_mul positive).mpr ?_),
      (Nat.lt_div_iff_mul_lt positive).mpr ?_⟩
    · rw [Nat.succ_mul, Nat.mul_comm number]
      omega
    · rw [Nat.mul_comm number]
      omega
  have injective : Set.InjOn (· / width) (starts.toFinset : Set Nat) := by
    intro start isStart other isOther same
    rw [← Nat.div_mul_cancel (multiples start (List.mem_toFinset.mp isStart)),
      ← Nat.div_mul_cancel (multiples other (List.mem_toFinset.mp isOther))]
    exact congrArg (· * width) same
  calc starts.length
      = starts.toFinset.card := (List.toFinset_card_of_nodup distinct).symm
    _ ≤ (Finset.Ico ((first + width - 1) / width) ((last + width - 1) / width)).card :=
        Finset.card_le_card_of_injOn (· / width)
          (fun start member => numbers start (List.mem_toFinset.mp member)) injective
    _ = (last + width - 1) / width - (first + width - 1) / width := Nat.card_Ico _ _
    _ ≤ (last - first + width - 1) / width := roundedUp_sub_le positive first last

/-! ### The width of a query -/

/-- Where some width is as wide as a pixel's share, so is the one picked. -/
theorem share_le_activityWidth {startNs endNs : UInt64} {pixels : UInt32} (drawn : pixels ≠ 0)
    (fits : (endNs - startNs) / pixels.toUInt64 ≤ 2097152000) :
    (endNs - startNs) / pixels.toUInt64 ≤ activityWidth startNs endNs pixels := by
  have found : (tileWidthsNs.find? fun width =>
      (endNs - startNs) / pixels.toUInt64 ≤ width).isSome :=
    List.find?_isSome.mpr ⟨2097152000, by decide, decide_eq_true fits⟩
  obtain ⟨width, picked⟩ := Option.isSome_iff_exists.mp found
  have isWidth : activityWidth startNs endNs pixels = width := by
    unfold activityWidth chooseTile
    rw [if_neg drawn]
    show ((tileWidthsNs.find? fun width => (endNs - startNs) / pixels.toUInt64 ≤ width).or _).getD
      _ = width
    rw [picked]
    rfl
  rw [isWidth]
  have wide := List.find?_some picked
  exact of_decide_eq_true wide

theorem le_of_mem_tileWidthsNs : ∀ width ∈ tileWidthsNs, 1000 ≤ width := by
  simp [tileWidthsNs]

/-! ### The rows of a lane -/

theorem nodup_serveActivity (startNs endNs : UInt64) (pixels : UInt32)
    (selected : UInt8 → Int8 → Bool) (tiles : List ActivityTile) :
    ((serveActivity startNs endNs pixels (onTile selected) tiles).map
      ActivityTileRow.group).Nodup := by
  rw [serveActivity_eq, List.map_map]
  exact (List.nodup_dedup _).map fun _ _ same => same

/-- The buckets a view writes with a width are multiples of it. -/
theorem dvd_bucketStart {view : TileView} {widthNs : UInt64} (width : view.writtenWidth = widthNs)
    (nonzero : widthNs ≠ 0) (event : EventRow Value) :
    widthNs.toNat ∣ (view.insert event).bucketStartNs.toNat := by
  have aliased : .bucketWidthNs ∈ view.aliased := by
    by_contra none
    rw [TileView.writtenWidth, if_neg none] at width
    exact nonzero width.symm
  rw [TileView.writtenWidth, if_pos aliased] at width
  show widthNs.toNat ∣ (if .bucketStartNs ∈ view.aliased then
    event.tsNs / view.widthNs * view.widthNs else 0).toNat
  split
  · rw [toNat_bucketStart, width]
    exact Nat.dvd_mul_left _ _
  · exact Nat.dvd_zero _

/-- Where some width is as wide as a pixel's share of the range, the answer of a query holds for
each GPU and category at most one row a pixel, one more for every thousand pixels, and one more. -/
theorem served_rows_le (views : List TileView) (inputs : List (TileInput Value))
    (startNs endNs : UInt64) (pixels : UInt32) (selected : UInt8 → Int8 → Bool)
    (drawn : pixels ≠ 0) (fits : (endNs - startNs) / pixels.toUInt64 ≤ 2097152000)
    (gpuId : UInt8) (category : Int8) :
    ((serveActivity startNs endNs pixels (onTile selected) (tilesAfter views inputs)).filter
      fun row => row.gpuId = gpuId ∧ row.category = category).length ≤
        pixels.toNat + pixels.toNat / 1000 + 1 := by
  have wide := share_le_activityWidth drawn fits
  have isWidth := activityWidth_mem_tileWidthsNs startNs endNs pixels
  have nonzero := activityWidth_ne_zero startNs endNs pixels
  set widthNs := activityWidth startNs endNs pixels with width
  have thousand : 1000 ≤ widthNs.toNat := UInt64.le_iff_toNat_le.mp
    (le_of_mem_tileWidthsNs widthNs isWidth)
  have fromEvents := serveActivity_tilesAfter views inputs startNs endNs pixels selected
  set rows := (serveActivity startNs endNs pixels (onTile selected)
    (tilesAfter views inputs)).filter fun row => row.gpuId = gpuId ∧ row.category = category
    with rowsEq
  -- every row of the lane is a bucket of the picked width inside the window
  have ofEvent : ∀ row ∈ rows, row.gpuId = gpuId ∧ row.category = category ∧
      row.bucketWidthNs = widthNs ∧ widthNs.toNat ∣ row.bucketStartNs.toNat ∧
        startNs.toNat ≤ row.bucketStartNs.toNat ∧ row.bucketStartNs.toNat < endNs.toNat := by
    intro row member
    obtain ⟨isRow, lane⟩ := List.mem_filter.mp member
    obtain ⟨onGpu, inCategory⟩ := of_decide_eq_true lane
    obtain ⟨view, -, event, -, shows, same⟩ := (mem_serveActivity_iff views _ startNs endNs pixels
      selected row.group).mp ⟨row, fromEvents.mem_iff.mp isRow, rfl⟩
    obtain ⟨sameStart, -, -, sameWidth⟩ := (groups_eq_iff row view event).mp same
    refine ⟨onGpu, inCategory, sameWidth.symm.trans shows.width, ?_, ?_, ?_⟩
    · rw [← sameStart]
      exact dvd_bucketStart shows.width nonzero event
    · rw [← sameStart]
      exact UInt64.le_iff_toNat_le.mp shows.inWindow.1
    · rw [← sameStart]
      exact UInt64.lt_iff_toNat_lt.mp shows.inWindow.2
  have distinct : (rows.map fun row => row.bucketStartNs.toNat).Nodup := by
    have groups : (rows.map ActivityTileRow.group).Nodup :=
      (nodup_serveActivity startNs endNs pixels selected _).sublist
        (List.Sublist.map _ List.filter_sublist)
    refine (List.nodup_map_iff_inj_on (List.Nodup.of_map _ groups)).mpr
      fun row member other isOther same => ?_
    obtain ⟨onGpu, inCategory, width, -⟩ := ofEvent row member
    obtain ⟨otherGpu, otherCategory, otherWidth, -⟩ := ofEvent other isOther
    refine List.inj_on_of_nodup_map groups member isOther ?_
    unfold ActivityTileRow.group
    rw [UInt64.toNat_inj.mp same, onGpu, inCategory, width, otherGpu, otherCategory, otherWidth]
  have counted :
      rows.length ≤ (endNs.toNat - startNs.toNat + widthNs.toNat - 1) / widthNs.toNat := by
    rw [← List.length_map fun row : ActivityTileRow => row.bucketStartNs.toNat]
    refine length_multiples_le (by omega) distinct (fun start member => ?_) fun start member => ?_
    · obtain ⟨row, isRow, rfl⟩ := List.mem_map.mp member
      exact (ofEvent row isRow).2.2.2.1
    · obtain ⟨row, isRow, rfl⟩ := List.mem_map.mp member
      exact (ofEvent row isRow).2.2.2.2
  refine counted.trans ?_
  by_cases ordered : startNs ≤ endNs
  · have range : (endNs - startNs).toNat = endNs.toNat - startNs.toNat :=
      UInt64.toNat_sub_of_le _ _ ordered
    have share : (endNs.toNat - startNs.toNat) / pixels.toNat ≤ widthNs.toNat := by
      have bound := UInt64.le_iff_toNat_le.mp wide
      rw [UInt64.toNat_div, range, UInt32.toNat_toUInt64] at bound
      exact bound
    have somePixels : 0 < pixels.toNat := Nat.pos_of_ne_zero fun none =>
      drawn (UInt32.toNat_inj.mp none)
    have below : endNs.toNat - startNs.toNat < (widthNs.toNat + 1) * pixels.toNat :=
      (Nat.div_lt_iff_lt_mul somePixels).mp (Nat.lt_succ_of_le share)
    calc (endNs.toNat - startNs.toNat + widthNs.toNat - 1) / widthNs.toNat
        ≤ (pixels.toNat + widthNs.toNat + widthNs.toNat * pixels.toNat) / widthNs.toNat := by
          refine Nat.div_le_div_right ?_
          rw [Nat.succ_mul] at below
          omega
      _ = pixels.toNat / widthNs.toNat + 1 + pixels.toNat := by
          rw [Nat.add_mul_div_left _ _ (by omega), Nat.add_div_right _ (by omega)]
      _ ≤ pixels.toNat + pixels.toNat / 1000 + 1 := by
          have fewer := Nat.div_le_div_left thousand (by decide : 0 < 1000) (a := pixels.toNat)
          omega
  · have empty : endNs.toNat - startNs.toNat = 0 :=
      Nat.sub_eq_zero_of_le (UInt64.le_iff_toNat_le.mp (UInt64.le_of_lt (UInt64.not_le.mp ordered)))
    rw [empty, Nat.zero_add, Nat.div_eq_of_lt (by omega)]
    exact Nat.zero_le _

/-- A millisecond on 1000 pixels, over views with and without aliases. -/
theorem served_rows_le_millisecond :
    ((serveActivity 0 1000000 1000 (onTile fun _ _ => true)
      (tilesAfter (microsecondView :: migratedViews)
        ([.insertEvents [kernelRowAt 5000, kernelRowAt 40000]] : List (TileInput Nat)))).filter
        fun row => row.gpuId = 0 ∧ row.category = 3).length ≤ 1002 :=
  served_rows_le (microsecondView :: migratedViews)
    [.insertEvents [kernelRowAt 5000, kernelRowAt 40000]] 0 1000000 1000 (fun _ _ => true)
    (by decide) (by decide) 0 3

end PerfWeave
