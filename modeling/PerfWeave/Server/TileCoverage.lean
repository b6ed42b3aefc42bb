/-
This file settles how the level-of-detail picker and the surviving views agree: not at all. After
the migrations only the 32 ms and the 2 s views are left, without an alias in their `SELECT` lists,
so all that they write are rows of width zero; the picker chooses among the eight widths of the
pyramid. No activity query is ever answered, whatever is stored.

It also settles which buckets of a width the query would select, were they written as the views
compute them: those that start in its window. So it selects no bucket apart from the window, and
every bucket of an event in the window exactly when the window starts with a bucket.
-/

import PerfWeave.Server.TileStore

namespace PerfWeave

variable {Value : Type}

/-! ### The views that survive -/

/-- The 32 ms and the 2 s views survive the migrations. -/
theorem viewWidths_migratedViews : viewWidths migratedViews = [32768000, 2097152000] := by
  decide

/-- They write no width. -/
theorem populatedWidths_migratedViews : populatedWidths migratedViews = [0, 0] := by
  decide

theorem directTiles_migratedViews (rows : List (EventRow Value)) :
    directTiles migratedViews rows = [] := by
  have none :
      (migratedViews.filter fun view => view.target = .activity && view.isAliased) = [] := by
    decide
  rw [directTiles, none, List.flatMap_nil]

/-- After the migrations no activity query is answered. -/
theorem serveActivity_migratedViews (inputs : List (TileInput Value)) (startNs endNs : UInt64)
    (pixels : UInt32) (selected : UInt8 → Int8 → Bool) :
    serveActivity startNs endNs pixels (onTile selected) (tilesAfter migratedViews inputs) =
      [] := by
  refine List.Perm.eq_nil
    ((serveActivity_tilesAfter migratedViews inputs startNs endNs pixels selected).trans
      (List.Perm.of_eq ?_))
  rw [serveActivity_eq, filter_activityTiles (by decide) bucketWidthNs_ne_zero_of_inWindow,
    directTiles_migratedViews]
  rfl

/-- An event of an activity category in the window. -/
def EventRow.InWindow (startNs endNs : UInt64) (row : EventRow Value) : Prop :=
  row.category ≠ categoryToI8 .metric ∧ startNs ≤ row.tsNs ∧ row.tsNs < endNs

/-- No view writes a width that an activity query asks for, so none is ever answered: not one
window has an answer for every set of events with an activity event in it, aligned as it may be. -/
theorem activity_query_never_served [Zero Value] (startNs endNs : UInt64) (pixels : UInt32)
    (nonempty : startNs < endNs) :
    activityWidth startNs endNs pixels ∉ populatedWidths migratedViews ∧
      (∀ (inputs : List (TileInput Value)) (selected : UInt8 → Int8 → Bool),
        serveActivity startNs endNs pixels (onTile selected)
          (tilesAfter migratedViews inputs) = []) ∧
      ¬ ∀ inputs : List (TileInput Value),
        (∃ row ∈ inputs.flatMap TileInput.events, row.InWindow startNs endNs) →
          serveActivity startNs endNs pixels (onTile fun _ _ => true)
            (tilesAfter migratedViews inputs) ≠ [] := by
  refine ⟨?_, fun inputs selected => serveActivity_migratedViews inputs startNs endNs pixels _,
    fun answered => ?_⟩
  · rw [populatedWidths_migratedViews]
    simpa using activityWidth_ne_zero startNs endNs pixels
  · have inWindow : (kernelRowAt startNs : EventRow Value).InWindow startNs endNs :=
      ⟨by show (3 : Int8) ≠ 1; decide, UInt64.le_refl startNs, nonempty⟩
    exact answered [.insertEvents [kernelRowAt startNs]]
      ⟨_, List.mem_singleton_self _, inWindow⟩ (serveActivity_migratedViews _ _ _ _ _)

/-- A second over 1024 pixels. -/
theorem activity_query_never_served_second :
    activityWidth 0 1003520000 1024 ∉ populatedWidths migratedViews ∧
      (∀ (inputs : List (TileInput Nat)) (selected : UInt8 → Int8 → Bool),
        serveActivity 0 1003520000 1024 (onTile selected) (tilesAfter migratedViews inputs) = []) ∧
      ¬ ∀ inputs : List (TileInput Nat),
        (∃ row ∈ inputs.flatMap TileInput.events, row.InWindow 0 1003520000) →
          serveActivity 0 1003520000 1024 (onTile fun _ _ => true)
            (tilesAfter migratedViews inputs) ≠ [] :=
  activity_query_never_served 0 1003520000 1024 (by decide)

/-- About a minute over 2048 pixels asks for the 32 ms tiles. Their view survives, but it writes
no such width, and a kernel in the window gets no bucket. -/
theorem minute_not_served :
    activityWidth 0 65536000000 2048 = 32768000 ∧
      32768000 ∈ viewWidths migratedViews ∧
      activityWidth 0 65536000000 2048 ∉ populatedWidths migratedViews ∧
      (kernelRowAt 5000 : EventRow Nat).InWindow 0 65536000000 ∧
      serveActivity 0 65536000000 2048 (onTile fun _ _ => true)
        (tilesAfter migratedViews [.insertEvents [(kernelRowAt 5000 : EventRow Nat)]]) = [] :=
  ⟨by decide, by decide, by decide, ⟨by show (3 : Int8) ≠ 1; decide, by decide, by decide⟩,
    serveActivity_migratedViews _ _ _ _ _⟩

/-! ### The buckets of a window -/

/-- The start of a bucket does not wrap. -/
theorem toNat_bucketStart (widthNs tsNs : UInt64) :
    (tsNs / widthNs * widthNs).toNat = tsNs.toNat / widthNs.toNat * widthNs.toNat := by
  have small : tsNs.toNat / widthNs.toNat * widthNs.toNat < 2 ^ 64 :=
    lt_of_le_of_lt (Nat.div_mul_le_self _ _) tsNs.toNat_lt
  rw [UInt64.toNat_mul, UInt64.toNat_div, Nat.mod_eq_of_lt small]

/-- A bucket starts in an aligned window when its event does. -/
theorem bucketStart_mem_window {startNs endNs widthNs tsNs : UInt64}
    (aligned : startNs % widthNs = 0) (afterStart : startNs ≤ tsNs) (beforeEnd : tsNs < endNs) :
    startNs ≤ tsNs / widthNs * widthNs ∧ tsNs / widthNs * widthNs < endNs := by
  have startAligned : startNs.toNat % widthNs.toNat = 0 := by
    rw [← UInt64.toNat_mod, aligned]
    rfl
  have startLe := UInt64.le_iff_toNat_le.mp afterStart
  have endLt := UInt64.lt_iff_toNat_lt.mp beforeEnd
  rw [UInt64.le_iff_toNat_le, UInt64.lt_iff_toNat_lt, toNat_bucketStart]
  refine ⟨?_, lt_of_le_of_lt (Nat.div_mul_le_self _ _) endLt⟩
  calc startNs.toNat = startNs.toNat / widthNs.toNat * widthNs.toNat :=
        (Nat.div_mul_cancel (Nat.dvd_of_mod_eq_zero startAligned)).symm
    _ ≤ tsNs.toNat / widthNs.toNat * widthNs.toNat :=
        Nat.mul_le_mul_right _ (Nat.div_le_div_right startLe)

theorem inActivityWindow_iff {startNs endNs widthNs : UInt64} {tile : ActivityTile} :
    inActivityWindow startNs endNs widthNs (fun _ => true) tile ↔
      tile.bucketWidthNs = widthNs ∧ startNs ≤ tile.bucketStartNs ∧
        tile.bucketStartNs < endNs := by
  unfold inActivityWindow
  rw [Bool.and_true, Bool.and_eq_true, Bool.and_eq_true, decide_eq_true_eq, decide_eq_true_eq,
    decide_eq_true_eq, and_assoc]

/-- A bucket meets a window: some time lies in both. -/
def ActivityTile.Meets (startNs endNs : UInt64) (tile : ActivityTile) : Prop :=
  ∃ tsNs : UInt64, startNs ≤ tsNs ∧ tsNs < endNs ∧ tile.bucketStartNs ≤ tsNs ∧
    tsNs.toNat < tile.bucketStartNs.toNat + tile.bucketWidthNs.toNat

theorem width_pos_of_mem_viewWidths :
    ∀ width ∈ viewWidths migratedViews, 0 < width.toNat := by
  simp [viewWidths_migratedViews]

/-- A bucket that is selected meets the window in its first nanosecond. -/
theorem meets_of_inActivityWindow {startNs endNs widthNs : UInt64} {tile : ActivityTile}
    (surviving : widthNs ∈ viewWidths migratedViews)
    (selected : inActivityWindow startNs endNs widthNs (fun _ => true) tile) :
    tile.Meets startNs endNs := by
  obtain ⟨width, afterStart, beforeEnd⟩ := inActivityWindow_iff.mp selected
  have positive := width_pos_of_mem_viewWidths widthNs surviving
  rw [← width] at positive
  exact ⟨tile.bucketStartNs, afterStart, beforeEnd, UInt64.le_refl _,
    Nat.lt_add_of_pos_right positive⟩

/-- The bucket of the first nanosecond of a window starts with the window only if the window is
aligned. -/
theorem aligned_of_le_bucketStart {startNs widthNs : UInt64}
    (starts : startNs ≤ startNs / widthNs * widthNs) : startNs % widthNs = 0 := by
  rw [UInt64.le_iff_toNat_le, toNat_bucketStart] at starts
  have parts := Nat.div_add_mod' startNs.toNat widthNs.toNat
  refine UInt64.toNat_inj.mp ?_
  rw [UInt64.toNat_mod]
  show startNs.toNat % widthNs.toNat = 0
  omega

/-- For a surviving view's width, rows as its `SELECT` list computes them, and a window that is not
empty, the query selects the bucket of every event in the window, and no bucket apart from the
window, exactly when the window starts with a bucket. -/
theorem activity_buckets_exact_iff [Zero Value] (startNs endNs widthNs : UInt64)
    (surviving : widthNs ∈ viewWidths migratedViews) (nonempty : startNs < endNs) :
    ((∀ row : EventRow Value, row.InWindow startNs endNs →
        inActivityWindow startNs endNs widthNs (fun _ => true) (.ofRow widthNs row)) ∧
      ∀ tile, inActivityWindow startNs endNs widthNs (fun _ => true) tile →
        tile.Meets startNs endNs) ↔ startNs % widthNs = 0 := by
  constructor
  · rintro ⟨selects, _⟩
    have inWindow : (kernelRowAt startNs : EventRow Value).InWindow startNs endNs :=
      ⟨by show (3 : Int8) ≠ 1; decide, UInt64.le_refl startNs, nonempty⟩
    exact aligned_of_le_bucketStart (inActivityWindow_iff.mp (selects _ inWindow)).2.1
  · refine fun aligned => ⟨fun row inWindow => ?_, fun tile => meets_of_inActivityWindow surviving⟩
    obtain ⟨_, afterStart, beforeEnd⟩ := inWindow
    exact inActivityWindow_iff.mpr ⟨rfl, bucketStart_mem_window aligned afterStart beforeEnd⟩

/-- The second bucket of the 32 ms width, as a window. -/
theorem activity_buckets_exact_second :
    ((∀ row : EventRow Nat, row.InWindow 32768000 65536000 →
        inActivityWindow 32768000 65536000 32768000 (fun _ => true) (.ofRow 32768000 row)) ∧
      ∀ tile, inActivityWindow 32768000 65536000 32768000 (fun _ => true) tile →
        tile.Meets 32768000 65536000) ↔ (32768000 : UInt64) % 32768000 = 0 :=
  activity_buckets_exact_iff 32768000 65536000 32768000 (by decide) (by decide)

/-- A kernel 5 µs after the epoch is not in the answer for the window from the first nanosecond
on. -/
theorem exists_bucket_not_selected :
    ¬ ∀ (widthNs startNs endNs : UInt64), widthNs ∈ viewWidths migratedViews →
      startNs < endNs → ∀ row : EventRow Nat, row.InWindow startNs endNs →
        inActivityWindow startNs endNs widthNs (fun _ => true) (.ofRow widthNs row) := by
  intro selects
  have selected := selects 32768000 1 32768000 (by decide) (by decide) (kernelRowAt 5000)
    ⟨by show (3 : Int8) ≠ 1; decide, by decide, by decide⟩
  exact absurd (inActivityWindow_iff.mp selected).2.1 (by decide)

end PerfWeave
