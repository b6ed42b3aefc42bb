/-
This file models the timeline endpoint of `perfweave-server/src/api/timeline.rs`, with the picker
of `lod.rs`. Whatever may panic is checked: a difference that may be negative, a quotient whose
divisor may be zero, a header value that is unwrapped. The answers of the database and of the Arrow
encoder are arbitrary.

A `kind` that is none of the known ones is served as activity and sent back as a header, so the
client chooses the text that is unwrapped there; nothing else the client sends can cause a panic.
-/

import PerfWeave.Server.Tiles
import PerfWeave.Server.TimelineFilters
import PerfWeave.Library.MachineInt

namespace PerfWeave

variable {Rows Bytes Failure : Type}

/-! ### Checked operations -/

/-- The difference of two words; none when it is negative. -/
def checkedSub (first second : UInt64) : Option UInt64 :=
  if second ≤ first then some (first - second) else none

/-- The quotient of two words; none when the divisor is zero. -/
def checkedQuotient (numerator denominator : UInt64) : Option UInt64 :=
  if denominator = 0 then none else some (numerator / denominator)

/-- `choose_tile`, with its division checked. -/
def checkedChooseTile (rangeNs : UInt64) (pixels : UInt32) : Option (Option UInt64) :=
  if pixels = 0 then
    some tileWidthsNs.head?
  else do
    let target ← checkedQuotient rangeNs pixels.toUInt64
    return (tileWidthsNs.find? fun width => target ≤ width).or tileWidthsNs.getLast?

/-- `should_serve_raw`, with its division and its index checked. -/
def checkedServeRaw (rangeNs : UInt64) (pixels : UInt32) : Option Bool :=
  if 0 < pixels then do
    let share ← checkedQuotient rangeNs pixels.toUInt64
    let finest ← tileWidthsNs[0]?
    return share < finest
  else
    some false

/-- A character that may stand in a header. -/
def isHeaderChar (char : Char) : Bool := (' ' ≤ char && char ≤ '~') || char = '\t'

/-- `HeaderValue::from_str`, unwrapped. -/
def unwrapHeader (text : Text) : Option Text := if text.all isHeaderChar then some text else none

/-! ### The handler -/

/-- `TimelineQuery`. -/
structure TimelineQuery where
  startNs : UInt64
  endNs : UInt64
  gpus : Option Text
  categories : Option Text
  pixels : UInt32
  kind : Option Text
  metricIds : Option Text

/-- What the statements of the endpoint are made of. -/
inductive TimelineSql where
  | activity (widthNs startNs endNs : UInt64) (gpuFilter catFilter : Text)
  | metric (widthNs startNs endNs : UInt64) (gpuFilter metricFilter : Text)
  | raw (startNs endNs : UInt64) (gpuFilter catFilter : Text)

/-- The database and the encoder: their answers, and the text of a failure. -/
structure TimelineBackend (Rows Bytes Failure : Type) where
  fetchAll : TimelineSql → Except Failure Rows
  toArrow : TimelineSql → Rows → Except Failure Bytes
  describe : Failure → Text

/-- The rows of a statement, encoded. -/
def TimelineBackend.answer (backend : TimelineBackend Rows Bytes Failure) (sql : TimelineSql) :
    Except Failure Bytes :=
  match backend.fetchAll sql with
  | .ok rows => backend.toArrow sql rows
  | .error failure => .error failure

/-- The width of the tiles a query asks for. -/
def TimelineQuery.tileWidth (q : TimelineQuery) : Option UInt64 := do
  let range ← checkedSub q.endNs q.startNs
  let width ← checkedChooseTile range q.pixels
  return width.getD 4096000

/-- `serve_activity`. -/
def TimelineQuery.serveActivity (q : TimelineQuery) (backend : TimelineBackend Rows Bytes Failure) :
    Option (Except Failure Bytes) := do
  let width ← q.tileWidth
  return backend.answer (.activity width q.startNs q.endNs (gpuFilterSql q.gpus)
    (categoryFilterSql "category" q.categories))

/-- `serve_metric`. -/
def TimelineQuery.serveMetric (q : TimelineQuery) (backend : TimelineBackend Rows Bytes Failure) :
    Option (Except Failure Bytes) := do
  let width ← q.tileWidth
  return backend.answer (.metric width q.startNs q.endNs (gpuFilterSql q.gpus)
    (metricFilterSql q.metricIds))

/-- `serve_raw`. -/
def TimelineQuery.serveRaw (q : TimelineQuery) (backend : TimelineBackend Rows Bytes Failure) :
    Option (Except Failure Bytes) :=
  some (backend.answer (.raw q.startNs q.endNs (gpuFilterSql q.gpus)
    (categoryFilterSql "category" q.categories)))

/-- The status and the text of an error. -/
structure TimelineError where
  status : Nat
  message : Text

/-- The headers and the body of a response. -/
structure TimelineResponse (Bytes : Type) where
  contentType : Text
  kind : Text
  body : Bytes

/-- The kind that is served: what the client asks for, else by the range of a pixel. -/
def TimelineQuery.resolveKind (q : TimelineQuery) (rangeNs : UInt64) : Option Text :=
  match q.kind with
  | some kind => some kind
  | none => do
    let serveRaw ← checkedServeRaw rangeNs q.pixels
    return if serveRaw then "raw".toList else "activity".toList

/-- The branch of a kind. -/
def TimelineQuery.serve (q : TimelineQuery) (backend : TimelineBackend Rows Bytes Failure)
    (kind : Text) : Option (Except Failure Bytes) :=
  if kind = "raw".toList then q.serveRaw backend
  else if kind = "metric".toList then q.serveMetric backend
  else q.serveActivity backend

/-- `handler`; none when it panics. -/
def TimelineQuery.handler (q : TimelineQuery) (backend : TimelineBackend Rows Bytes Failure) :
    Option (Except TimelineError (TimelineResponse Bytes)) :=
  let range := saturatingSub q.endNs q.startNs
  if range = 0 then
    some (.error ⟨400, "end_ns must be > start_ns".toList⟩)
  else do
    let kind ← q.resolveKind range
    let served ← q.serve backend kind
    match served with
    | .error failure => return .error ⟨500, backend.describe failure⟩
    | .ok bytes =>
      let contentType ← unwrapHeader "application/vnd.apache.arrow.stream".toList
      let kindHeader ← unwrapHeader kind
      return .ok ⟨contentType, kindHeader, bytes⟩

/-! ### Where the checks pass -/

theorem checkedQuotient_pixels (numerator : UInt64) {pixels : UInt32} (nonzero : pixels ≠ 0) :
    checkedQuotient numerator pixels.toUInt64 = some (numerator / pixels.toUInt64) := by
  refine if_neg fun zero => nonzero ?_
  rw [← UInt32.toNat_inj]
  simpa using congrArg UInt64.toNat zero

theorem checkedChooseTile_eq (rangeNs : UInt64) (pixels : UInt32) :
    checkedChooseTile rangeNs pixels = some (chooseTile rangeNs pixels) := by
  unfold checkedChooseTile chooseTile
  split
  · rfl
  · next nonzero =>
    rw [checkedQuotient_pixels rangeNs nonzero]
    rfl

/-- `should_serve_raw`. -/
def shouldServeRaw (rangeNs : UInt64) (pixels : UInt32) : Bool :=
  0 < pixels && rangeNs / pixels.toUInt64 < 1000

theorem checkedServeRaw_eq (rangeNs : UInt64) (pixels : UInt32) :
    checkedServeRaw rangeNs pixels = some (shouldServeRaw rangeNs pixels) := by
  unfold checkedServeRaw shouldServeRaw
  split
  · next positive =>
    rw [checkedQuotient_pixels rangeNs (UInt32.pos_iff_ne_zero.mp positive),
      decide_eq_true positive, Bool.true_and]
    rfl
  · next zero => rw [decide_eq_false zero, Bool.false_and]

/-- The kind that is served. -/
def TimelineQuery.servedKind (q : TimelineQuery) : Text :=
  q.kind.getD
    (if shouldServeRaw (q.endNs - q.startNs) q.pixels then "raw".toList else "activity".toList)

/-- The statement that is sent for a kind. -/
def TimelineQuery.sql (q : TimelineQuery) (kind : Text) : TimelineSql :=
  let width := activityWidth q.startNs q.endNs q.pixels
  let gpuFilter := gpuFilterSql q.gpus
  let catFilter := categoryFilterSql "category" q.categories
  if kind = "raw".toList then .raw q.startNs q.endNs gpuFilter catFilter
  else if kind = "metric".toList then
    .metric width q.startNs q.endNs gpuFilter (metricFilterSql q.metricIds)
  else .activity width q.startNs q.endNs gpuFilter catFilter

theorem TimelineQuery.tileWidth_eq {q : TimelineQuery} (ordered : q.startNs ≤ q.endNs) :
    q.tileWidth = some (activityWidth q.startNs q.endNs q.pixels) := by
  rw [tileWidth, checkedSub, if_pos ordered, Option.bind_eq_bind, Option.bind_some,
    checkedChooseTile_eq]
  rfl

theorem TimelineQuery.resolveKind_eq {q : TimelineQuery} (ordered : q.startNs ≤ q.endNs) :
    q.resolveKind (saturatingSub q.endNs q.startNs) = some q.servedKind := by
  rw [saturatingSub_of_le ordered, resolveKind, servedKind]
  cases q.kind with
  | some kind => rfl
  | none =>
    rw [checkedServeRaw_eq]
    rfl

/-- Every branch gets to the database. -/
theorem TimelineQuery.serve_eq {q : TimelineQuery} (ordered : q.startNs ≤ q.endNs)
    (backend : TimelineBackend Rows Bytes Failure) (kind : Text) :
    q.serve backend kind = some (backend.answer (q.sql kind)) := by
  unfold serve sql
  split
  · rfl
  · split
    · rw [serveMetric, tileWidth_eq ordered]
      rfl
    · rw [serveActivity, tileWidth_eq ordered]
      rfl

theorem unwrapHeader_isSome_iff (text : Text) :
    (unwrapHeader text).isSome ↔ ∀ char ∈ text, isHeaderChar char := by
  rw [unwrapHeader]
  split
  · next accepted => simpa using accepted
  · next rejected => simpa using rejected

/-- The kind that is served fits into a header exactly when the one that is asked for does. -/
theorem TimelineQuery.servedKind_isHeader_iff (q : TimelineQuery) :
    (∀ char ∈ q.servedKind, isHeaderChar char) ↔
      ∀ kind, q.kind = some kind → ∀ char ∈ kind, isHeaderChar char := by
  rw [servedKind]
  cases q.kind with
  | some kind => exact ⟨fun accepted other same => Option.some.inj same ▸ accepted,
      fun accepted => accepted kind rfl⟩
  | none =>
    refine ⟨fun _ kind isKind => (Option.some_ne_none kind isKind.symm).elim, fun _ => ?_⟩
    rw [Option.getD_none]
    refine List.all_eq_true.mp ?_
    split <;> rfl

/-- The handler gets through exactly when it refuses the range, when the kind it is asked for fits
into a header, or when the database or the encoder fails before the header is made. -/
theorem TimelineQuery.handler_isSome_iff (q : TimelineQuery)
    (backend : TimelineBackend Rows Bytes Failure) :
    (q.handler backend).isSome ↔ q.endNs ≤ q.startNs ∨
      (∀ kind, q.kind = some kind → ∀ char ∈ kind, isHeaderChar char) ∨
      ∃ failure, backend.answer (q.sql q.servedKind) = .error failure := by
  rw [handler]
  by_cases refused : saturatingSub q.endNs q.startNs = 0
  · simp [refused, (saturatingSub_eq_zero_iff _ _).mp refused]
  · have notRefused : ¬ q.endNs ≤ q.startNs := fun small =>
      refused ((saturatingSub_eq_zero_iff _ _).mpr small)
    have ordered : q.startNs ≤ q.endNs := (UInt64.le_total _ _).resolve_left notRefused
    have contentType : unwrapHeader "application/vnd.apache.arrow.stream".toList =
        some "application/vnd.apache.arrow.stream".toList := by decide
    rw [if_neg refused, resolveKind_eq ordered, Option.bind_eq_bind, Option.bind_some,
      serve_eq ordered, Option.bind_eq_bind, Option.bind_some, or_iff_right notRefused,
      ← servedKind_isHeader_iff, ← unwrapHeader_isSome_iff]
    cases backend.answer (q.sql q.servedKind) with
    | error failure => simp
    | ok bytes =>
      have noFailure : ¬ ∃ failure, (.ok bytes : Except Failure Bytes) = .error failure := by
        rintro ⟨_, ⟨⟩⟩
      rw [contentType, or_iff_left noFailure]
      cases unwrapHeader q.servedKind <;> exact Iff.rfl

/-- A request for a kind that is a line feed, over a range of one nanosecond. -/
def lineFeedKind : TimelineQuery where
  startNs := 0
  endNs := 1
  gpus := none
  categories := none
  pixels := 2048
  kind := some ['\n']
  metricIds := none

/-- A database without rows, which answers every statement. -/
def emptyBackend : TimelineBackend Unit Unit Empty where
  fetchAll _ := .ok ()
  toArrow _ _ := .ok ()
  describe failure := failure.elim

/-- The handler panics on that request although the database answers. -/
theorem lineFeedKind_panics :
    ∃ (q : TimelineQuery) (backend : TimelineBackend Unit Unit Empty), q.handler backend = none :=
  ⟨lineFeedKind, emptyBackend, by decide⟩

end PerfWeave
