/-
This file models how the timeline draws its live metrics: the catalog of
`web/src/timeline/metrics.ts`, the effect of `timeline/Timeline.tsx` that fills it with the names of
the metrics, and the series it makes of the browser's ring. Readings, heights and times are exact
numbers, and a metric id in a key is written out in full, as JavaScript does below `2 ^ 53`. What
`toLowerCase` makes of a name is a parameter.
-/

import PerfWeave.Library.OrderedImages
import PerfWeave.Web.Hover
import PerfWeave.Web.LiveIds

namespace PerfWeave

/-! ### The catalog -/

/-- `MetricKind`. -/
inductive MetricKind where
  | util
  | mem
  | power
  | temp
  | clock
  | fan
  | other
  deriving DecidableEq

/-- `MetricSpec`, as far as the canvas needs it. -/
structure MetricSpec where
  kind : MetricKind
  slot : Nat
  rgb : ℚ × ℚ × ℚ
  label : List Char
  yMin : Option ℚ
  yMax : Option ℚ
  deriving DecidableEq

namespace MetricSpec

/-- Utilization. -/
def util : MetricSpec := ⟨.util, 0, (0.29, 0.64, 1), "SM util".toList, some 0, some 100⟩

/-- Utilization of the memory. -/
def memUtil : MetricSpec := ⟨.mem, 1, (0.39, 0.83, 0.65), "MEM util".toList, some 0, some 100⟩

/-- Memory in use. -/
def memUsed : MetricSpec := ⟨.mem, 1, (0.39, 0.83, 0.65), "MEM used".toList, none, none⟩

/-- Power. -/
def power : MetricSpec := ⟨.power, 2, (1, 0.72, 0.29), "power".toList, some 0, none⟩

/-- Temperature. -/
def temp : MetricSpec := ⟨.temp, 3, (1, 0.45, 0.42), "temp".toList, some 20, some 95⟩

/-- A clock. -/
def clock : MetricSpec := ⟨.clock, 4, (0.72, 0.55, 1), "SM clock".toList, some 0, none⟩

/-- A fan. -/
def fan : MetricSpec := ⟨.fan, 5, (0.6, 0.7, 0.8), "fan".toList, some 0, some 100⟩

/-- What the catalog makes of a name that is not classified. -/
def other (name : List Char) : MetricSpec :=
  ⟨.other, metricSlots - 1, (0.5, 0.6, 0.7), name, none, none⟩

end MetricSpec

/-- `endsWith`. -/
def endsWith (n : List Char) (suffix : String) : Bool := suffix.toList.isSuffixOf n

/-- `classify`. -/
def classify (toLowerCase : List Char → List Char) (name : List Char) : Option MetricSpec :=
  let n := toLowerCase name
  if endsWith n "util.percent" ∨ n = "gpu.util.percent".toList then some .util
  else if endsWith n "mem.util.percent" then some .memUtil
  else if endsWith n "mem.used.bytes" then some .memUsed
  else if endsWith n "mem.free.bytes" then none
  else if endsWith n "power.watts" ∨ n = "soc.power.watts".toList then some .power
  else if endsWith n "power.limit.watts" then none
  else if endsWith n "temp.celsius" then some .temp
  else if endsWith n "sm.clock.hz" ∨ endsWith n "clock.hz" then some .clock
  else if endsWith n "fan.percent" then some .fan
  else none

/-- What the catalog holds of a name. -/
def catalogSpec (toLowerCase : List Char → List Char) (name : List Char) : MetricSpec :=
  (classify toLowerCase name).getD (.other name)

/-- A map with entries for some names, by the texts of their ids. -/
def setNames {Entry : Type} (entry : List Char → Entry) (prev : List Char → Option Entry)
    (names : List (Nat × List Char)) : List Char → Option Entry :=
  names.foldl (fun next name =>
    Function.update next (numberToString name.1) (some (entry name.2))) prev

/-- `setMetricCatalog`. -/
def setMetricCatalog (toLowerCase : List Char → List Char) (prev : List Char → Option MetricSpec)
    (names : List (Nat × List Char)) : List Char → Option MetricSpec :=
  setNames (catalogSpec toLowerCase) prev names

/-! ### The series -/

/-- `MetricSeries`: a line on a lane. -/
structure MetricSeries where
  lane : Nat
  color : ℚ × ℚ × ℚ
  points : List (ℚ × ℚ)

/-- The least and the greatest value that a lane shows of some values. -/
def yRange (spec : MetricSpec) (vs : List ℚ) : ℚ × ℚ :=
  let a := vs.min?.getD 0
  let b := vs.max?.getD 0
  (spec.yMin.getD a, spec.yMax.getD (max b (a + 1)))

/-- The height of a value in its lane. -/
def yOf (range : ℚ × ℚ) (v : ℚ) : ℚ :=
  let span := max (1 / 10 ^ 9) (range.2 - range.1)
  max 0 (min 1 ((v - range.1) / span))

/-- `pushSeries`. -/
def pushSeries (out : List MetricSeries) (laneIdx : Nat) (spec : MetricSpec) (ts vs : List ℚ) :
    List MetricSeries :=
  if ts.length = 0 then out
  else out ++ [⟨laneIdx, spec.rgb, ts.zip (vs.map (yOf (yRange spec vs)))⟩]

/-- `TAIL_NS`. -/
def tailNs : ℚ := 600 * 1000000000

/-- One turn of the loop of `liveRingToMetrics`, for a key of three parts of which the second is a
number. -/
def addLiveSeries (catalog : List Char → Option MetricSpec) (lanesPerGpu : Nat) (nowF : ℚ)
    (out : List MetricSeries) (entry : List Char × List (LiveMetricSample ℚ)) :
    List MetricSeries :=
  match entry.2.getLast? with
  | none => out
  | some last =>
    match entry.1.splitOn ':' with
    | [_, gpuStr, mid] =>
      match bigInt gpuStr, catalog mid with
      | some gpu, some spec =>
        let lastTs : ℚ := last.tsNs
        pushSeries out (gpu * lanesPerGpu + spec.slot) spec
          (entry.2.map (fun sample => (sample.tsNs : ℚ)) ++ [max lastTs nowF + tailNs])
          (entry.2.map LiveMetricSample.value ++ [last.value])
      | _, _ => out
    | _ => out

/-- `liveRingToMetrics`, on the entries of the ring in their order. -/
def liveRingToMetrics (ring : List (List Char × List (LiveMetricSample ℚ)))
    (catalog : List Char → Option MetricSpec) (lanesPerGpu : Nat) (nowF : ℚ) :
    List MetricSeries :=
  ring.foldl (addLiveSeries catalog lanesPerGpu nowF) []

/-! ### The lane of a metric -/

theorem endsWith_iff (n : List Char) (suffix : String) :
    endsWith n suffix = true ↔ suffix.toList <:+ n := List.isSuffixOf_iff_suffix

/-- A text does not end in two ways of which neither is an end of the other. -/
theorem not_endsWith {n : List Char} {first second : String}
    (ends : endsWith n first = true) (notFirst : ¬ first.toList <:+ second.toList)
    (notSecond : ¬ second.toList <:+ first.toList) : ¬ endsWith n second = true := by
  rw [endsWith_iff] at ends ⊢
  intro endsToo
  rcases List.suffix_or_suffix_of_suffix ends endsToo with firstEnds | secondEnds
  · exact notFirst firstEnds
  · exact notSecond secondEnds

/-- What `classify` comes to: of its tests, the one for the utilization of the memory never
decides. -/
theorem classify_eq (toLowerCase : List Char → List Char) (name : List Char) :
    classify toLowerCase name =
      if endsWith (toLowerCase name) "util.percent" then some .util
      else if endsWith (toLowerCase name) "mem.used.bytes" then some .memUsed
      else if endsWith (toLowerCase name) "power.watts" then some .power
      else if endsWith (toLowerCase name) "temp.celsius" then some .temp
      else if endsWith (toLowerCase name) "clock.hz" then some .clock
      else if endsWith (toLowerCase name) "fan.percent" then some .fan
      else none := by
  generalize isName : toLowerCase name = n
  have utilOr : (endsWith n "util.percent" ∨ n = "gpu.util.percent".toList) ↔
      endsWith n "util.percent" = true :=
    or_iff_left_of_imp fun same => by rw [same]; decide
  have powerOr : (endsWith n "power.watts" ∨ n = "soc.power.watts".toList) ↔
      endsWith n "power.watts" = true :=
    or_iff_left_of_imp fun same => by rw [same]; decide
  have clockOr : (endsWith n "sm.clock.hz" ∨ endsWith n "clock.hz") ↔
      endsWith n "clock.hz" = true := by
    refine or_iff_right_of_imp fun ends => ?_
    rw [endsWith_iff] at ends ⊢
    exact List.IsSuffix.trans (by decide) ends
  have memUtil : endsWith n "mem.util.percent" = true → endsWith n "util.percent" = true := by
    rw [endsWith_iff, endsWith_iff]
    exact List.IsSuffix.trans (by decide)
  have memFree : endsWith n "mem.free.bytes" = true →
      ¬ endsWith n "power.watts" = true ∧ ¬ endsWith n "temp.celsius" = true ∧
        ¬ endsWith n "clock.hz" = true ∧ ¬ endsWith n "fan.percent" = true := fun ends =>
    ⟨not_endsWith ends (by decide) (by decide), not_endsWith ends (by decide) (by decide),
      not_endsWith ends (by decide) (by decide), not_endsWith ends (by decide) (by decide)⟩
  have powerLimit : endsWith n "power.limit.watts" = true →
      ¬ endsWith n "temp.celsius" = true ∧ ¬ endsWith n "clock.hz" = true ∧
        ¬ endsWith n "fan.percent" = true := fun ends =>
    ⟨not_endsWith ends (by decide) (by decide), not_endsWith ends (by decide) (by decide),
      not_endsWith ends (by decide) (by decide)⟩
  unfold classify
  simp only [isName, utilOr, powerOr, clockOr]
  by_cases util : endsWith n "util.percent" = true
  · rw [if_pos util, if_pos util]
  · rw [if_neg util, if_neg util, if_neg fun ends => util (memUtil ends)]
    by_cases used : endsWith n "mem.used.bytes" = true
    · rw [if_pos used, if_pos used]
    · rw [if_neg used, if_neg used]
      by_cases free : endsWith n "mem.free.bytes" = true
      · obtain ⟨power, temp, clock, fan⟩ := memFree free
        rw [if_pos free, if_neg power, if_neg temp, if_neg clock, if_neg fan]
      · rw [if_neg free]
        by_cases power : endsWith n "power.watts" = true
        · rw [if_pos power, if_pos power]
        · rw [if_neg power, if_neg power]
          by_cases limit : endsWith n "power.limit.watts" = true
          · obtain ⟨temp, clock, fan⟩ := powerLimit limit
            rw [if_pos limit, if_neg temp, if_neg clock, if_neg fan]
          · rw [if_neg limit]

theorem slot_catalogSpec_lt (toLowerCase : List Char → List Char) (name : List Char) :
    (catalogSpec toLowerCase name).slot < metricSlots := by
  rw [catalogSpec, classify_eq]
  split_ifs <;> exact of_decide_eq_true rfl

/-- Every metric whose name is known has a lane. The lane of the memory shows what is in use and
nothing else: the utilization of the memory is taken for that of the multiprocessors. And what the
catalog leaves out, memory that is free and the power limit, goes to the lane of the fan. -/
theorem metric_slots (toLowerCase : List Char → List Char) (name : List Char) :
    (catalogSpec toLowerCase name).slot < metricSlots ∧
      ((catalogSpec toLowerCase name).slot = MetricSpec.memUsed.slot ↔
        endsWith (toLowerCase name) "mem.used.bytes" = true) ∧
      (endsWith (toLowerCase name) "mem.util.percent" = true →
        catalogSpec toLowerCase name = .util) ∧
      (endsWith (toLowerCase name) "mem.free.bytes" = true ∨
          endsWith (toLowerCase name) "power.limit.watts" = true →
        catalogSpec toLowerCase name = .other name) := by
  refine ⟨slot_catalogSpec_lt toLowerCase name, ?_, fun ends => ?_, fun ends => ?_⟩
  · rw [catalogSpec, classify_eq]
    by_cases util : endsWith (toLowerCase name) "util.percent" = true
    · rw [if_pos util]
      exact iff_of_false (Nat.ne_of_beq_eq_false rfl) (not_endsWith util (by decide) (by decide))
    · rw [if_neg util]
      by_cases used : endsWith (toLowerCase name) "mem.used.bytes" = true
      · rw [if_pos used]
        exact iff_of_true rfl used
      · rw [if_neg used]
        refine iff_of_false ?_ used
        split_ifs <;> exact Nat.ne_of_beq_eq_false rfl
  · have util : endsWith (toLowerCase name) "util.percent" = true := by
      rw [endsWith_iff] at ends ⊢
      exact List.IsSuffix.trans (by decide) ends
    rw [catalogSpec, classify_eq, if_pos util]
    rfl
  · have out : ∀ suffix ∈ ["mem.free.bytes", "power.limit.watts"],
        endsWith (toLowerCase name) suffix = true → ∀ other ∈ ["util.percent", "mem.used.bytes",
          "power.watts", "temp.celsius", "clock.hz", "fan.percent"],
        ¬ endsWith (toLowerCase name) other = true := by
      intro suffix isSuffix endsHere other isOther
      have apart : ∀ first ∈ ["mem.free.bytes", "power.limit.watts"], ∀ second ∈ ["util.percent",
          "mem.used.bytes", "power.watts", "temp.celsius", "clock.hz", "fan.percent"],
          ¬ first.toList <:+ second.toList ∧ ¬ second.toList <:+ first.toList := by decide
      obtain ⟨notFirst, notSecond⟩ := apart suffix isSuffix other isOther
      exact not_endsWith endsHere notFirst notSecond
    have none : ∀ other ∈ ["util.percent", "mem.used.bytes", "power.watts", "temp.celsius",
        "clock.hz", "fan.percent"], ¬ endsWith (toLowerCase name) other = true :=
      ends.elim (out _ (by decide)) (out _ (by decide))
    rw [catalogSpec, classify_eq, if_neg (none _ (by decide)), if_neg (none _ (by decide)),
      if_neg (none _ (by decide)), if_neg (none _ (by decide)), if_neg (none _ (by decide)),
      if_neg (none _ (by decide))]
    rfl

/-- The metrics of the synthetic sampler, by their slots. -/
example : (["gpu.util.percent", "gpu.mem.util.percent", "gpu.mem.used.bytes", "gpu.power.watts",
    "gpu.sm.clock.hz", "gpu.mem.bandwidth.bytes_per_sec"].map fun name =>
      (catalogSpec id name.toList).slot) = [0, 0, 1, 2, 4, 5] := by decide

/-! ### The height of a reading -/

/-- A height is within its lane. -/
theorem yOf_mem (range : ℚ × ℚ) (v : ℚ) : 0 ≤ yOf range v ∧ yOf range v ≤ 1 := by
  unfold yOf
  exact ⟨le_max_left _ _, max_le zero_le_one (min_le_left _ _)⟩

/-- The height of a value that the lane shows says what the value is. -/
theorem of_yOf {range : ℚ × ℚ} {v : ℚ} (atLeast : range.1 ≤ v) (atMost : v ≤ range.2) :
    range.1 + yOf range v * max (1 / 10 ^ 9) (range.2 - range.1) = v := by
  have positive : 0 < max (1 / 10 ^ 9) (range.2 - range.1) :=
    lt_max_of_lt_left (by norm_num)
  have small : v - range.1 ≤ max (1 / 10 ^ 9) (range.2 - range.1) :=
    le_max_of_le_right (sub_le_sub_right atMost _)
  have inside : yOf range v = (v - range.1) / max (1 / 10 ^ 9) (range.2 - range.1) := by
    unfold yOf
    simp only
    rw [min_eq_right ((div_le_one positive).mpr small),
      max_eq_right (div_nonneg (sub_nonneg.mpr atLeast) positive.le)]
  rw [inside, div_mul_cancel₀ _ positive.ne', add_sub_cancel]

theorem min?_getD_le {vs : List ℚ} {v : ℚ} (member : v ∈ vs) : vs.min?.getD 0 ≤ v := by
  cases isMin : vs.min? with
  | none =>
    rw [List.min?_eq_none_iff.mp isMin] at member
    exact absurd member List.not_mem_nil
  | some least => exact (List.min?_eq_some_iff.mp isMin).2 v member

theorem le_max?_getD {vs : List ℚ} {v : ℚ} (member : v ∈ vs) : v ≤ vs.max?.getD 0 := by
  cases isMax : vs.max? with
  | none =>
    rw [List.max?_eq_none_iff.mp isMax] at member
    exact absurd member List.not_mem_nil
  | some greatest => exact (List.max?_eq_some_iff.mp isMax).2 v member

/-- A reading that the fixed ends of its lane admit is within what the lane shows. -/
theorem mem_yRange {spec : MetricSpec} {vs : List ℚ} {v : ℚ} (member : v ∈ vs)
    (atLeast : ∀ yMin ∈ spec.yMin, yMin ≤ v) (atMost : ∀ yMax ∈ spec.yMax, v ≤ yMax) :
    (yRange spec vs).1 ≤ v ∧ v ≤ (yRange spec vs).2 := by
  unfold yRange
  simp only
  constructor
  · cases isMin : spec.yMin with
    | some yMin => exact atLeast yMin isMin
    | none => exact min?_getD_le member
  · cases isMax : spec.yMax with
    | some yMax => exact atMost yMax isMax
    | none => exact le_max_of_le_left (le_max?_getD member)

/-! ### The lines -/

/-- The catalog after the answers that its effect has got. -/
def metricCatalog (toLowerCase : List Char → List Char) (answers : List (List (Nat × List Char))) :
    List Char → Option MetricSpec :=
  run (setMetricCatalog toLowerCase) (fun _ => none) answers

/-- The catalog holds what it makes of names. -/
theorem exists_name_of_metricCatalog {toLowerCase : List Char → List Char}
    {answers : List (List (Nat × List Char))} {mid : List Char} {spec : MetricSpec}
    (isSpec : metricCatalog toLowerCase answers mid = some spec) :
    ∃ name, spec = catalogSpec toLowerCase name := by
  have named : ∀ mid spec, metricCatalog toLowerCase answers mid = some spec →
      ∃ name, spec = catalogSpec toLowerCase name := by
    refine run_invariant (motive := fun catalog : List Char → Option MetricSpec =>
        ∀ mid spec, catalog mid = some spec → ∃ name, spec = catalogSpec toLowerCase name)
      (fun mid spec none => absurd none (Option.some_ne_none spec).symm) ?_ answers
      fun _ _ => trivial
    intro catalog names _ named
    unfold setMetricCatalog setNames
    induction names generalizing catalog with
    | nil => exact named
    | cons name names inductionHypothesis =>
      refine inductionHypothesis _ fun mid spec isSpec => ?_
      beta_reduce at isSpec
      by_cases same : mid = numberToString name.1
      · rw [same, Function.update_self] at isSpec
        exact ⟨name.2, (Option.some.inj isSpec).symm⟩
      · rw [Function.update_of_ne same] at isSpec
        exact named mid spec isSpec
  exact named mid spec isSpec

/-- A line shows a series of readings: it is on a lane of the series' own GPU, it goes on from the
last reading at the same height, and in its lane; and where the lane admits a reading, the height
says what the reading was. -/
structure MetricSeries.Draws (line : MetricSeries) (spec : MetricSpec) (k : SeriesKey)
    (samples : List (LiveMetricSample ℚ)) (last : LiveMetricSample ℚ) (nowF : ℚ) : Prop where
  gpu : line.lane / lanesPerGpu = k.gpuId.toNat
  slot : line.lane % lanesPerGpu = spec.slot
  color : line.color = spec.rgb
  times : line.points.map Prod.fst =
    samples.map (fun sample => (sample.tsNs : ℚ)) ++ [max (last.tsNs : ℚ) nowF + tailNs]
  heights : ∃ range : ℚ × ℚ, line.points.map Prod.snd =
      samples.map (fun sample => yOf range sample.value) ++ [yOf range last.value] ∧
    ∀ sample ∈ samples, (∀ yMin ∈ spec.yMin, yMin ≤ sample.value) →
      (∀ yMax ∈ spec.yMax, sample.value ≤ yMax) →
        range.1 + yOf range sample.value * max (1 / 10 ^ 9) (range.2 - range.1) = sample.value
  inLane : ∀ point ∈ line.points, 0 ≤ point.2 ∧ point.2 ≤ 1

theorem draws_pushSeries {spec : MetricSpec} (slot : spec.slot < metricSlots) (k : SeriesKey)
    {samples : List (LiveMetricSample ℚ)} {last : LiveMetricSample ℚ} (nowF : ℚ) :
    ∃ line, pushSeries [] (k.gpuId.toNat * lanesPerGpu + spec.slot) spec
        (samples.map (fun sample => (sample.tsNs : ℚ)) ++ [max (last.tsNs : ℚ) nowF + tailNs])
        (samples.map LiveMetricSample.value ++ [last.value]) = [line] ∧
      line.Draws spec k samples last nowF := by
  have below : spec.slot < lanesPerGpu := slot.trans (by decide)
  have lengths : (samples.map (fun sample => (sample.tsNs : ℚ)) ++
      [max (last.tsNs : ℚ) nowF + tailNs]).length =
        (samples.map LiveMetricSample.value ++ [last.value]).length := by
    rw [List.length_append, List.length_append, List.length_map, List.length_map]
    rfl
  unfold pushSeries
  rw [if_neg (by rw [List.length_append, List.length_singleton]; exact Nat.succ_ne_zero _)]
  refine ⟨_, rfl, ?_, ?_, rfl, ?_,
    ⟨yRange spec (samples.map LiveMetricSample.value ++ [last.value]), ?_, ?_⟩, ?_⟩
  · show (k.gpuId.toNat * lanesPerGpu + spec.slot) / lanesPerGpu = _
    rw [Nat.add_comm, Nat.add_mul_div_right _ _ (by decide), Nat.div_eq_of_lt below, Nat.zero_add]
  · show (k.gpuId.toNat * lanesPerGpu + spec.slot) % lanesPerGpu = _
    rw [Nat.add_comm, Nat.add_mul_mod_self_right, Nat.mod_eq_of_lt below]
  · exact List.map_fst_zip (by rw [List.length_map, lengths])
  · show (List.zip _ _).map Prod.snd = _
    rw [List.map_snd_zip (by rw [List.length_map, lengths]), List.map_append, List.map_map]
    rfl
  · intro sample member atLeast atMost
    have member : sample.value ∈ samples.map LiveMetricSample.value ++ [last.value] :=
      List.mem_append_left _ (List.mem_map_of_mem member)
    have inRange := mem_yRange member atLeast atMost
    exact of_yOf inRange.1 inRange.2
  · intro point member
    obtain ⟨v, _, isHeight⟩ := List.mem_map.mp (List.of_mem_zip member).2
    rw [← isHeight]
    exact yOf_mem _ v

/-- The loop adds the line of an entry at the end. -/
theorem addLiveSeries_eq (catalog : List Char → Option MetricSpec) (lanesPerGpu : Nat) (nowF : ℚ)
    (out : List MetricSeries) (entry : List Char × List (LiveMetricSample ℚ)) :
    addLiveSeries catalog lanesPerGpu nowF out entry =
      out ++ addLiveSeries catalog lanesPerGpu nowF [] entry := by
  unfold addLiveSeries
  cases entry.2.getLast? with
  | none => exact (List.append_nil out).symm
  | some last =>
    simp only
    split
    · split
      · unfold pushSeries
        split
        · exact (List.append_nil out).symm
        · rfl
      · exact (List.append_nil out).symm
    · exact (List.append_nil out).symm

/-- An entry whose metric the catalog knows. -/
def InCatalog (catalog : List Char → Option MetricSpec)
    (entry : SeriesKey × List (LiveMetricSample ℚ)) : Bool :=
  !entry.2.isEmpty &&
    (catalog (numberToString (roundSignificant 53 entry.1.metricId.toNat))).isSome

/-- What the loop makes of the entry of a series. -/
theorem addLiveSeries_browserKey (catalog : List Char → Option MetricSpec) (nowF : ℚ)
    (entry : SeriesKey × List (LiveMetricSample ℚ)) :
    addLiveSeries catalog lanesPerGpu nowF [] (entry.1.browserKey, entry.2) =
      match entry.2.getLast?,
        catalog (numberToString (roundSignificant 53 entry.1.metricId.toNat)) with
      | some last, some spec =>
        pushSeries [] (entry.1.gpuId.toNat * lanesPerGpu + spec.slot) spec
          (entry.2.map (fun sample => (sample.tsNs : ℚ)) ++ [max (last.tsNs : ℚ) nowF + tailNs])
          (entry.2.map LiveMetricSample.value ++ [last.value])
      | _, _ => [] := by
  unfold addLiveSeries
  cases entry.2.getLast? with
  | none => rfl
  | some last =>
    simp only [SeriesKey.browserKey_eq, splitOn_seriesKey, bigInt_numberToString]
    cases catalog (numberToString (roundSignificant 53 entry.1.metricId.toNat)) <;> rfl

theorem liveRingToMetrics_eq (ring : List (List Char × List (LiveMetricSample ℚ)))
    (catalog : List Char → Option MetricSpec) (lanesPerGpu : Nat) (nowF : ℚ) :
    liveRingToMetrics ring catalog lanesPerGpu nowF =
      ring.flatMap (addLiveSeries catalog lanesPerGpu nowF []) := by
  unfold liveRingToMetrics
  induction ring using List.reverseRecOn with
  | nil => rfl
  | append_singleton ring entry inductionHypothesis =>
    rw [List.foldl_append, inductionHypothesis, List.foldl_cons, List.foldl_nil, addLiveSeries_eq,
      List.flatMap_append, List.flatMap_singleton]

/-- The timeline draws one line for each series of the browser's ring whose metric has got a name,
in the order of the ring, and the line shows the series: with exact heights and times, where the
code computes them as doubles. -/
theorem metrics_drawn (toLowerCase : List Char → List Char)
    (answers : List (List (Nat × List Char)))
    (ring : List (SeriesKey × List (LiveMetricSample ℚ))) (nowF : ℚ) :
    List.Forall₂
      (fun entry line => ∃ name spec last, spec = catalogSpec toLowerCase name ∧
        metricCatalog toLowerCase answers
            (numberToString (roundSignificant 53 entry.1.metricId.toNat)) = some spec ∧
        entry.2.getLast? = some last ∧ spec.slot < metricSlots ∧
        MetricSeries.Draws line spec entry.1 entry.2 last nowF)
      (ring.filter (InCatalog (metricCatalog toLowerCase answers)))
      (liveRingToMetrics (ring.map fun entry => (entry.1.browserKey, entry.2))
        (metricCatalog toLowerCase answers) lanesPerGpu nowF) := by
  rw [liveRingToMetrics_eq, List.flatMap_map]
  refine forall₂_filter_flatMap (fun entry _ known => ?_) fun entry _ unknown => ?_
  · obtain ⟨nonempty, isSome⟩ := Bool.and_eq_true_iff.mp known
    obtain ⟨spec, isSpec⟩ := Option.isSome_iff_exists.mp isSome
    obtain ⟨name, isName⟩ := exists_name_of_metricCatalog isSpec
    have slot : spec.slot < metricSlots := isName ▸ slot_catalogSpec_lt toLowerCase name
    cases isLast : entry.2.getLast? with
    | none =>
      rw [List.getLast?_eq_none_iff.mp isLast] at nonempty
      exact absurd nonempty Bool.false_ne_true
    | some last =>
      obtain ⟨line, isLine, draws⟩ := draws_pushSeries slot entry.1 nowF
      refine ⟨line, ?_, name, spec, last, isName, isSpec, rfl, slot, draws⟩
      rw [addLiveSeries_browserKey, isLast, isSpec]
      exact isLine
  · rw [addLiveSeries_browserKey]
    cases isLast : entry.2.getLast? with
    | none => rfl
    | some last =>
      cases isSpec : metricCatalog toLowerCase answers
          (numberToString (roundSignificant 53 entry.1.metricId.toNat)) with
      | none => rfl
      | some spec =>
        refine absurd ?_ unknown
        rw [InCatalog, isSpec, Option.isSome_some, Bool.and_true, Bool.not_eq_true',
          List.isEmpty_eq_false_iff]
        rintro empty
        rw [empty] at isLast
        exact absurd isLast (by simp)

end PerfWeave
