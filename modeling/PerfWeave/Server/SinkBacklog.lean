/-
This file settles how many rows the sink may hold. Only the size of the event buffer starts a
flush between two ticks, and a flush that fails leaves every buffer as it is, while the loop goes
on receiving. So the rows held are bounded as long as a backlog above the configured size is
flushed out by the next input, and not otherwise: while the database is down they are all the rows
that were ever received.
-/

import PerfWeave.Server.SinkRuns

namespace PerfWeave

variable {Value : Type}

/-! ### Rows held -/

/-- The rows in all five buffers. -/
def SinkState.backlog (state : SinkState Value) : Nat :=
  (insertOrder.map fun table => (state.pending table).length).sum

/-- The rows of a message. -/
def SinkMsg.size : SinkMsg Value → Nat
  | .batch b => b.strings.length +
      (b.events.filter fun e => e.category ≠ Category.metric.asI32).length + b.offsets.length
  | .kernelSol _ _ => 1
  | .spike _ => 1

/-- The rows that an input brings. -/
def SinkInput.size : SinkInput Value → Nat
  | .recv msg _ _ => msg.size
  | .tick _ => 0

namespace SinkState

theorem sum_rows [Zero Value] (clock : Nat → UInt64) (message : Nat) (msg : SinkMsg Value) :
    (insertOrder.map fun table => (msg.rows clock message table).length).sum = msg.size := by
  cases msg with
  | batch b =>
    have events : (b.events.zipIdx.filter fun e => e.1.category ≠ Category.metric.asI32).length =
        (b.events.filter fun e => e.category ≠ Category.metric.asI32).length := by
      have unindexed := List.filter_map (f := Prod.fst)
        (p := fun e : Event Value => decide (e.category ≠ Category.metric.asI32))
        (l := b.events.zipIdx)
      rw [List.zipIdx_map_fst] at unindexed
      rw [unindexed, List.length_map]
      rfl
    simp only [insertOrder, List.map_cons, List.map_nil, List.sum_cons, List.sum_nil,
      SinkMsg.rows, List.length_map, List.length_zipIdx, List.length_nil, events, SinkMsg.size]
    omega
  | kernelSol nodeId sol => rfl
  | spike row => rfl

/-- An input adds its rows. -/
theorem backlog_arrive [Zero Value] (state : SinkState Value) (input : SinkInput Value) :
    (state.arrive input).backlog = state.backlog + input.size := by
  cases input with
  | recv msg clock succeeds =>
    rw [SinkInput.size, ← sum_rows clock state.received msg, backlog, backlog,
      ← List.sum_map_add]
    congr 1
    refine List.map_congr_left fun table _ => ?_
    have appended := receive_eq clock state.received msg state.pending table
    exact (congrArg List.length appended).trans List.length_append
  | tick succeeds => rfl

/-- A flush that gets through leaves no rows. -/
theorem backlog_flush_of_completes {succeeds : Table → Bool} {state : SinkState Value}
    (complete : state.completes succeeds = true) : (state.flush succeeds).backlog = 0 := by
  rw [flush_eq, if_pos complete]
  rfl

/-- A flush that does not get through leaves all of them. -/
theorem backlog_flush_of_not_completes {succeeds : Table → Bool} {state : SinkState Value}
    (fails : ¬ state.completes succeeds = true) :
    (state.flush succeeds).backlog = state.backlog := by
  rw [flush_eq, if_neg fails]
  rfl

theorem backlog_flush_le (succeeds : Table → Bool) (state : SinkState Value) :
    (state.flush succeeds).backlog ≤ state.backlog := by
  by_cases complete : state.completes succeeds = true
  · rw [backlog_flush_of_completes complete]
    exact Nat.zero_le _
  · exact (backlog_flush_of_not_completes complete).le

theorem backlog_step_le [Zero Value] (cfg : SinkConfig) (state : SinkState Value)
    (input : SinkInput Value) : (state.step cfg input).backlog ≤ state.backlog + input.size := by
  rw [← backlog_arrive]
  rcases step_cases cfg state input with ⟨_, next⟩ | ⟨_, next⟩
  · rw [next]
    exact backlog_flush_le _ _
  · rw [next]

/-! ### While the database is down -/

/-- While every insert fails, a turn of the loop keeps all rows. -/
theorem backlog_step_of_down [Zero Value] (cfg : SinkConfig) (state : SinkState Value)
    {input : SinkInput Value} (down : ∀ table, input.succeeds table = false) :
    (state.step cfg input).backlog = state.backlog + input.size := by
  rw [← backlog_arrive]
  rcases step_cases cfg state input with ⟨_, next⟩ | ⟨_, next⟩
  · rw [next]
    by_cases complete : (state.arrive input).completes input.succeeds = true
    · have empty : ∀ table, (state.arrive input).pending table = [] := fun table =>
        ((completes_iff _ _).mp complete table).resolve_right (by rw [down]; exact nofun)
      rw [backlog_flush_of_completes complete, backlog]
      simp only [empty, insertOrder, List.map_cons, List.map_nil, List.length_nil]
      rfl
    · exact backlog_flush_of_not_completes complete
  · rw [next]

/-- While every insert fails, the sink holds every row it has received. -/
theorem backlog_run_of_down [Zero Value] (cfg : SinkConfig) (inputs : List (SinkInput Value))
    (down : ∀ input ∈ inputs, ∀ table, input.succeeds table = false) :
    (sinkRun cfg inputs).backlog = (inputs.map SinkInput.size).sum := by
  induction inputs using List.reverseRecOn with
  | nil => rfl
  | append_singleton inputs last inductionHypothesis =>
    rw [sinkRun_concat, backlog_step_of_down cfg _ (down last (by simp)), List.map_append,
      List.sum_append, inductionHypothesis fun input member =>
        down input (List.mem_append_left _ member)]
    rfl

/-! ### While the backlog is relieved -/

/-- A backlog above the configured size is flushed out: the input starts a flush, and no insert of
it fails. -/
def Relieved [Zero Value] (cfg : SinkConfig) (state : SinkState Value)
    (input : SinkInput Value) : Prop :=
  cfg.maxBatchRows < state.backlog →
    (state.arrive input).wantsFlush cfg input = true ∧
      (state.arrive input).completes input.succeeds = true

/-- A relieved turn of the loop leaves at most one message above the configured size. -/
theorem backlog_step_of_relieved [Zero Value] {cfg : SinkConfig} {state : SinkState Value}
    {input : SinkInput Value} {largest : Nat} (relieved : state.Relieved cfg input)
    (small : input.size ≤ largest) :
    (state.step cfg input).backlog ≤ cfg.maxBatchRows + largest := by
  by_cases above : cfg.maxBatchRows < state.backlog
  · obtain ⟨wanted, complete⟩ := relieved above
    have flushed : state.step cfg input = (state.arrive input).flush input.succeeds := if_pos wanted
    rw [flushed, backlog_flush_of_completes complete]
    exact Nat.zero_le _
  · have grown := backlog_step_le cfg state input
    omega

/-- In a run whose turns are all relieved, at most one message is held above the configured size
between two turns. -/
theorem backlog_run_of_relieved [Zero Value] {cfg : SinkConfig} {inputs : List (SinkInput Value)}
    {largest : Nat} (small : ∀ input ∈ inputs, input.size ≤ largest)
    (relieved : ∀ before input, before ++ [input] <+: inputs →
      (sinkRun cfg before).Relieved cfg input) :
    (sinkRun cfg inputs).backlog ≤ cfg.maxBatchRows + largest := by
  rcases List.eq_nil_or_concat' inputs with rfl | ⟨before, last, rfl⟩
  · exact Nat.zero_le _
  · rw [sinkRun_concat]
    exact backlog_step_of_relieved (relieved before last List.prefix_rfl)
      (small last (List.mem_append_right _ (List.mem_singleton_self last)))

end SinkState

/-- Whatever the outcomes of the inserts, at every moment of a run in which a backlog above the
configured size is flushed out by the next input, the sink holds at most the configured size and
two messages. -/
theorem backlog_bounded_of_relieved [Zero Value] (cfg : SinkConfig)
    (inputs : List (SinkInput Value)) (final : Table → Bool) (largest : Nat)
    (small : ∀ input ∈ inputs, input.size ≤ largest)
    (relieved : ∀ before input, before ++ [input] <+: inputs →
      (sinkRun cfg before).Relieved cfg input)
    (received : List (SinkInput Value)) (state : SinkState Value)
    (moment : Moment cfg inputs final received state) :
    state.backlog ≤ cfg.maxBatchRows + 2 * largest := by
  have between : ∀ before, before <+: inputs →
      (sinkRun cfg before).backlog ≤ cfg.maxBatchRows + largest := fun before isPrefix =>
    SinkState.backlog_run_of_relieved (fun input member => small input (isPrefix.subset member))
      fun earlier input step => relieved earlier input (step.trans isPrefix)
  have arrived : ∀ before input, before ++ [input] <+: inputs →
      ((sinkRun cfg before).arrive input).backlog ≤ cfg.maxBatchRows + 2 * largest := by
    intro before input isPrefix
    have held := between before ((List.prefix_append _ _).trans isPrefix)
    have brought := small input (isPrefix.subset (List.mem_append_right _
      (List.mem_singleton_self input)))
    rw [SinkState.backlog_arrive]
    omega
  cases moment with
  | between isPrefix => exact (between _ isPrefix).trans (by omega)
  | arrived isPrefix => exact arrived _ _ isPrefix
  | flushing isPrefix => exact arrived _ _ isPrefix
  | closing => exact (between inputs List.prefix_rfl).trans (by omega)
  | closed =>
    have closed := (SinkState.backlog_flush_le final (sinkRun cfg inputs)).trans
      (between inputs List.prefix_rfl)
    exact closed.trans (by omega)

/-- A spike of some metric. -/
def spikeMessage : SinkMsg Int := .spike ⟨0, 0, 0, 0, 42, 90, 10, 1, 5⟩

/-- Two spikes while the buffer has the size of one, and a tick that stores them. -/
def twoSpikes : List (SinkInput Int) :=
  [.recv spikeMessage (fun _ => 0) fun _ => true, .recv spikeMessage (fun _ => 0) fun _ => true,
    .tick fun _ => true]

theorem twoSpikes_backlog_bounded :
    (sinkClosed ⟨1⟩ twoSpikes fun _ => true).backlog ≤ 1 + 2 * 1 := by
  refine backlog_bounded_of_relieved ⟨1⟩ twoSpikes (fun _ => true) 1 (by decide) ?_ _ _ .closed
  refine (forall_step_cons_iff _ _).mpr ⟨fun above => absurd above (by decide), ?_⟩
  refine (forall_step_cons_iff _ _).mpr ⟨fun above => absurd above (by decide), ?_⟩
  exact (forall_step_cons_iff _ _).mpr ⟨fun _ => ⟨rfl, rfl⟩, forall_step_nil⟩

/-- A spike and a tick, over and over, while the database is down. -/
def spikesWhileDown : Nat → List (SinkInput Int)
  | 0 => []
  | count + 1 =>
    .recv spikeMessage (fun _ => 0) (fun _ => false) :: .tick (fun _ => false) ::
      spikesWhileDown count

theorem mem_spikesWhileDown {count : Nat} {input : SinkInput Int}
    (member : input ∈ spikesWhileDown count) :
    (∀ table, input.succeeds table = false) ∧ input.size ≤ 1 := by
  induction count with
  | zero => exact absurd member List.not_mem_nil
  | succ count inductionHypothesis =>
    rcases List.mem_cons.mp member with rfl | later
    · exact ⟨fun _ => rfl, le_rfl⟩
    · rcases List.mem_cons.mp later with rfl | later
      · exact ⟨fun _ => rfl, Nat.zero_le _⟩
      · exact inductionHypothesis later

theorem sum_size_spikesWhileDown (count : Nat) :
    ((spikesWhileDown count).map SinkInput.size).sum = count := by
  induction count with
  | zero => rfl
  | succ count inductionHypothesis =>
    rw [spikesWhileDown, List.map_cons, List.map_cons, List.sum_cons, List.sum_cons,
      inductionHypothesis, SinkInput.size, SinkInput.size, spikeMessage, SinkMsg.size]
    omega

/-- While the database stays down, the spikes alone exceed any bound. -/
theorem exists_backlog_above :
    ¬ ∀ (cfg : SinkConfig) (largest : Nat), ∃ bound, ∀ (inputs : List (SinkInput Int))
        (final : Table → Bool), (∀ input ∈ inputs, input.size ≤ largest) →
      ∀ received state, Moment cfg inputs final received state → state.backlog ≤ bound := by
  intro bounded
  obtain ⟨bound, within⟩ := bounded ⟨50000⟩ 1
  have held := within (spikesWhileDown (bound + 1)) (fun _ => false)
    (fun input member => (mem_spikesWhileDown member).2) _ _ (.between List.prefix_rfl)
  rw [SinkState.backlog_run_of_down _ _ fun input member => (mem_spikesWhileDown member).1,
    sum_size_spikesWhileDown] at held
  exact absurd held (Nat.not_succ_le_self bound)

end PerfWeave
