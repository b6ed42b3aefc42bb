/-
This file models how the injector connects to the agent: `connect` and `reconnect` of
`perfweave-cupti-inject/src/transport.rs`, one loop under two budgets. Times are in nanoseconds.
The clock is an input by its advances: how long a turn of the loop takes until it reads the clock,
and by how much a sleep exceeds what it was asked for. Every clock that does not go back, with
sleeps that are not cut short, advances like this. The loop has no counter, and it recurses on the
time left to its deadline: a sleep is never of no time, because the deadline is still ahead and a
back-off is never below its least value.
-/

import PerfWeave.Inject.Ship

namespace PerfWeave

namespace Transport

variable {Stream Failure : Type}

/-! ### The back-off -/

/-- Milliseconds in nanoseconds. -/
def milliseconds (ms : Nat) : Nat := ms * 1000000

/-- `INIT_BUDGET`. -/
def initBudget : Nat := milliseconds 10000

/-- `MIN_BACKOFF`. -/
def minBackoff : Nat := milliseconds 50

/-- `MAX_BACKOFF`. -/
def maxBackoff : Nat := milliseconds 500

/-- A back-off between its bounds. -/
structure Backoff where
  ns : Nat
  atLeast : minBackoff ≤ ns
  atMost : ns ≤ maxBackoff

/-- The first back-off. -/
def Backoff.first : Backoff := ⟨minBackoff, le_rfl, by decide⟩

/-- The back-off after this one. -/
def Backoff.next (backoff : Backoff) : Backoff :=
  ⟨min (backoff.ns * 2) maxBackoff,
    le_min (by have := backoff.atLeast; omega) (by decide), min_le_right _ _⟩

theorem Backoff.pos (backoff : Backoff) : 0 < backoff.ns :=
  lt_of_lt_of_le (by decide) backoff.atLeast

/-! ### The loop -/

/-- `AgentConn`. -/
structure AgentConn (Stream : Type) where
  stream : Stream

/-- What a turn of the loop meets: `PERFWEAVE_CUPTI_SOCK`, when it is set, the answers of
`UnixStream::connect` and of `set_nonblocking`, the time until the clock is read, and the time by
which a sleep is longer than requested. -/
structure Turn (Stream Failure : Type) where
  cuptiSock : Option String
  connect : String → Except Failure Stream
  setNonblocking : Except Failure Unit
  elapsed : Nat
  oversleep : Nat

/-- The attempt of a turn, at the path of its environment. -/
def Turn.attempt (turn : Turn Stream Failure) : Except Failure Stream :=
  turn.connect (turn.cuptiSock.getD "/tmp/perfweave.cupti.sock")

/-- A sleep: what is requested, and what is left to the deadline at that moment. -/
structure Sleep where
  requested : Nat
  left : Nat

/-- What connecting does: its attempts and its sleeps in order, and what it returns, nothing when
it panics. -/
structure Connecting (Stream Failure : Type) where
  attempts : List (Except Failure Stream)
  sleeps : List Sleep
  returned : Option (Except Failure (AgentConn Stream))

/-- The loop of `connect` and `reconnect`, from a turn on. -/
def connectLoop (turns : Nat → Turn Stream Failure) (deadline turn clock : Nat) (backoff : Backoff)
    (lastErr : Option Failure) : Connecting Stream Failure :=
  match (turns turn).attempt with
  | .ok stream =>
    ⟨[.ok stream], [], some ((turns turn).setNonblocking.map fun _ => ⟨stream⟩)⟩
  | .error e =>
    let now := clock + (turns turn).elapsed
    if deadline ≤ now then ⟨[.error e], [], some (.error (lastErr.getD e))⟩
    else
      let sleep := min backoff.ns (deadline - now)
      let rest := connectLoop turns deadline (turn + 1) (now + sleep + (turns turn).oversleep)
        backoff.next (some e)
      ⟨.error e :: rest.attempts, ⟨sleep, deadline - now⟩ :: rest.sleeps, rest.returned⟩
termination_by deadline - clock
decreasing_by
  have := backoff.pos
  omega

/-- What the two functions find: the clock, the last instant it can tell, and their turns. -/
structure World (Stream Failure : Type) where
  start : Nat
  lastInstant : Nat
  turns : Nat → Turn Stream Failure

/-- The common body of `connect` and `reconnect`. A deadline beyond the last instant is a sum that
panics before any attempt. -/
def connectWithin (world : World Stream Failure) (budget : Nat) : Connecting Stream Failure :=
  if world.start + budget ≤ world.lastInstant then
    connectLoop world.turns (world.start + budget) 0 world.start .first none
  else ⟨[], [], none⟩

/-- `connect`. -/
def connect (world : World Stream Failure) : Connecting Stream Failure :=
  connectWithin world initBudget

/-- `reconnect`. -/
def reconnect (world : World Stream Failure) (budget : Nat) : Connecting Stream Failure :=
  connectWithin world budget

/-! ### Its attempts and sleeps -/

/-- At a clock past the deadline there is one attempt left. -/
theorem connectLoop_attempts_of_late (turns : Nat → Turn Stream Failure)
    {deadline clock : Nat} (late : deadline ≤ clock) (turn : Nat) (backoff : Backoff)
    (lastErr : Option Failure) :
    (connectLoop turns deadline turn clock backoff lastErr).attempts.length = 1 := by
  rw [connectLoop]
  cases (turns turn).attempt with
  | ok stream => rfl
  | error e =>
    dsimp only
    rw [if_pos (by omega)]
    rfl

/-- A turn that sleeps has either slept for a whole back-off or come to the deadline, where one more
attempt is the last. -/
theorem connectLoop_attempts_le (turns : Nat → Turn Stream Failure)
    (deadline turn clock : Nat) (backoff : Backoff) (lastErr : Option Failure) :
    (connectLoop turns deadline turn clock backoff lastErr).attempts.length ≤
      (deadline - clock) / minBackoff + 2 := by
  fun_induction connectLoop turns deadline turn clock backoff lastErr with
  | case1 => simp
  | case2 => simp
  | case3 turn clock backoff lastErr e attempted now early sleep rest inductionHypothesis =>
    have whole := backoff.atLeast
    have started : clock ≤ now := Nat.le_add_right _ _
    have later : rest.attempts.length ≤
      (deadline - (now + sleep + (turns turn).oversleep)) / minBackoff + 2 := inductionHypothesis
    show rest.attempts.length + 1 ≤ _
    rcases Nat.lt_or_ge (deadline - now) backoff.ns with cut | full
    · have slept : sleep = deadline - now := Nat.min_eq_right cut.le
      have last : rest.attempts.length = 1 :=
        connectLoop_attempts_of_late turns (by omega) _ _ _
      rw [last]
      exact Nat.le_add_left _ _
    · have slept : sleep = backoff.ns := Nat.min_eq_left full
      unfold minBackoff milliseconds at whole later ⊢
      clear_value rest sleep now
      omega

/-- A sleep is requested before the deadline, and for no longer than until then. -/
theorem connectLoop_sleeps (turns : Nat → Turn Stream Failure)
    (deadline turn clock : Nat) (backoff : Backoff) (lastErr : Option Failure) :
    ∀ sleep ∈ (connectLoop turns deadline turn clock backoff lastErr).sleeps,
      0 < sleep.requested ∧ sleep.requested ≤ sleep.left := by
  fun_induction connectLoop turns deadline turn clock backoff lastErr with
  | case1 => simp
  | case2 => simp
  | case3 turn clock backoff lastErr e attempted now early sleep rest inductionHypothesis =>
    intro requested member
    rcases List.mem_cons.mp member with rfl | later
    · have some := backoff.pos
      exact ⟨lt_min some (by omega), min_le_right _ _⟩
    · exact inductionHypothesis requested later

/-- All sleeps together are requested for no longer than what is left at first. -/
theorem connectLoop_slept_le (turns : Nat → Turn Stream Failure)
    (deadline turn clock : Nat) (backoff : Backoff) (lastErr : Option Failure) :
    ((connectLoop turns deadline turn clock backoff lastErr).sleeps.map Sleep.requested).sum ≤
      deadline - clock := by
  fun_induction connectLoop turns deadline turn clock backoff lastErr with
  | case1 => simp
  | case2 => simp
  | case3 turn clock backoff lastErr e attempted now early sleep rest inductionHypothesis =>
    have started : clock ≤ now := Nat.le_add_right _ _
    have slept : sleep ≤ deadline - now := min_le_right _ _
    have later : (rest.sleeps.map Sleep.requested).sum ≤
      deadline - (now + sleep + (turns turn).oversleep) := inductionHypothesis
    rw [List.map_cons, List.sum_cons]
    show sleep + (rest.sleeps.map Sleep.requested).sum ≤ _
    clear_value rest sleep now
    omega

/-! ### Its result -/

/-- It returns a connection. -/
def Connecting.Succeeds (run : Connecting Stream Failure) : Prop :=
  ∃ conn, run.returned = some (.ok conn)

/-- A turn, as `ship` sees it. -/
def Turn.outcome (turn : Turn Stream Failure) : ConnectAttempt :=
  match turn.attempt with
  | .ok _ => .connected turn.setNonblocking.isOk
  | .error _ => .refused

/-- What the turns come to is what `ship` takes them to come to. -/
theorem connectLoop_refines_ship (turns : Nat → Turn Stream Failure)
    (deadline turn clock : Nat) (backoff : Backoff) (lastErr : Option Failure) :
    (connectLoop turns deadline turn clock backoff lastErr).Succeeds ↔
      PerfWeave.reconnect ((List.range' turn
        (connectLoop turns deadline turn clock backoff lastErr).attempts.length).map
          fun index => (turns index).outcome) = true := by
  fun_induction connectLoop turns deadline turn clock backoff lastErr with
  | case1 turn clock backoff lastErr stream attempted =>
    rw [List.length_singleton, List.range'_one, List.map_singleton, Turn.outcome, attempted]
    show _ ↔ (turns turn).setNonblocking.isOk = true
    cases made : (turns turn).setNonblocking with
    | ok => exact iff_of_true ⟨⟨stream⟩, rfl⟩ rfl
    | error e => simp [Connecting.Succeeds, Except.map, Except.isOk, Except.toBool]
  | case2 turn clock backoff lastErr e attempted now late =>
    simp [Connecting.Succeeds, Turn.outcome, attempted, PerfWeave.reconnect]
  | case3 turn clock backoff lastErr e attempted now early sleep rest inductionHypothesis =>
    rw [List.length_cons, List.range'_succ, List.map_cons, Turn.outcome, attempted]
    exact inductionHypothesis

/-! ### Both functions -/

/-- Connecting keeps to its budget: few attempts, and no sleep past the deadline. -/
structure Connecting.KeepsBudget (run : Connecting Stream Failure) (budget : Nat) : Prop where
  attempts_le : run.attempts.length ≤ budget / minBackoff + 2
  sleeps : ∀ sleep ∈ run.sleeps, 0 < sleep.requested ∧ sleep.requested ≤ sleep.left
  slept_le : (run.sleeps.map Sleep.requested).sum ≤ budget

/-- It returns a connection exactly when the attempt of a turn it takes succeeds. -/
def Connecting.ReturnsAttempt (run : Connecting Stream Failure)
    (turns : Nat → Turn Stream Failure) : Prop :=
  run.Succeeds ↔ ∃ index < run.attempts.length, (turns index).attempt.isOk

theorem connectWithin_keepsBudget (world : World Stream Failure) (budget : Nat) :
    (connectWithin world budget).KeepsBudget budget := by
  unfold connectWithin
  split
  · have left : world.start + budget - world.start = budget := Nat.add_sub_cancel_left _ _
    have attempts := connectLoop_attempts_le world.turns (world.start + budget) 0 world.start
      .first none
    have slept := connectLoop_slept_le world.turns (world.start + budget) 0 world.start .first none
    rw [left] at attempts slept
    exact ⟨attempts, connectLoop_sleeps _ _ _ _ _ _, slept⟩
  · exact ⟨Nat.zero_le _, by simp, Nat.zero_le _⟩

/-- The attempts of `ship` stand for the turns that connecting takes. -/
theorem connectWithin_refines_ship (world : World Stream Failure) (budget : Nat) :
    (connectWithin world budget).Succeeds ↔
      PerfWeave.reconnect ((List.range' 0 (connectWithin world budget).attempts.length).map
        fun index => (world.turns index).outcome) = true := by
  unfold connectWithin
  split
  · exact connectLoop_refines_ship _ _ _ _ _ _
  · simp [Connecting.Succeeds, PerfWeave.reconnect]

/-- With every connection made blocking, a turn comes to what its attempt does. -/
theorem Turn.outcome_of_blocking {turn : Turn Stream Failure}
    (madeBlocking : turn.setNonblocking = .ok ()) :
    turn.outcome = if turn.attempt.isOk then .connected true else .refused := by
  unfold outcome
  rw [madeBlocking]
  cases turn.attempt <;> rfl

theorem connectWithin_returnsAttempt {world : World Stream Failure}
    (madeBlocking : ∀ index, (world.turns index).setNonblocking = .ok ()) (budget : Nat) :
    (connectWithin world budget).ReturnsAttempt world.turns := by
  have refused : ∀ attempt ∈ (List.range' 0 (connectWithin world budget).attempts.length).map
      (fun index => (world.turns index).outcome), attempt ≠ .connected false := by
    intro attempt member
    obtain ⟨index, _, rfl⟩ := List.mem_map.mp member
    rw [Turn.outcome_of_blocking (madeBlocking index)]
    split <;> nofun
  rw [Connecting.ReturnsAttempt, connectWithin_refines_ship, reconnect_iff_connected refused]
  simp [Turn.outcome_of_blocking (madeBlocking _)]

/-- Connecting returns, whatever the attempts come to, unless there is no such deadline. -/
theorem connectWithin_returns_iff (world : World Stream Failure) (budget : Nat) :
    (connectWithin world budget).returned.isSome ↔ world.start + budget ≤ world.lastInstant := by
  have returns : ∀ deadline turn clock backoff lastErr,
      (connectLoop world.turns deadline turn clock backoff lastErr).returned.isSome := by
    intro deadline turn clock backoff lastErr
    fun_induction connectLoop world.turns deadline turn clock backoff lastErr with
    | case1 | case2 => rfl
    | case3 _ _ _ _ _ _ _ _ _ _ inductionHypothesis => exact inductionHypothesis
  unfold connectWithin
  split
  next inRange => exact iff_of_true (returns _ _ _ _ _) inRange
  next beyond => exact iff_of_false Bool.false_ne_true beyond

/-- Connecting makes a bounded number of attempts and sleeps for some of its time left, and with
every connection made blocking it returns one exactly when an attempt succeeded. -/
theorem connect_reconnect_bounded (world : World Stream Failure) (budget : Nat) :
    (connect world).KeepsBudget initBudget ∧ (reconnect world budget).KeepsBudget budget ∧
      ((∀ index, (world.turns index).setNonblocking = .ok ()) →
        (connect world).ReturnsAttempt world.turns ∧
          (reconnect world budget).ReturnsAttempt world.turns) :=
  ⟨connectWithin_keepsBudget world initBudget, connectWithin_keepsBudget world budget,
    fun madeBlocking => ⟨connectWithin_returnsAttempt madeBlocking initBudget,
      connectWithin_returnsAttempt madeBlocking budget⟩⟩

/-- An agent that comes up after the first attempt. -/
def lateAgent : World Unit Unit where
  start := 0
  lastInstant := 2 ^ 64
  turns index := ⟨none, fun _ => if index = 0 then .error () else .ok (), .ok (), 0, 0⟩

theorem connect_reconnect_bounded_lateAgent :
    (connect lateAgent).attempts.length ≤ 202 ∧ (connect lateAgent).Succeeds := by
  have bounded := connect_reconnect_bounded lateAgent 0
  refine ⟨bounded.1.attempts_le, (bounded.2.2 fun _ => rfl).1.mpr ⟨1, ?_, rfl⟩⟩
  simp [connect, connectWithin, connectLoop, Turn.attempt, lateAgent, initBudget, milliseconds]

end Transport

end PerfWeave
