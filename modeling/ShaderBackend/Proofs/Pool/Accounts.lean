import Mathlib.Data.List.Nodup
import ShaderBackend.Proofs.Pool.Journal

/-! What becomes of the tasks that are offered to a pool. Each accepted task is in one place, the
tasks start in the order in which they came, and nothing starts any more once a shutdown that joined
every worker has returned. -/
namespace ShaderBackend.Pool

/-- Where an accepted task may be. -/
inductive Place where
  | queued
  | running (worker : Nat)
  | finished (panicked : Bool)
  | dropped
  deriving DecidableEq, Repr

/-- A pool that has stopped, with nothing queued and every worker gone. -/
structure State.Closed (s : State) : Prop where
  stop : s.stop = true
  queue : s.queue = []
  gone : ∀ worker < s.workers.length, s.workers[worker]? = some .exited

namespace State.Closed

variable {s : State}

/-- In a closed pool no task runs, as no worker is left to run it. -/
theorem not_running (h : s.Closed) (task : Nat) : .running task ∉ s.workers := by
  intro hMem
  obtain ⟨worker, hInside, hRuns⟩ := List.mem_iff_getElem.1 hMem
  have hGone := h.gone worker hInside
  rw [List.getElem?_eq_getElem hInside, hRuns] at hGone
  cases hGone

/-- In a closed pool no task starts either. -/
theorem starts_eq_nil (h : s.Closed) (action : Action) : action.starts s = [] := by
  cases action with
  | lock worker =>
      have hIdle : s.taskOf? worker = none := by
        rw [State.taskOf?, Option.bind_eq_none_iff]
        intro w hAt
        have hInside := (List.getElem?_eq_some_iff.1 hAt).1
        cases hAt.symm.trans (h.gone worker hInside)
        rfl
      simp [Action.starts, hIdle]
  | offer | finish | beginShutdown | takeWorkers | join | clear => rfl

end State.Closed

/-- A closed pool stays closed, whatever else is called. -/
theorem Step.closed {s t : State} {event : Event} (h : Step s event t) (hClosed : s.Closed) :
    t.Closed := by
  obtain ⟨hStop, hQueue⟩ := h.drained hClosed.stop hClosed.queue
  refine ⟨hStop, hQueue, fun worker hInside => h.exited (hClosed.gone worker ?_)⟩
  rwa [← h.length_workers]

namespace Journal

/-- Whether a task is in a place. -/
def At (j : Journal) (task : Nat) : Place → Prop
  | .queued => task ∈ j.pool.queue
  | .running worker => j.pool.workers[worker]? = some (.running task)
  | .finished panicked => ⟨task, panicked⟩ ∈ j.endings
  | .dropped => task ∈ j.pool.dropped

/-- How often a task is found in the list that a place belongs to. -/
def copies (j : Journal) (task : Nat) : Place → Nat
  | .queued => j.pool.queue.count task
  | .running _ => j.pool.workers.count (.running task)
  | .finished _ => (j.endings.map Ending.task).count task
  | .dropped => j.pool.dropped.count task

theorem At.copies_pos {j : Journal} {task : Nat} {place : Place} (h : j.At task place) :
    0 < j.copies task place := by
  cases place with
  | queued | dropped => exact List.count_pos_iff.2 h
  | running => exact List.count_pos_iff.2 (List.mem_of_getElem? h)
  | finished => exact List.count_pos_iff.2 (List.mem_map.2 ⟨_, h, rfl⟩)

/-- Whether a shutdown has found every worker gone. -/
def JoinedAll (j : Journal) (call : Nat) : Prop :=
  ∀ worker < j.pool.workers.length, ⟨call, worker⟩ ∈ j.joins

namespace Faithful

variable {count : Nat} {j : Journal}

theorem orderly (hFaithful : j.Faithful count) : j.pool.Orderly := by
  obtain ⟨events, hRun⟩ := hFaithful.reached
  exact hRun.orderly

/-- Only accepted tasks start. -/
theorem length_starts_le (hFaithful : j.Faithful count) : j.starts.length ≤ j.accepted.length := by
  have hLength := congrArg List.length hFaithful.orderly.order
  have hStarted := congrArg List.length hFaithful.started
  rw [List.length_append, List.length_append, List.length_range, ← hFaithful.accepted] at hLength
  rw [List.length_map] at hStarted
  omega

/-- The tasks that were started are those that came first. -/
theorem started_eq_range (hFaithful : j.Faithful count) :
    j.starts.map Start.task = List.range j.starts.length := by
  have hPrefix : j.starts.map Start.task <+: List.range j.accepted.length := by
    rw [hFaithful.started, hFaithful.accepted, ← hFaithful.orderly.order, List.append_assoc]
    exact List.prefix_append ..
  rw [List.prefix_iff_eq_take.1 hPrefix, List.take_range, List.length_map,
    Nat.min_eq_left hFaithful.length_starts_le]

/-- Each accepted task is in one place, once. -/
theorem tally (hFaithful : j.Faithful count) {task : Nat} (hTask : task < j.accepted.length) :
    j.pool.queue.count task + j.pool.dropped.count task + (j.endings.map Ending.task).count task +
      j.pool.workers.count (.running task) = 1 := by
  have hOne : (List.range j.pool.accepted).count task = 1 :=
    List.count_eq_one_of_mem List.nodup_range
      (List.mem_range.2 (hFaithful.accepted ▸ hTask))
  have hHeld := hFaithful.orderly.held task
  rw [← hFaithful.orderly.order, List.count_append, List.count_append] at hOne
  rw [hFaithful.finished]
  omega

/-- An accepted task is somewhere: in the queue, running, ended or dropped. -/
theorem exists_place (hFaithful : j.Faithful count) {task : Nat}
    (hTask : task < j.accepted.length) : ∃ place, j.At task place := by
  have hTally := hFaithful.tally hTask
  by_cases hQueued : task ∈ j.pool.queue
  · exact ⟨.queued, hQueued⟩
  by_cases hDropped : task ∈ j.pool.dropped
  · exact ⟨.dropped, hDropped⟩
  by_cases hEnded : task ∈ j.endings.map Ending.task
  · obtain ⟨ending, hMem, rfl⟩ := List.mem_map.1 hEnded
    exact ⟨.finished ending.panicked, hMem⟩
  rw [List.count_eq_zero_of_not_mem hQueued, List.count_eq_zero_of_not_mem hDropped,
    List.count_eq_zero_of_not_mem hEnded] at hTally
  have hRunning : .running task ∈ j.pool.workers := List.count_pos_iff.1 (by omega)
  obtain ⟨worker, hRuns⟩ := List.mem_iff_getElem?.1 hRunning
  exact ⟨.running worker, hRuns⟩

/-- No task starts twice. -/
theorem started_once (hFaithful : j.Faithful count) : (j.starts.map Start.task).Nodup := by
  rw [hFaithful.started_eq_range]
  exact List.nodup_range

/-- No task ends twice. -/
theorem finished_once (hFaithful : j.Faithful count) : (j.endings.map Ending.task).Nodup := by
  rw [List.nodup_iff_count_le_one]
  intro task
  have hHeld := hFaithful.orderly.held task
  have hStarted := List.nodup_iff_count_le_one.1 hFaithful.started_once task
  rw [hFaithful.started] at hStarted
  rw [hFaithful.finished]
  omega

/-- Nobody else runs the same task, and it ends once. -/
theorem place_unique (hFaithful : j.Faithful count) {task : Nat}
    (hTask : task < j.accepted.length) {first second : Place} (hFirst : j.At task first)
    (hSecond : j.At task second) : first = second := by
  have hTally := hFaithful.tally hTask
  have hFirstHere := hFirst.copies_pos
  have hSecondHere := hSecond.copies_pos
  cases first with
  | queued =>
      cases second with
      | queued => rfl
      | running | finished | dropped => simp only [copies] at hFirstHere hSecondHere; omega
  | running worker =>
      cases second with
      | running other =>
          have hSame := List.inj_on_of_nodup_map hFaithful.started_once
            (hFaithful.runner worker task hFirst) (hFaithful.runner other task hSecond) rfl
          rw [(Start.mk.inj hSame).1]
      | queued | finished | dropped => simp only [copies] at hFirstHere hSecondHere; omega
  | finished panicked =>
      cases second with
      | finished other =>
          have hSame := List.inj_on_of_nodup_map hFaithful.finished_once hFirst hSecond rfl
          rw [(Ending.mk.inj hSame).2]
      | queued | running | dropped => simp only [copies] at hFirstHere hSecondHere; omega
  | dropped =>
      cases second with
      | dropped => rfl
      | queued | running | finished => simp only [copies] at hFirstHere hSecondHere; omega

/-- What starts was accepted, so it was not rejected. -/
theorem started_accepted (hFaithful : j.Faithful count) {start : Start} (hMem : start ∈ j.starts) :
    ∃ offer, j.accepted[start.task]? = some offer ∧ offer ∉ j.rejected := by
  have hEarly : start.task < j.starts.length := by
    rw [← List.mem_range, ← hFaithful.started_eq_range]
    exact List.mem_map_of_mem hMem
  have hInside := Nat.lt_of_lt_of_le hEarly hFaithful.length_starts_le
  have hApart := (hFaithful.offers.nodup_iff.2 List.nodup_range).disjoint
  exact ⟨_, List.getElem?_eq_getElem hInside, hApart (List.getElem_mem hInside)⟩

/-- An offer is turned away exactly if some shutdown has begun before it. -/
theorem turned_away_iff (hFaithful : j.Faithful count) (notified : Option Nat) :
    j.step? (.offer notified) = some j.turnAway ↔ j.pool.shutdowns ≠ [] := by
  rw [← hFaithful.orderly.stop_iff]
  constructor
  · intro h
    obtain ⟨hStop, -⟩ | ⟨pool, -, hSame⟩ := step?_cases h
    · exact hStop
    · -- a recorded offer joins the accepted ones
      have hAccepted := congrArg (fun k => k.accepted.length) hSame
      simp [Journal.record, Journal.turnAway, Action.accepted] at hAccepted
  · intro hStop
    rw [step?, State.enqueue?_eq_none_of_stop hStop]
    exact if_pos (State.refuses_iff.2 hStop)

/-- A pool that nobody has shut down accepts every offer. -/
theorem open_accepts (hFaithful : j.Faithful count) (hNone : j.pool.shutdowns = []) :
    ∃ notified k, j.step? (.offer notified) = some k ∧ k.accepted = j.accepted ++ [j.offered] := by
  have hOpen : ¬ j.pool.stop = true := fun hStop => hFaithful.orderly.stop_iff.1 hStop hNone
  have hSome := mt State.enqueue?_firstWaiting?_eq_none_iff.1 hOpen
  obtain ⟨pool, hPool⟩ := Option.ne_none_iff_exists'.1 hSome
  have hEvent : j.pool.step? (Action.offer j.pool.firstWaiting?).event = some pool := hPool
  exact ⟨_, _, step?_of_pool hEvent, rfl⟩

/-- Once every worker was joined nobody is left to start anything. -/
theorem closed (hFaithful : j.Faithful count) {call : Nat} {caller : Caller}
    (hCall : j.pool.shutdowns[call]? = some ⟨caller, .returned⟩) (hJoined : j.JoinedAll call) :
    j.pool.Closed := by
  obtain ⟨hStop, hQueue⟩ := hFaithful.orderly.returned _ (List.mem_of_getElem? hCall) rfl
  exact ⟨hStop, hQueue, fun worker hInside => hFaithful.joined _ (hJoined worker hInside)⟩

end Faithful

section Steps

variable {j k : Journal} {action : Action}

/-- Tasks are dropped by a shutdown that clears the queue, and all of them at once. -/
theorem dropped_cases (h : j.step? action = some k) : k.pool.dropped = j.pool.dropped ∨
    ∃ call, action = .clear call ∧ k.pool.dropped = j.pool.dropped ++ j.pool.queue := by
  obtain ⟨-, rfl⟩ | ⟨pool, hPool, rfl⟩ := step?_cases h
  · exact .inl rfl
  · obtain hSame | ⟨call, -, hEvent, -, hDropped⟩ := (State.step_of_step? hPool).dropped_cases
    · exact .inl hSame
    · exact .inr ⟨call, Action.eq_clear_of_event hEvent, hDropped⟩

theorem step_closed {j k : Journal} {action : Action} (h : j.step? action = some k)
    (hClosed : j.pool.Closed) : k.pool.Closed ∧ k.starts = j.starts := by
  obtain ⟨-, rfl⟩ | ⟨pool, hPool, rfl⟩ := step?_cases h
  · exact ⟨hClosed, rfl⟩
  · have hAfter := (State.step_of_step? hPool).closed hClosed
    refine ⟨hAfter, ?_⟩
    show j.starts ++ action.starts pool = j.starts
    rw [hAfter.starts_eq_nil, List.append_nil]

/-- After the end no run starts anything. -/
theorem run_closed {j k : Journal} {actions : List Action} (run : j.run? actions = some k)
    (hClosed : j.pool.Closed) : k.pool.Closed ∧ k.starts = j.starts :=
  foldlM_invariant (P := fun k => k.pool.Closed ∧ k.starts = j.starts) run ⟨hClosed, rfl⟩
    fun h hBefore => (step_closed h hBefore.1).imp_right (·.trans hBefore.2)

end Steps

/-- What became of the tasks that were offered. -/
structure Accounts (j : Journal) : Prop where
  /-- Each offer was accepted or rejected, and only once. -/
  offers : (j.accepted ++ j.rejected).Perm (List.range j.offered)
  place : ∀ task < j.accepted.length, ∃! place, j.At task place
  /-- No task was started twice, and whoever runs a task is the worker that started it. -/
  once : (j.starts.map Start.task).Nodup
  runner : ∀ worker task, j.At task (.running worker) → ⟨worker, task⟩ ∈ j.starts
  /-- The tasks were started in the order in which they were accepted. -/
  fifo : j.starts.map Start.task = List.range j.starts.length
  /-- Only accepted offers were started. -/
  started : ∀ start ∈ j.starts, ∃ offer, j.accepted[start.task]? = some offer ∧ offer ∉ j.rejected
  /-- Only the last section of a shutdown drops tasks. -/
  dropped : ∀ action k, j.step? action = some k → k.pool.dropped = j.pool.dropped ∨
    ∃ call, action = .clear call ∧ k.pool.dropped = j.pool.dropped ++ j.pool.queue
  /-- An offer is rejected exactly if a shutdown has begun. -/
  turnedAway : ∀ notified, j.step? (.offer notified) = some j.turnAway ↔ j.pool.shutdowns ≠ []
  openAccepts : j.pool.shutdowns = [] →
    ∃ notified k, j.step? (.offer notified) = some k ∧ k.accepted = j.accepted ++ [j.offered]
  /-- A shutdown that joined every worker and returned leaves nothing to run, for ever. -/
  quiet : ∀ call caller, j.pool.shutdowns[call]? = some ⟨caller, .returned⟩ → j.JoinedAll call →
    ∀ actions k, j.run? actions = some k →
      k.pool.queue = [] ∧ (∀ task, .running task ∉ k.pool.workers) ∧ k.starts = j.starts

/-- Every journal of a pool accounts for its tasks, whatever its callers and its workers did. -/
theorem accounts {count : Nat} {actions : List Action} {j : Journal}
    (run : (initial count).run? actions = some j) : j.Accounts := by
  have hFaithful := Faithful.of_run? run
  exact
    { offers := hFaithful.offers
      place := fun task hTask => by
        obtain ⟨place, hPlace⟩ := hFaithful.exists_place hTask
        exact ⟨place, hPlace, fun other hOther => hFaithful.place_unique hTask hOther hPlace⟩
      once := hFaithful.started_once
      runner := hFaithful.runner
      fifo := hFaithful.started_eq_range
      started := fun start hMem => hFaithful.started_accepted hMem
      dropped := fun action k h => dropped_cases h
      turnedAway := hFaithful.turned_away_iff
      openAccepts := hFaithful.open_accepts
      quiet := fun call caller hCall hJoined actions k hRun => by
        obtain ⟨hClosed, hStarts⟩ := run_closed hRun (hFaithful.closed hCall hJoined)
        exact ⟨hClosed.queue, hClosed.not_running, hStarts⟩ }

/-- Two workers. The first task panics after the pool has stopped, the second is never taken, and
the third comes too late. -/
def latePanic : List Action :=
  [.offer none, .offer none, .lock 0, .beginShutdown .outside, .offer none, .lock 1,
    .takeWorkers 0, .finish 0 true, .lock 0, .join 0, .join 0, .clear 0]

def afterLatePanic : Journal :=
  { pool :=
      { workers := [.exited, .exited], stop := true, busy := 0, joinable := [], accepted := 2
        started := [0], finished := [0], dropped := [1], shutdowns := [⟨.outside, .returned⟩] }
    offered := 3, accepted := [0, 1], rejected := [2], starts := [⟨0, 0⟩], endings := [⟨0, true⟩]
    joins := [⟨0, 0⟩, ⟨0, 1⟩] }

/-- The panic ends its task like any other end, the second task is dropped, and the third is turned
away. -/
theorem accounts_latePanic :
    (initial 2).run? latePanic = some afterLatePanic ∧
    (∃! place, afterLatePanic.At 1 place) ∧
    (afterLatePanic.step? (.offer none) = some afterLatePanic.turnAway) ∧
    ∀ actions k, afterLatePanic.run? actions = some k → k.starts = [⟨0, 0⟩] := by
  have hRun : (initial 2).run? latePanic = some afterLatePanic := rfl
  have hAccounts := accounts hRun
  have hJoined : afterLatePanic.JoinedAll 0 := by
    show ∀ worker < 2, ⟨0, worker⟩ ∈ afterLatePanic.joins
    decide
  refine ⟨hRun, hAccounts.place 1 (by decide), (hAccounts.turnedAway none).2 (by decide), ?_⟩
  intro actions k hRest
  exact (hAccounts.quiet 0 .outside rfl hJoined actions k hRest).2.2

end Journal

end ShaderBackend.Pool
