import ShaderBackend.Proofs.Pool.Journal
import ShaderBackend.Proofs.Pool.Verdicts

/-! What a pool still does once the stop flag is up. A worker inside the wait may take one task when
it wakes, and leaves after that; every other worker only leaves. What nobody takes is dropped. -/
namespace ShaderBackend.Pool

/-- What a worker may be once the pool stops and it has taken its last task. -/
inductive Worker.Leaves (task : Nat) : Worker → Prop where
  | running : Leaves task (.running task)
  | ready : Leaves task .ready
  | exited : Leaves task .exited

theorem Worker.Leaves.insideWait {task : Nat} {w : Worker} (h : w.Leaves task) :
    w.insideWait = false := by
  cases h <;> rfl

/-- Waking tells a worker and leaves it inside the wait. -/
theorem insideWait_wake (w : Worker) : (State.wake w).insideWait = w.insideWait := by
  cases w <;> rfl

theorem countP_insideWait_map_wake (workers : List Worker) :
    (workers.map State.wake).countP Worker.insideWait = workers.countP Worker.insideWait := by
  rw [List.countP_map]
  exact congrArg (workers.countP ·) (funext insideWait_wake)

namespace State

/-- How many tasks a worker can start once the pool stops. -/
def turns (s : State) (worker : Nat) : Nat :=
  if s.workers[worker]?.any Worker.insideWait then 1 else 0

/-- The worker of a start is done with starting. -/
def Leaves (s : State) (start : Start) : Prop :=
  ∃ w, s.workers[start.worker]? = some w ∧ w.Leaves start.task

/-- A worker has at most one turn left, and has it only inside the wait. -/
theorem turns_le_one (s : State) (worker : Nat) : s.turns worker ≤ 1 := by
  rw [turns]
  split
  · exact le_rfl
  · exact Nat.zero_le 1

theorem turns_of_getElem? {s : State} {worker : Nat} {w : Worker}
    (h : s.workers[worker]? = some w) : s.turns worker = if w.insideWait then 1 else 0 := by
  rw [turns, h, Option.any_some]

end State

/-- What a section does to the workers of a pool that has stopped, and what it starts. -/
inductive Winds (s : State) : List Start → List Worker → Prop where
  | start {worker task : Nat} {rest : List Nat} {old : Worker} (hQueue : s.queue = task :: rest)
      (hOld : s.workers[worker]? = some old) (hInside : old.insideWait = true) :
      Winds s [⟨worker, task⟩] (s.workers.set worker (.running task))
  | leave {worker : Nat} {old : Worker} (hOld : s.workers[worker]? = some old)
      (hIdle : old.task? = none) : Winds s [] (s.workers.set worker .exited)
  | finish {worker task : Nat} (hOld : s.workers[worker]? = some (.running task)) :
      Winds s [] (s.workers.set worker .ready)
  | wake : Winds s [] (s.workers.map State.wake)
  | stay : Winds s [] s.workers

/-- What a section starts, given the pool afterwards. -/
def Event.starts (after : State) : Event → List Start
  | .lock worker => (after.taskOf? worker).toList.map (⟨worker, ·⟩)
  | _ => []

/-- What a journal records as a start is one by the transition alone. -/
theorem Action.starts_eq (action : Action) (after : State) :
    action.starts after = action.event.starts after := by
  cases action <;> rfl

namespace Step

variable {s t : State} {event : Event}

/-- Starts are those of the transitions, in their order. -/
theorem started_append (h : Step s event t) :
    t.started = s.started ++ (event.starts t).map Start.task := by
  obtain ⟨action, rfl⟩ := event.exists_action
  rw [← action.starts_eq]
  exact h.started_eq

/-- In a stopped pool a worker that starts a task comes from the wait, and none goes back into
it. -/
theorem winds (h : Step s event t) (hStop : s.stop = true) :
    Winds s (event.starts t) t.workers := by
  cases h with
  | accept hOpen | acceptNotify hOpen | wait hOpen | take hOpen | wakeWait hOpen =>
      cases hOpen.symm.trans hStop
  | leave _ hOld =>
      simpa [Event.starts, State.taskOf?, bind_task?_set hOld] using Winds.leave hOld rfl
  | wakeLeave _ _ hOld hInside =>
      simpa [Event.starts, State.taskOf?, bind_task?_set hOld] using
        Winds.leave hOld (Worker.task?_of_insideWait hInside)
  | wakeTake hQueue hOld hInside =>
      simpa [Event.starts, State.taskOf?, bind_task?_set hOld] using
        Winds.start hQueue hOld hInside
  | finish _ hOld => exact .finish hOld
  | beginShutdown => exact .wake
  | takeWorkers | join | clear => exact .stay

/-- A pool that has stopped accepts nothing and does not go on again. -/
theorem stays_stopped (h : Step s event t) (hStop : s.stop = true) :
    t.stop = true ∧ t.accepted = s.accepted := by
  cases h with
  | accept hOpen | acceptNotify hOpen => cases hOpen.symm.trans hStop
  | beginShutdown => exact ⟨rfl, rfl⟩
  | leave | wait | take | wakeTake | wakeLeave | wakeWait | finish | takeWorkers | join | clear =>
      exact ⟨hStop, rfl⟩

/-- A shutdown that begins wakes all workers and takes nothing from the queue. -/
theorem of_beginShutdown {caller : Caller} (h : Step s (.beginShutdown caller) t) :
    t.stop = true ∧ t.queue = s.queue ∧ t.started = s.started ∧
      t.workers = s.workers.map State.wake := by
  cases h
  exact ⟨rfl, rfl, rfl, rfl⟩

end Step

namespace Winds

variable {s t : State} {starts : List Start}

/-- A start takes the turn of a worker, and no worker gets a new one. -/
theorem turns_le (h : Winds s starts t.workers) (worker : Nat) :
    (starts.map Start.worker).count worker + t.turns worker ≤ s.turns worker := by
  have hSet {index : Nat} {old new : Worker} (hOld : s.workers[index]? = some old)
      (hAfter : t.workers = s.workers.set index new) :
      t.turns worker = if index = worker then (if new.insideWait then 1 else 0)
        else s.turns worker := by
    obtain ⟨hInside, -⟩ := List.getElem?_eq_some_iff.1 hOld
    rw [State.turns, hAfter]
    by_cases hSame : index = worker
    · rw [if_pos hSame, ← hSame, List.getElem?_set_self hInside, Option.any_some]
    · rw [if_neg hSame, List.getElem?_set_ne hSame, State.turns]
  generalize hWorkers : t.workers = workers at h
  cases h with
  | @start index task rest old hQueue hOld hInside =>
      rw [hSet hOld hWorkers]
      by_cases hSame : index = worker
      · subst hSame
        simp [State.turns_of_getElem? hOld, hInside, Worker.Leaves.running.insideWait]
      · simp [hSame]
  | leave hOld | finish hOld =>
      rw [hSet hOld hWorkers]
      split
      · exact Nat.zero_le _
      · simp
  | wake =>
      simp [State.turns, hWorkers, Option.any_map, insideWait_wake]
  | stay => simp [State.turns, hWorkers]

/-- Each start leaves one worker fewer inside the wait. -/
theorem length_add_countP_le (h : Winds s starts t.workers) :
    starts.length + t.workers.countP Worker.insideWait ≤ s.workers.countP Worker.insideWait := by
  have hSet {index : Nat} {old : Worker} (hOld : s.workers[index]? = some old) (new : Worker)
      (hNew : new.insideWait = false) :
      (s.workers.set index new).countP Worker.insideWait + (if old.insideWait then 1 else 0) =
        s.workers.countP Worker.insideWait := by
    simpa [hNew] using countP_set_add Worker.insideWait hOld new
  generalize t.workers = workers at h
  rw [Nat.add_comm]
  cases h with
  | @start _ task _ _ _ hOld hInside =>
      have hCount := hSet hOld (.running task) rfl
      rw [if_pos hInside] at hCount
      exact hCount.le
  | leave hOld => exact Nat.le.intro (hSet hOld .exited rfl)
  | finish hOld => exact Nat.le.intro (hSet hOld .ready rfl)
  | wake => exact (countP_insideWait_map_wake s.workers).le
  | stay => exact le_rfl

/-- A worker that is done with starting stays so, and one that starts a task is done. -/
theorem leaves (h : Winds s starts t.workers) {start : Start}
    (hStart : s.Leaves start ∨ start ∈ starts) : t.Leaves start := by
  rw [State.Leaves]
  generalize t.workers = workers at h
  have hSet {index : Nat} {old new : Worker} (hOld : s.workers[index]? = some old)
      (hLater : s.Leaves start) (hNew : ∀ task, old.Leaves task → new.Leaves task) :
      ∃ w, (s.workers.set index new)[start.worker]? = some w ∧ w.Leaves start.task := by
    obtain ⟨w, hAt, hLeaves⟩ := hLater
    obtain ⟨hInside, -⟩ := List.getElem?_eq_some_iff.1 hOld
    by_cases hSame : index = start.worker
    · rw [hSame] at hOld hInside
      cases hOld.symm.trans hAt
      exact ⟨new, by rw [hSame, List.getElem?_set_self hInside], hNew _ hLeaves⟩
    · exact ⟨w, by rw [List.getElem?_set_ne hSame, hAt], hLeaves⟩
  cases h with
  | @start index task rest old hQueue hOld hInside =>
      obtain hBefore | hNew := hStart
      · refine hSet hOld hBefore fun task hLeaves => ?_
        cases hInside.symm.trans hLeaves.insideWait
      · obtain rfl := List.mem_singleton.1 hNew
        obtain ⟨hInside, -⟩ := List.getElem?_eq_some_iff.1 hOld
        exact ⟨_, List.getElem?_set_self hInside, .running⟩
  | leave hOld => exact hSet hOld (hStart.resolve_right List.not_mem_nil) fun _ _ => .exited
  | finish hOld => exact hSet hOld (hStart.resolve_right List.not_mem_nil) fun _ _ => .ready
  | wake =>
      obtain ⟨w, hAt, hLeaves⟩ := hStart.resolve_right List.not_mem_nil
      refine ⟨State.wake w, by rw [List.getElem?_map, hAt, Option.map_some], ?_⟩
      cases hLeaves with
      | running => exact .running
      | ready => exact .ready
      | exited => exact .exited
  | stay => exact hStart.resolve_right List.not_mem_nil

end Winds

/-- What a stopped pool has come to after these starts. -/
structure WoundDown (s : State) (starts : List Start) (t : State) : Prop where
  stop : t.stop = true
  accepted : t.accepted = s.accepted
  started : t.started = s.started ++ starts.map Start.task
  drained : s.queue = [] → starts = [] ∧ t.queue = []
  turns : ∀ worker, (starts.map Start.worker).count worker + t.turns worker ≤ s.turns worker
  length_add_countP_le :
    starts.length + t.workers.countP Worker.insideWait ≤ s.workers.countP Worker.insideWait
  leaves : ∀ start, s.Leaves start ∨ start ∈ starts → t.Leaves start

namespace WoundDown

variable {s t u : State} {starts later : List Start}

/-- Where nothing has happened, nothing has started. -/
theorem refl (hStop : s.stop = true) : WoundDown s [] s where
  stop := hStop
  accepted := rfl
  started := (List.append_nil _).symm
  drained hQueue := ⟨rfl, hQueue⟩
  turns _ := (Nat.zero_add _).le
  length_add_countP_le := (Nat.zero_add _).le
  leaves _ hStart := hStart.resolve_right List.not_mem_nil

/-- One step of a stopped pool winds it down. -/
theorem of_step {event : Event} (h : Step s event t) (hStop : s.stop = true) :
    WoundDown s (event.starts t) t where
  stop := (h.stays_stopped hStop).1
  accepted := (h.stays_stopped hStop).2
  started := h.started_append
  drained hQueue := by
    refine ⟨?_, (h.drained hStop hQueue).2⟩
    have hWinds := h.winds hStop
    generalize event.starts t = starts, t.workers = workers at hWinds
    cases hWinds with
    | start hSome => cases hQueue.symm.trans hSome
    | leave | finish | wake | stay => rfl
  turns := (h.winds hStop).turns_le
  length_add_countP_le := (h.winds hStop).length_add_countP_le
  leaves _ := (h.winds hStop).leaves

/-- And so do many, one after the other. -/
theorem trans (h : WoundDown s starts t) (hLater : WoundDown t later u) :
    WoundDown s (starts ++ later) u where
  stop := hLater.stop
  accepted := hLater.accepted.trans h.accepted
  started := by rw [hLater.started, h.started, List.map_append, List.append_assoc]
  drained hQueue := by
    obtain ⟨rfl, hEmpty⟩ := h.drained hQueue
    exact hLater.drained hEmpty
  turns worker := by
    have hFirst := h.turns worker
    have hRest := hLater.turns worker
    rw [List.map_append, List.count_append]
    omega
  length_add_countP_le := by
    have hFirst := h.length_add_countP_le
    have hRest := hLater.length_add_countP_le
    rw [List.length_append]
    omega
  leaves start hStart := by
    refine hLater.leaves start ?_
    rw [List.mem_append, ← or_assoc] at hStart
    exact hStart.imp_left (h.leaves start)

/-- The starts take the tasks from the front of the queue. -/
theorem order (h : WoundDown s starts t) (hBefore : s.Orderly) (hAfter : t.Orderly) :
    starts.map Start.task = s.queue.take starts.length ∧
      t.dropped ++ t.queue = s.dropped ++ s.queue.drop starts.length := by
  have hOrder : starts.map Start.task ++ (t.dropped ++ t.queue) = s.dropped ++ s.queue := by
    have hAll := hAfter.order.trans ((congrArg List.range h.accepted).trans hBefore.order.symm)
    rw [h.started, List.append_assoc, List.append_assoc, List.append_assoc] at hAll
    exact List.append_cancel_left hAll
  by_cases hQueue : s.queue = []
  · obtain ⟨rfl, -⟩ := h.drained hQueue
    exact ⟨rfl, hOrder⟩
  · have hNone : s.dropped = [] := by
      by_contra hSome
      exact hQueue (hBefore.dropped hSome).2
    rw [hNone, List.nil_append] at hOrder ⊢
    rw [← hOrder, ← List.length_map Start.task]
    exact ⟨List.take_left.symm, List.drop_left.symm⟩

end WoundDown

/-- At the top of its loop, or woken to an empty queue, a worker of a stopped pool leaves. -/
theorem State.exists_lock?_exited {s : State} {worker : Nat} {w : Worker} (hStop : s.stop = true)
    (hAt : s.workers[worker]? = some w) (hIdle : w = .ready ∨ w.insideWait = true ∧ s.queue = []) :
    ∃ t, s.lock? worker = some t ∧ t.workers[worker]? = some .exited := by
  obtain ⟨hInside, -⟩ := List.getElem?_eq_some_iff.1 hAt
  have hSet : (s.workers.set worker .exited)[worker]? = some .exited :=
    List.getElem?_set_self hInside
  obtain rfl | ⟨hWaits, hQueue⟩ := hIdle
  · exact ⟨s.lockReady worker, by rw [lock?, hAt], by rwa [lockReady, if_pos hStop]⟩
  · refine ⟨s.lockWaking worker, ?_, by simpa [lockWaking, hQueue, hStop, setWorker] using hSet⟩
    cases w with
    | waiting | notified => rw [lock?, hAt]
    | ready | running | exited => cases hWaits

namespace Exchange

variable {Env Result : Type} {release : Result → Env → Env} {x y z : Exchange Env Result}

/-- What a run starts, worker by worker. -/
def starts (release : Result → Env → Env) :
    Exchange Env Result → List (Move Env Result) → List Start
  | _, [] => []
  | x, move :: rest =>
    match x.step? release move with
    | some y => move.event?.elim [] (·.starts y.tasks.pool) ++ y.starts release rest
    | none => []

theorem woundDown_of_step? {move : Move Env Result} (h : x.step? release move = some y)
    (hStop : x.tasks.pool.stop = true) :
    WoundDown x.tasks.pool (move.event?.elim [] (·.starts y.tasks.pool)) y.tasks.pool := by
  have hPool := pool_step? h
  cases hEvent : move.event? with
  | some event =>
      rw [hEvent] at hPool
      exact .of_step hPool hStop
  | none =>
      rw [hEvent] at hPool
      rw [hPool]
      exact .refl hStop

/-- After the stop, a run of any length starts what the workers inside the wait still take, and no
more. -/
theorem woundDown_of_run? {moves : List (Move Env Result)} (run : x.run? release moves = some y)
    (hStop : x.tasks.pool.stop = true) :
    WoundDown x.tasks.pool (x.starts release moves) y.tasks.pool := by
  induction moves generalizing x with
  | nil =>
      cases run
      exact .refl hStop
  | cons move rest ih =>
      rw [run?, List.foldlM_cons] at run
      obtain ⟨middle, hFirst, hRest⟩ := Option.bind_eq_some_iff.1 run
      have hMove := woundDown_of_step? hFirst hStop
      rw [starts, hFirst]
      exact hMove.trans (ih hRest hMove.stop)

/-- Whoever waits for a dropped task is told that nothing will come. -/
theorem Consistent.aborted_of_dropped (hConsistent : x.Consistent) {task : Nat}
    (hDropped : x.Dropped task) (hHeld : x.isHeld task = true) :
    ∀ move ∈ [Move.look task, .wait task],
      ∃ y, x.step? release move = some y ∧ y.findings = x.findings ++ [⟨task, .aborted⟩] := by
  obtain ⟨slot, hSlot, hWaiter⟩ := isHeld_iff.1 hHeld
  have hFound := (hConsistent.verdict hSlot hWaiter).aborted.2 (.inl hDropped)
  intro move hMove
  obtain rfl | hMove := List.mem_cons.1 hMove
  · refine ⟨_, look?_eq hSlot hWaiter, ?_⟩
    rw [note, hFound]
  · obtain rfl := List.mem_singleton.1 hMove
    refine ⟨_, (wait?_eq hSlot hWaiter).trans (if_neg (by simp [hFound, Poll.isPending])), ?_⟩
    rw [note, hFound]

/-- Whether some shutdown has returned. -/
def HasReturned (x : Exchange Env Result) : Prop :=
  ∃ c ∈ x.tasks.pool.shutdowns, c.phase = .returned

/-- How a pool winds down, from just before a shutdown that raises the stop flag. -/
structure WindsDown (release : Result → Env → Env) (x z : Exchange Env Result)
    (starts : List Start) : Prop where
  started : z.tasks.pool.started = x.tasks.pool.started ++ starts.map Start.task
  /-- A worker that was not inside the wait starts nothing. -/
  outside : ∀ worker w, x.tasks.pool.workers[worker]? = some w → w.insideWait = false →
    worker ∉ starts.map Start.worker
  /-- One that was inside starts one task at most. -/
  once : (starts.map Start.worker).Nodup
  /-- After that it runs this task, is at the top of its loop, or has gone. -/
  leaves : ∀ start ∈ starts, z.tasks.pool.Leaves start
  /-- From the top of its loop a worker goes; so does one that wakes to an empty queue. -/
  exits : ∀ worker w, z.tasks.pool.workers[worker]? = some w →
    w = .ready ∨ w.insideWait = true ∧ z.tasks.pool.queue = [] →
    ∃ u, z.step? release (.lock worker) = some u ∧
      u.tasks.pool.workers[worker]? = some .exited
  bound : starts.length ≤ x.tasks.pool.workers.countP Worker.insideWait
  order : starts.map Start.task = x.tasks.pool.queue.take starts.length
  /-- The other tasks that were queued are dropped by the time a shutdown returns, and their waiters
  are told so. -/
  dropped : ∀ task ∈ x.tasks.pool.queue, task ∉ starts.map Start.task → z.HasReturned →
    z.Dropped task ∧ (z.isHeld task = true → ∀ move ∈ [Move.look task, .wait task],
      ∃ u, z.step? release move = some u ∧ u.findings = z.findings ++ [⟨task, .aborted⟩])
  /-- Nothing is started after that. -/
  quiet : z.HasReturned → ∀ later u, z.run? release later = some u → z.starts release later = []

/-- Once a shutdown raises the stop flag, each worker inside the wait starts one more task at most
and leaves, every other worker starts none, and the queued tasks that none of them takes are
dropped. -/
theorem windsDown_of_beginShutdown {count : Nat} {env : Env}
    {earlier later : List (Move Env Result)} {caller : Caller}
    (run : (initial count env).run? release earlier = some x)
    (hStops : x.step? release (.beginShutdown caller) = some y)
    (hLater : y.run? release later = some z) : WindsDown release x z (y.starts release later) := by
  have hBefore := Consistent.of_run? run
  have hStopped := hBefore.step (step_of_step? hStops)
  have hAfter := hStopped.run hLater
  obtain ⟨hStop, hQueue, hStarted, hWorkers⟩ := (pool_step? hStops).of_beginShutdown
  have hWound := woundDown_of_run? hLater hStop
  obtain ⟨hOrder, hRest⟩ := hWound.order hStopped.orderly hAfter.orderly
  rw [hQueue] at hOrder hRest
  have hEmpty : z.HasReturned → z.tasks.pool.queue = [] := fun ⟨c, hMem, hReturned⟩ =>
    (hAfter.orderly.returned c hMem hReturned).2
  constructor
  case started => rw [hWound.started, hStarted]
  case outside =>
    intro worker w hAt hOutside
    have hWoken : y.tasks.pool.workers[worker]? = some (State.wake w) := by
      rw [hWorkers, List.getElem?_map, hAt, Option.map_some]
    have hTurns := hWound.turns worker
    rw [State.turns_of_getElem? hWoken, insideWait_wake, hOutside,
      if_neg Bool.false_ne_true] at hTurns
    exact List.count_eq_zero.1 (by omega)
  case once =>
    refine List.nodup_iff_count_le_one.2 fun worker => ?_
    have hTurns := hWound.turns worker
    have hMost := y.tasks.pool.turns_le_one worker
    omega
  case leaves => exact fun start hMem => hWound.leaves start (.inr hMem)
  case exits =>
    intro worker w hAt hIdle
    obtain ⟨pool, hPool, hGone⟩ := State.exists_lock?_exited hWound.stop hAt hIdle
    exact ⟨{ z with tasks := { z.tasks with pool } },
      Option.map_eq_some_iff.2 ⟨pool, hPool, rfl⟩, hGone⟩
  case bound =>
    have hCount := hWound.length_add_countP_le
    rw [hWorkers, countP_insideWait_map_wake] at hCount
    omega
  case order => exact hOrder
  case dropped =>
    intro task hQueued hUnstarted hReturned
    rw [hEmpty hReturned, List.append_nil] at hRest
    rw [hOrder] at hUnstarted
    rw [← List.take_append_drop (y.starts release later).length x.tasks.pool.queue] at hQueued
    have hLeft := (List.mem_append.1 hQueued).resolve_left hUnstarted
    have hDropped : z.Dropped task :=
      hAfter.dropped_iff.2 (hRest ▸ List.mem_append_right _ hLeft)
    exact ⟨hDropped, hAfter.aborted_of_dropped hDropped⟩
  case quiet =>
    intro hReturned more u hMore
    exact ((woundDown_of_run? hMore hWound.stop).drained (hEmpty hReturned)).1

/-- Two workers: one is told to wake from the wait and the other runs a task, and two more tasks are
queued. -/
def untilStop : List (Move Unit Nat) :=
  [.lock 0, .submit (returning (some 7)) true (some 0), .submit (returning (some 8)) true none,
    .submit (returning (some 9)) true none, .lock 1]

/-- The worker that wakes takes one of the queued tasks, and both leave. -/
def sinceStop : List (Move Unit Nat) :=
  [.lock 0, .work 1, .finish 1, .lock 1, .work 0, .finish 0, .lock 0, .takeWorkers 0, .join 0,
    .join 0, .clear 0]

def afterSinceStop : Exchange Unit Nat :=
  { tasks :=
      { pool :=
          { workers := [.exited, .exited], stop := true, busy := 0, joinable := [], accepted := 3
            started := [0, 1], finished := [0, 1], dropped := [2]
            shutdowns := [⟨.outside, .returned⟩] }
        jobs := [returning (some 7), returning (some 8), returning (some 9)]
        slots := [some { value := some 7, hasTask := false },
          some { value := some 8, hasTask := false }, some { hasTask := false }]
        env := () }
    outcomes := [⟨0, some 7⟩, ⟨1, some 8⟩] }

/-- One of two workers has been told when the pool stops. It still takes its task, and the task
behind it is dropped. -/
theorem windsDown_sinceStop : ∃ x y : Exchange Unit Nat,
    (initial 2 ()).run? dropResult untilStop = some x ∧
    x.step? dropResult (.beginShutdown .outside) = some y ∧
    y.run? dropResult sinceStop = some afterSinceStop ∧
    x.tasks.pool.workers = [.notified, .running 0] ∧ x.tasks.pool.queue = [1, 2] ∧
    y.starts dropResult sinceStop = [⟨0, 1⟩] ∧ afterSinceStop.Dropped 2 ∧
    ∃ u, afterSinceStop.step? dropResult (.look 2) = some u ∧ u.findings = [⟨2, .aborted⟩] := by
  refine ⟨_, _, rfl, rfl, rfl, rfl, rfl, rfl, ?_⟩
  have hWinds := @windsDown_of_beginShutdown Unit Nat dropResult _ _ afterSinceStop 2 () untilStop
    sinceStop .outside rfl rfl rfl
  obtain ⟨hDropped, hAborted⟩ := hWinds.dropped 2 (by decide) (by decide) ⟨_, .head _, rfl⟩
  exact ⟨hDropped, hAborted rfl _ (.head _)⟩

end Exchange

end ShaderBackend.Pool
