import Mathlib.Data.List.Count
import ShaderBackend.Pool.Client
import ShaderBackend.Proofs.Pool.Rest

/-! The schedule is one of the interleavings: every state that it passes is reached by transitions of
the pool. It is never cut off. A pool that is settled is at rest, and a shutdown is followed until it
returns or nothing moves any more. -/
namespace ShaderBackend.Pool

/-- What the schedule does with a pool: something goes on, or a worker whose task has not shut the pool
down as yet does so. -/
def Scheduled (s t : State) : Prop :=
  ∃ event, s.step? event = some t ∧ (event.goesOn s = true ∨
    ∃ worker < s.workers.length, event = .beginShutdown (.worker worker) ∧
      s.shutdowns.any (·.caller = .worker worker) = false)

/-- Two sums over a list, if each entry adds some bounded amount more to the first one. -/
theorem sum_map_le_add {α : Type} {f g : α → Nat} {more : Nat} (h : ∀ entry, f entry ≤ g entry + more)
    (entries : List α) : (entries.map f).sum ≤ (entries.map g).sum + more * entries.length := by
  induction entries with
  | nil => exact Nat.le_refl _
  | cons entry rest ih =>
      have hEntry := h entry
      simp only [List.map_cons, List.sum_cons, List.length_cons, Nat.mul_succ]
      omega

namespace State

/-- Workers whose tasks have not shut the pool down. -/
def unheard (s : State) : Nat :=
  (List.range s.workers.length).countP fun worker =>
    !s.shutdowns.any (·.caller = .worker worker)

/-- Most moves that the schedule makes. A shutdown that a task begins wakes every worker and has two
sections besides those that join workers. -/
def movesLeft (s : State) : Nat := s.toil + (s.workers.length + 3) * s.unheard

/-- Every worker is joined once at most. -/
def JoinsFew (s : State) : Prop :=
  s.joinable.length + (s.shutdowns.map (·.unjoined.length)).sum ≤ s.workers.length

/-- A new pool has all its workers to join, and no call has begun. -/
theorem joinsFew_initial (count : Nat) : (initial count).JoinsFew := by
  simp [JoinsFew, initial]

end State

namespace Step

variable {s t : State} {event : Event}

/-- Workers pass from the pool to the call that takes them, and each join uses one up. -/
theorem joinsFew (h : Step s event t) (hFew : s.JoinsFew) : t.JoinsFew := by
  have hCall {call : Nat} {old : Shutdown} (hOld : s.shutdowns[call]? = some old) (new : Shutdown) :=
    sum_map_set_add (fun c : Shutdown => c.unjoined.length) hOld new
  rw [State.JoinsFew] at hFew ⊢
  rw [h.length_workers]
  cases h with
  | accept | acceptNotify | leave | wait | take | wakeTake | wakeLeave | wakeWait | finish => exact hFew
  | beginShutdown => simpa [Shutdown.unjoined] using hFew
  | @takeWorkers _ caller hOld =>
      have hSum := hCall hOld ⟨caller, .joining s.joinable⟩
      simp only [Shutdown.unjoined, List.length_nil] at hSum hFew ⊢
      omega
  | @join _ _ caller rest hOld =>
      have hSum := hCall hOld ⟨caller, .joining rest⟩
      simp only [Shutdown.unjoined, List.length_cons] at hSum hFew ⊢
      omega
  | @clear _ caller hOld =>
      have hSum := hCall hOld ⟨caller, .returned⟩
      simp only [Shutdown.unjoined, List.length_nil] at hSum hFew ⊢
      omega

/-- Who called stays known, and only a shutdown that begins has a new caller. -/
theorem callers_eq (h : Step s event t) (hOther : ∀ caller, event ≠ .beginShutdown caller) :
    t.shutdowns.map (·.caller) = s.shutdowns.map (·.caller) := by
  have hSet {call : Nat} {caller : Caller} {old : Phase} (new : Phase)
      (hOld : s.shutdowns[call]? = some ⟨caller, old⟩) :
      (s.shutdowns.set call ⟨caller, new⟩).map (·.caller) = s.shutdowns.map (·.caller) := by
    obtain ⟨hInside, hEntry⟩ := List.getElem?_eq_some_iff.1 hOld
    have hLength : call < (s.shutdowns.map (·.caller)).length := by
      rwa [List.length_map]
    have hSame : (s.shutdowns.map (·.caller)).get ⟨call, hLength⟩ = caller := by
      simp [hEntry]
    rw [List.map_set, ← hSame, List.get_eq_getElem, List.set_getElem_self]
  cases h with
  | beginShutdown => exact absurd rfl (hOther _)
  | takeWorkers hOld | join hOld | clear hOld => exact hSet _ hOld
  | accept | acceptNotify | leave | wait | take | wakeTake | wakeLeave | wakeWait | finish => rfl

/-- Only a shutdown of its own uses up that of a task. -/
theorem unheard_eq (h : Step s event t) (hOther : ∀ caller, event ≠ .beginShutdown caller) :
    t.unheard = s.unheard := by
  have hAny (worker : Nat) (shutdowns : List Shutdown) :
      shutdowns.any (·.caller = .worker worker) =
        (shutdowns.map (·.caller)).any (· = .worker worker) := by
    rw [List.any_map]
    rfl
  rw [State.unheard, State.unheard, h.length_workers]
  simp only [hAny, h.callers_eq hOther]

/-- The first shutdown of a worker leaves one worker fewer that may call. -/
theorem unheard_lt {worker : Nat} (h : Step s (.beginShutdown (.worker worker)) t)
    (hInside : worker < s.workers.length)
    (hFirst : s.shutdowns.any (·.caller = .worker worker) = false) : t.unheard < s.unheard := by
  cases h with
  | beginShutdown =>
      have hMem : worker ∈ (List.range s.workers.length).filter fun other =>
          !s.shutdowns.any (·.caller = .worker other) := by
        simpa [hInside] using hFirst
      have hLess := (List.countP_lt_length_iff (p := (· ≠ worker))).2 ⟨worker, hMem, by simp⟩
      rw [List.countP_filter, ← List.countP_eq_length_filter] at hLess
      rw [State.unheard, State.unheard, List.length_map]
      refine lt_of_eq_of_lt (List.countP_congr fun other _ => ?_) hLess
      by_cases hSame : other = worker
      · simp [hSame]
      · simp [hSame, Ne.symm hSame]

/-- Who wakes has one transition more before him. -/
theorem toil_beginShutdown_le {caller : Caller} (h : Step s (.beginShutdown caller) t) :
    t.toil ≤ s.toil + s.workers.length + 2 := by
  have hWake (w : Worker) : (State.wake w).toil ≤ w.toil + 1 := by
    cases w <;> simp [State.wake, Worker.toil]
  have hMost := sum_map_le_add hWake s.workers
  cases h with
  | beginShutdown =>
      have hWoken : ((s.workers.map State.wake).map Worker.toil).sum =
          (s.workers.map fun w => (State.wake w).toil).sum := by rw [List.map_map, Function.comp_def]
      simp only [State.toil, hWoken, List.map_append, List.sum_append, List.map_singleton,
        List.sum_singleton, Phase.toil]
      omega

end Step

/-- Each scheduled move uses up some of those that are left. -/
theorem Scheduled.movesLeft_lt {s t : State} (h : Scheduled s t) : t.movesLeft < s.movesLeft := by
  obtain ⟨event, hNext, hGoes | ⟨worker, hInside, rfl, hFirst⟩⟩ := h
  · have hStep := State.step_of_step? hNext
    have hSame := hStep.unheard_eq fun caller hBegin => by
      rw [hBegin] at hGoes
      cases hGoes
    rw [State.movesLeft, State.movesLeft, hSame, hStep.length_workers]
    exact Nat.add_lt_add_right (hStep.toil_lt hGoes) _
  · have hStep := State.step_of_step? hNext
    have hLess := hStep.unheard_lt hInside hFirst
    have hMost := hStep.toil_beginShutdown_le
    have hTurns := Nat.mul_le_mul_left (s.workers.length + 3) hLess
    rw [Nat.mul_succ] at hTurns
    rw [State.movesLeft, State.movesLeft, hStep.length_workers]
    omega

namespace State

variable {s : State}

/-- No worker has more than two transitions before it. -/
theorem sum_worker_toil_le (workers : List Worker) :
    (workers.map Worker.toil).sum ≤ 2 * workers.length := by
  have hTwo (w : Worker) : w.toil ≤ 0 + 2 := by cases w <;> simp [Worker.toil]
  simpa using sum_map_le_add hTwo workers

/-- A call has two sections besides those that join workers. -/
theorem sum_phase_toil_le (shutdowns : List Shutdown) : (shutdowns.map (·.phase.toil)).sum ≤
    (shutdowns.map (·.unjoined.length)).sum + 2 * shutdowns.length := by
  have hTwo (c : Shutdown) : c.phase.toil ≤ c.unjoined.length + 2 := by
    rw [Shutdown.unjoined]
    cases c.phase <;> simp [Phase.toil]
  exact sum_map_le_add hTwo shutdowns

/-- The schedule may make as many moves as there can be. -/
theorem JoinsFew.movesLeft_le (h : s.JoinsFew) : s.movesLeft ≤ Running.moveLimit s := by
  have hWorkers := sum_worker_toil_le s.workers
  have hCalls := sum_phase_toil_le s.shutdowns
  have hUnheard : s.unheard ≤ s.workers.length := by
    simpa [unheard] using List.countP_le_length (l := List.range s.workers.length)
  rw [JoinsFew] at h
  have hTurns := Nat.mul_le_mul_left (s.workers.length + 3) hUnheard
  have hQueued := Nat.mul_le_mul_left s.queue.length (show 3 ≤ s.workers.length + 8 by omega)
  have hCalled := Nat.mul_le_mul_left s.shutdowns.length (show 2 ≤ s.workers.length + 8 by omega)
  have hWork : (s.workers.length + 3) * s.workers.length + 3 * s.workers.length ≤
      s.workers.length * (s.workers.length + 8) := by
    rw [← Nat.add_mul, Nat.mul_comm]
    exact Nat.mul_le_mul_left _ (by omega)
  have hLimit : Running.moveLimit s = s.queue.length * (s.workers.length + 8) +
      s.workers.length * (s.workers.length + 8) + s.shutdowns.length * (s.workers.length + 8) +
      (s.workers.length + 8) := by
    simp only [Running.moveLimit, Nat.add_mul, Nat.one_mul]
  rw [movesLeft, toil, hLimit]
  omega

end State

variable {Env Result : Type}

namespace Running

variable {r next : Running Env Result}

theorem pool_settleSlot (release : Result → Env → Env) (task : Nat) (result : Option Result)
    (t : Tasks Env Result) : (t.settleSlot release task result).pool = t.pool := by
  rw [Tasks.settleSlot_eq]
  exact Tasks.pool_leave ..

/-- A worker that moves does what a transition of the pool does. -/
theorem scheduled_of_moveWorker? {worker : Nat} (h : r.moveWorker? worker = some next) :
    Scheduled r.tasks.pool next.tasks.pool := by
  rw [moveWorker?] at h
  have hLock {old : Worker} (hOld : r.tasks.pool.workers[worker]? = some old)
      (hTold : old = .ready ∨ old = .notified)
      (hMove : ((r.tasks.pool.lock? worker).map fun pool => r.withTasks { r.tasks with pool }) =
        some next) : Scheduled r.tasks.pool next.tasks.pool := by
    obtain ⟨pool, hPool, rfl⟩ := Option.map_eq_some_iff.1 hMove
    refine ⟨.lock worker, hPool, .inl ?_⟩
    simpa [Event.goesOn, hOld] using hTold
  dsimp only at h
  split at h
  case h_1 hOld => exact hLock hOld (.inl rfl) h
  case h_2 hOld => exact hLock hOld (.inr rfl) h
  case h_3 task hOld =>
    split at h
    · rename_i hStops
      obtain ⟨pool, hPool, rfl⟩ := Option.map_eq_some_iff.1 h
      rw [mustStopPool, Bool.and_eq_true, Bool.not_eq_true'] at hStops
      exact ⟨.beginShutdown (.worker worker), hPool,
        .inr ⟨worker, (List.getElem?_eq_some_iff.1 hOld).1, rfl, hStops.2⟩⟩
    · obtain ⟨⟨panicked, tasks⟩, hFinish, rfl⟩ := Option.map_eq_some_iff.1 h
      refine ⟨.finish worker, ?_, .inl rfl⟩
      rw [Tasks.finish?, hOld] at hFinish
      dsimp only at hFinish
      split at hFinish
      · rename_i pool hJob hPool
        split at hFinish
        · cases hFinish
          show _ = some (Tasks.settleSlot _ _ _ _).pool
          rw [pool_settleSlot]
          exact hPool
        · cases hFinish
      · cases hFinish
  case h_4 => cases h

theorem scheduled_of_moveShutdown? {call : Nat} (h : r.moveShutdown? call = some next) :
    Scheduled r.tasks.pool next.tasks.pool := by
  rw [moveShutdown?] at h
  dsimp only at h
  split at h
  · rename_i pool hPool
    cases h
    cases hTake : r.tasks.pool.takeWorkers? call with
    | some taken =>
        rw [hTake] at hPool
        exact ⟨.takeWorkers call, hTake.trans hPool, .inl rfl⟩
    | none =>
        rw [hTake] at hPool
        exact ⟨.join call, hPool, .inl rfl⟩
  · obtain ⟨⟨count, tasks⟩, hClear, rfl⟩ := Option.map_eq_some_iff.1 h
    obtain ⟨pool, hPool, hTasks⟩ := Option.map_eq_some_iff.1 hClear
    cases hTasks
    exact ⟨.clear call, hPool, .inl rfl⟩

theorem scheduled_of_moveWorkers? (h : r.moveWorkers? = some next) :
    Scheduled r.tasks.pool next.tasks.pool := by
  obtain ⟨worker, -, hMove⟩ := List.exists_of_findSome?_eq_some h
  exact scheduled_of_moveWorker? hMove

theorem scheduled_of_moveShutdowns? (h : r.moveShutdowns? = some next) :
    Scheduled r.tasks.pool next.tasks.pool := by
  obtain ⟨call, -, hMove⟩ := List.exists_of_findSome?_eq_some h
  exact scheduled_of_moveShutdown? hMove

/-- Whatever the schedule does at once is a scheduled step. -/
theorem scheduled_of_move? (h : r.move? = some next) : Scheduled r.tasks.pool next.tasks.pool := by
  rw [move?] at h
  cases hWorkers : r.moveWorkers? with
  | some moved => exact scheduled_of_moveWorkers? (hWorkers.trans (by simpa [hWorkers] using h))
  | none => exact scheduled_of_moveShutdowns? (by simpa [hWorkers] using h)

/-- So is what it does while somebody waits for a shutdown. -/
theorem scheduled_of_moveTowards? {call : Nat} (h : r.moveTowards? call = some next) :
    Scheduled r.tasks.pool next.tasks.pool := by
  rw [moveTowards?] at h
  split at h
  · cases h
  cases hWorkers : r.moveWorkers? with
  | some moved => exact scheduled_of_moveWorkers? (hWorkers.trans (by simpa [hWorkers] using h))
  | none =>
      cases hCall : r.moveShutdown? call with
      | some moved =>
          exact scheduled_of_moveShutdown? (hCall.trans (by simpa [hWorkers, hCall] using h))
      | none => exact scheduled_of_moveShutdowns? (by simpa [hWorkers, hCall] using h)

/-- The pool of `r` is reached by transitions from one whose workers have just started. -/
def Reached (count : Nat) (r : Running Env Result) : Prop :=
  ∃ events, Reaches (.initial count) events r.tasks.pool

section Moves

variable {count : Nat} {next? : Running Env Result → Option (Running Env Result)}

/-- All of this holds wherever the schedule gets. -/
theorem Reached.joinsFew (h : r.Reached count) : r.tasks.pool.JoinsFew := by
  obtain ⟨events, hRun⟩ := h
  exact hRun.invariant (State.joinsFew_initial count) Step.joinsFew

/-- Whatever is chosen each time, the moves are transitions and come to an end. -/
theorem Reached.moves (hNext : ∀ {r next : Running Env Result}, next? r = some next →
      Scheduled r.tasks.pool next.tasks.pool)
    {steps : Nat} (h : r.Reached count) (hSteps : r.tasks.pool.movesLeft ≤ steps) :
    (Running.moves next? steps r).Reached count ∧
      next? (Running.moves next? steps r) = none := by
  induction steps generalizing r with
  | zero =>
      refine ⟨h, Option.eq_none_iff_forall_ne_some.2 fun next hMove => ?_⟩
      have hLess : next.tasks.pool.movesLeft < r.tasks.pool.movesLeft := (hNext hMove).movesLeft_lt
      omega
  | succ steps ih =>
      rw [Running.moves]
      split
      · rename_i next hMove
        obtain ⟨event, hEvent, -⟩ := hNext hMove
        obtain ⟨events, hRun⟩ := h
        have hLess := (hNext hMove).movesLeft_lt
        exact ih ⟨_, hRun.step hEvent⟩ (by omega)
      · exact ⟨h, ‹_›⟩

/-- A settled pool is at rest. -/
theorem Reached.settle (h : r.Reached count) : r.settle.Reached count ∧ r.settle.move? = none :=
  h.moves scheduled_of_move? h.joinsFew.movesLeft_le

/-- Nothing more is done for a shutdown that has returned, or where nothing moves at all. -/
theorem stands_of_moveTowards? {call : Nat} (h : r.moveTowards? call = none) :
    r.tasks.pool.shutdowns[call]?.any (·.phase = .returned) = true ∨ r.move? = none := by
  rw [moveTowards?] at h
  split at h
  · exact .inl ‹_›
  · rw [move?]
    cases hWorkers : r.moveWorkers? with
    | some moved => simp [hWorkers] at h
    | none =>
        cases hCall : r.moveShutdown? call with
        | some moved => simp [hWorkers, hCall] at h
        | none => exact .inr (by simpa [hWorkers, hCall] using h)

/-- A shutdown is followed until it returns, unless everything comes to a stand before. The state
that it returns in is reached by transitions, and so is the state at rest after it. -/
theorem Reached.shutdown (h : r.Reached count) (change : Env → Env) :
    ∃ last : Running Env Result, last.Reached count ∧ (r.shutdown change).1 = last.tasks.pool ∧
      (r.shutdown change).2 = last.settle ∧
      (last.tasks.pool.shutdowns[r.tasks.pool.shutdowns.length]?.any (·.phase = .returned) = true ∨
        last.move? = none) := by
  obtain ⟨events, hRun⟩ := h
  obtain ⟨pool, hBegins⟩ : ∃ pool, r.tasks.pool.beginShutdown? .outside = some pool := ⟨_, if_pos rfl⟩
  have hEvent : r.tasks.pool.step? (.beginShutdown .outside) = some pool := hBegins
  have hBegun : Reached count (r.withTasks { r.tasks with pool, env := change r.tasks.env }) :=
    ⟨_, hRun.step hEvent⟩
  obtain ⟨hReached, hEnd⟩ := hBegun.moves
    (fun h => scheduled_of_moveTowards? h) hBegun.joinsFew.movesLeft_le
  rw [Running.shutdown, hBegins]
  exact ⟨_, hReached, rfl, rfl, stands_of_moveTowards? hEnd⟩

/-- The task of the second worker shuts the pool down and waits for the first worker. A shutdown from
outside returns before the second worker has gone. -/
example : ((Client.start 2 .normal (.portable 1) none).toOption.map fun c =>
    (c.block.2.submit "own" .stopPool).2.stop.1.running) = some 1 := by decide

/-- A launched pool is where every run begins. -/
theorem reached_launch (workers : UInt32) (priority : ThreadPriority) (platform : Platform)
    (threshold : Log.Threshold) (release : Result → Env → Env) (env : Env) :
    (launch workers priority platform threshold release env).Reached workers.toNat :=
  ⟨[], .start⟩

/-- Handing in a task and coming to rest stay inside the runs of the pool. -/
theorem Reached.submit (h : r.Reached count) (job : Job Env Result) (awaited : Bool) :
    (r.submit job awaited).2.Reached count := by
  rw [Running.submit]
  split
  · rename_i tasks hTasks
    obtain ⟨events, hRun⟩ := h
    obtain ⟨pool, hPool, rfl⟩ := Option.map_eq_some_iff.1 hTasks
    have hEvent : r.tasks.pool.step? (.enqueue r.tasks.pool.firstWaiting?) = some pool := hPool
    have hAccepted : Reached count (r.withTasks { r.tasks with
        pool
        jobs := r.tasks.jobs ++ [job]
        slots := r.tasks.slots ++ [if awaited then some {} else none] }) := ⟨_, hRun.step hEvent⟩
    exact hAccepted.settle.1
  · exact h

theorem Reached.change (h : r.Reached count) (change : Env → Env) :
    (r.change change).Reached count := by
  have hChanged : Reached count (r.withTasks { r.tasks with env := change r.tasks.env }) := h
  exact hChanged.settle.1

theorem Reached.poll (h : r.Reached count) (task : Nat) : (r.poll task).2.Reached count := by
  rw [Running.poll]
  split
  · rename_i found tasks hPoll
    obtain ⟨slot, -, hTasks⟩ := Option.map_eq_some_iff.1 hPoll
    cases hTasks
    exact h
  · exact h

theorem Reached.forget (h : r.Reached count) (task : Nat) : (r.forget task).Reached count := by
  have hPool : (r.forget task).tasks.pool = r.tasks.pool := Tasks.pool_forget ..
  rw [Reached, hPool]
  exact h

end Moves

/-- A task is refused exactly by a pool that has stopped. -/
theorem submit_error_iff {job : Job Env Result} {awaited : Bool} :
    (r.submit job awaited).1 = .error .poolStopped ↔ r.tasks.pool.stop = true := by
  rw [← State.enqueue?_firstWaiting?_eq_none_iff, submit, Tasks.submit?]
  cases r.tasks.pool.enqueue? r.tasks.pool.firstWaiting? with
  | none => simp
  | some pool => simp

end Running

end ShaderBackend.Pool
