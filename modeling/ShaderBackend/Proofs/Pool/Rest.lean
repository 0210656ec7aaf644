import Mathlib.Algebra.Ring.Nat
import Mathlib.Data.List.Perm.Subperm
import ShaderBackend.Proofs.Pool.Handover
import ShaderBackend.Proofs.Pool.Joining

/-! A pool that is left to itself comes to rest. Workers that were told go on, and so do tasks and
shutdowns under way. Each of their transitions uses up some of the work that is left, and where no more
of them is possible nothing is queued and nothing is running. -/
namespace ShaderBackend.Pool

/-- Whether a transition needs nobody to begin anything. A worker that wakes although nobody told it
to does not count. -/
def Event.goesOn (s : State) : Event → Bool
  | .lock worker => s.workers[worker]? = some .ready || s.workers[worker]? = some .notified
  | .finish _ | .takeWorkers _ | .join _ | .clear _ => true
  | .enqueue _ | .beginShutdown _ => false

/-- Of the workers inside the wait, only one that was told goes on. -/
theorem Event.notified_of_goesOn {s : State} {worker : Nat} {old : Worker}
    (hOld : s.workers[worker]? = some old) (hInside : old.insideWait = true)
    (hGoes : (Event.lock worker).goesOn s = true) : old = .notified := by
  cases old <;> simp [Event.goesOn, hOld, Worker.insideWait] at hGoes hInside ⊢

/-- Transitions that a worker has before it until it waits or has gone, if there is nothing to take. -/
def Worker.toil : Worker → Nat
  | .running _ => 2
  | .ready | .notified => 1
  | .waiting | .exited => 0

def Phase.toil : Phase → Nat
  | .stopping => 2
  | .joining workers => workers.length + 1
  | .returned => 0

namespace State

/-- Most transitions that the pool has before it if nobody begins anything. A queued task is taken,
ends and leaves its worker at the top of the loop; a worker that no shutdown has taken over is joined
by the one that does. -/
def toil (s : State) : Nat :=
  3 * s.queue.length + (s.workers.map Worker.toil).sum + s.joinable.length +
    (s.shutdowns.map (·.phase.toil)).sum

/-- Every worker that is joined, or can be, is one of the pool. -/
structure Inside (s : State) : Prop where
  joinable : ∀ worker ∈ s.joinable, worker < s.workers.length
  unjoined : ∀ c ∈ s.shutdowns, ∀ worker ∈ c.unjoined, worker < s.workers.length

end State

/-- One entry of a list changes, and a sum by what it was and what it is. -/
theorem sum_map_set_add {α : Type} {entries : List α} {index : Nat} {old : α} (f : α → Nat)
    (hOld : entries[index]? = some old) (new : α) :
    ((entries.set index new).map f).sum + f old = (entries.map f).sum + f new := by
  induction entries generalizing index with
  | nil => cases hOld
  | cons entry rest ih =>
      cases index with
      | zero =>
          cases hOld
          simp only [List.set_cons_zero, List.map_cons, List.sum_cons]
          omega
      | succ index =>
          have hRest := ih hOld
          simp only [List.set_cons_succ, List.map_cons, List.sum_cons]
          omega

namespace Step

variable {s t : State} {event : Event}

theorem toil_lt (h : Step s event t) (hGoes : event.goesOn s = true) : t.toil < s.toil := by
  have hWorker {index : Nat} {old : Worker} (hOld : s.workers[index]? = some old) (new : Worker) :=
    sum_map_set_add Worker.toil hOld new
  have hCall {call : Nat} {old : Shutdown} (hOld : s.shutdowns[call]? = some old) (new : Shutdown) :=
    sum_map_set_add (fun c : Shutdown => c.phase.toil) hOld new
  cases h with
  | accept | acceptNotify | beginShutdown => cases hGoes
  | leave _ hOld =>
      have hSum := hWorker hOld .exited
      simp only [State.toil, Worker.toil] at hSum ⊢
      omega
  | wait _ _ hOld =>
      have hSum := hWorker hOld .waiting
      simp only [State.toil, Worker.toil] at hSum ⊢
      omega
  | @take _ task _ _ hQueue hOld =>
      have hSum := hWorker hOld (.running task)
      simp only [State.toil, Worker.toil, hQueue, List.length_cons] at hSum ⊢
      omega
  | @wakeTake _ task _ _ hQueue hOld =>
      have hSum := hWorker hOld (.running task)
      simp only [State.toil, Worker.toil, hQueue, List.length_cons] at hSum ⊢
      omega
  | @wakeLeave _ old _ _ hOld hInside =>
      have hTold := Event.notified_of_goesOn hOld hInside hGoes
      have hSum := hWorker hOld .exited
      simp only [State.toil, Worker.toil, hTold] at hSum ⊢
      omega
  | @wakeWait _ old _ _ hOld hInside =>
      have hTold := Event.notified_of_goesOn hOld hInside hGoes
      have hSum := hWorker hOld .waiting
      simp only [State.toil, Worker.toil, hTold] at hSum ⊢
      omega
  | finish _ hOld =>
      have hSum := hWorker hOld .ready
      simp only [State.toil, Worker.toil] at hSum ⊢
      omega
  | @takeWorkers _ caller hOld =>
      have hSum := hCall hOld ⟨caller, .joining s.joinable⟩
      simp only [State.toil, Phase.toil, List.length_nil] at hSum ⊢
      omega
  | @join _ _ caller rest hOld =>
      have hSum := hCall hOld ⟨caller, .joining rest⟩
      simp only [State.toil, Phase.toil, List.length_cons] at hSum ⊢
      omega
  | @clear _ caller hOld =>
      have hSum := hCall hOld ⟨caller, .returned⟩
      simp only [State.toil, Phase.toil, List.length_nil] at hSum ⊢
      omega

theorem inside (h : Step s event t) (hInside : s.Inside) : t.Inside := by
  have hSet {call : Nat} {new : Shutdown}
      (hNew : ∀ worker ∈ new.unjoined, worker < s.workers.length) :
      ∀ c ∈ s.shutdowns.set call new, ∀ worker ∈ c.unjoined, worker < s.workers.length := by
    intro c hMem
    obtain hBefore | rfl := List.mem_or_eq_of_mem_set hMem
    · exact hInside.unjoined c hBefore
    · exact hNew
  have hLength := h.length_workers
  cases h with
  | accept => exact ⟨hInside.joinable, hInside.unjoined⟩
  | acceptNotify | leave | wait | take | wakeTake | wakeLeave | wakeWait | finish =>
      exact ⟨fun worker hMem => hLength ▸ hInside.joinable worker hMem,
        fun c hMem worker hListed => hLength ▸ hInside.unjoined c hMem worker hListed⟩
  | beginShutdown =>
      refine ⟨fun worker hMem => hLength ▸ hInside.joinable worker hMem,
        fun c hMem worker hListed => hLength ▸ ?_⟩
      obtain hBefore | hNew := List.mem_append.1 hMem
      · exact hInside.unjoined c hBefore worker hListed
      · cases List.mem_singleton.1 hNew
        cases hListed
  | takeWorkers => exact ⟨nofun, hSet hInside.joinable⟩
  | join hOld =>
      refine ⟨hInside.joinable, hSet fun worker hMem => ?_⟩
      exact hInside.unjoined _ (List.mem_of_getElem? hOld) worker (List.mem_cons_of_mem _ hMem)
  | clear => exact ⟨hInside.joinable, hSet nofun⟩

end Step

namespace State

theorem inside_initial (count : Nat) : (State.initial count).Inside where
  joinable _ hMem := by simpa [initial] using hMem
  unjoined _ hMem := absurd hMem List.not_mem_nil

variable {s : State}

/-- Nothing that is under way can go on, and no worker runs a task. -/
structure Still (s : State) : Prop where
  stuck : ∀ event, event.goesOn s = true → s.step? event = none
  idle : ∀ task, .running task ∉ s.workers

namespace Still

/-- A worker that was told can take the lock. -/
theorem worker_cases (h : s.Still) {w : Worker} (hMem : w ∈ s.workers) :
    w = .waiting ∨ w = .exited := by
  obtain ⟨worker, hAt⟩ := List.mem_iff_getElem?.1 hMem
  cases w with
  | waiting => exact .inl rfl
  | exited => exact .inr rfl
  | running task => exact absurd hMem (h.idle task)
  | ready =>
      have hStuck := h.stuck (.lock worker) (by simp [Event.goesOn, hAt])
      rw [step?, lock?, hAt] at hStuck
      cases hStuck
  | notified =>
      have hStuck := h.stuck (.lock worker) (by simp [Event.goesOn, hAt])
      rw [step?, lock?, hAt] at hStuck
      cases hStuck

/-- A shutdown goes on until it has returned, once all workers have gone. -/
theorem returned (h : s.Still) (hInside : s.Inside) (hGone : ∀ w ∈ s.workers, w = .exited)
    {c : Shutdown} (hMem : c ∈ s.shutdowns) : c.phase = .returned := by
  obtain ⟨call, hAt⟩ := List.mem_iff_getElem?.1 hMem
  obtain ⟨caller, phase⟩ := c
  cases phase with
  | returned => rfl
  | stopping =>
      have hStuck := h.stuck (.takeWorkers call) rfl
      rw [step?, takeWorkers?, hAt] at hStuck
      cases hStuck
  | joining workers =>
      cases workers with
      | nil =>
          have hStuck := h.stuck (.clear call) rfl
          rw [step?, clear?, hAt] at hStuck
          cases hStuck
      | cons worker rest =>
          have hWorker : worker < s.workers.length :=
            hInside.unjoined _ hMem worker List.mem_cons_self
          have hLeft : s.workers[worker]? = some .exited := by
            rw [List.getElem?_eq_getElem hWorker, hGone _ (List.getElem_mem hWorker)]
          have hStuck := h.stuck (.join call) rfl
          rw [step?, join?, hAt] at hStuck
          simp [hLeft] at hStuck

/-- At rest nothing is queued. A pool that has not stopped has told a worker of every queued task, and
one that has stopped has come to the end of a shutdown, which empties the queue. -/
theorem queue_eq_nil (h : s.Still) (hAwake : s.Awake) (hInside : s.Inside) (hOrderly : s.Orderly)
    (hStaffed : s.workers ≠ []) : s.queue = [] := by
  obtain ⟨first, hFirst⟩ := List.exists_mem_of_ne_nil _ hStaffed
  cases hStop : s.stop with
  | false =>
      have hWaits : .waiting ∈ s.workers := by
        obtain rfl | rfl := h.worker_cases hFirst
        · exact hFirst
        · exact absurd hFirst (hAwake.staffed hStop)
      have hNobody : s.workers.count .notified = 0 := List.count_eq_zero.2 fun hMem => by
        obtain hIs | hIs := h.worker_cases hMem <;> cases hIs
      have hTold := hAwake.told hStop hWaits
      rw [hNobody] at hTold
      exact List.length_eq_zero_iff.1 (Nat.le_zero.1 hTold)
  | true =>
      have hGone : ∀ w ∈ s.workers, w = .exited := fun w hMem =>
        (h.worker_cases hMem).resolve_left fun hIs => hAwake.stopped hStop (hIs ▸ hMem)
      obtain ⟨c, hMem⟩ := List.exists_mem_of_ne_nil _ (hOrderly.stop_iff.1 hStop)
      exact (hOrderly.returned c hMem (h.returned hInside hGone hMem)).2

/-- So each accepted task has ended or was dropped. -/
theorem finished_or_dropped (h : s.Still) (hQueue : s.queue = []) (hOrderly : s.Orderly) {task : Nat}
    (hTask : task < s.accepted) : task ∈ s.finished ∨ task ∈ s.dropped := by
  have hMem : task ∈ s.started ++ s.dropped ++ s.queue :=
    hOrderly.order ▸ List.mem_range.2 hTask
  rw [hQueue, List.append_nil] at hMem
  refine (List.mem_append.1 hMem).imp_left fun hStarted => ?_
  have hHeld := hOrderly.held task
  rw [List.count_eq_zero.2 (h.idle task), Nat.add_zero] at hHeld
  exact List.count_pos_iff.1 (hHeld ▸ List.count_pos_iff.2 hStarted)

end Still

end State

variable {Env Result : Type}

/-- Whether a move needs nobody to begin anything, nor anybody who waits. -/
def Move.goesOn (pool : State) : Move Env Result → Bool
  | .work _ => true
  | move => move.event?.any (·.goesOn pool)

theorem Move.goesOn_cases {pool : State} {move : Move Env Result} (h : move.goesOn pool = true) :
    (∃ worker, move = .work worker) ∨ ∃ event, move.event? = some event ∧ event.goesOn pool = true := by
  cases move with
  | work worker => exact .inl ⟨worker, rfl⟩
  | submit | beginShutdown | look | wait | forget | surround => cases h
  | lock | finish | takeWorkers | join | clear => exact .inr ⟨_, rfl, h⟩

namespace Exchange

variable {release : Result → Env → Env} {x y : Exchange Env Result}

/-- Most moves before rest. Each accepted task has its work before it, once. -/
def toil (x : Exchange Env Result) : Nat :=
  x.tasks.pool.toil + (x.tasks.pool.accepted - x.outcomes.length)

/-- No more tasks have done their work than were accepted. -/
theorem Consistent.length_outcomes_le (hConsistent : x.Consistent) :
    x.outcomes.length ≤ x.tasks.pool.accepted := by
  have hKnown : x.outcomes.map Outcome.task ⊆ List.range x.tasks.pool.accepted := by
    intro task hMem
    obtain ⟨outcome, hOutcome, rfl⟩ := List.mem_map.1 hMem
    exact List.mem_range.2 (hConsistent.lt_accepted_of_started (hConsistent.started _ hOutcome))
  simpa using (List.subperm_of_subset hConsistent.once hKnown).length_le

theorem outcomes_of_step {move : Move Env Result} (h : Step release x move y)
    (hOther : ∀ worker, move ≠ .work worker) : y.outcomes = x.outcomes := by
  cases h with
  | work => exact absurd rfl (hOther _)
  | submit | enter | finish | clear | look | wait | forget | surround => rfl

theorem toil_lt (hConsistent : x.Consistent) {move : Move Env Result}
    (h : x.step? release move = some y) (hGoes : move.goesOn x.tasks.pool = true) :
    y.toil < x.toil := by
  obtain ⟨worker, rfl⟩ | ⟨event, hEvent, hSection⟩ := Move.goesOn_cases hGoes
  · have hPool := pool_step? h
    have hMost := (hConsistent.step (step_of_step? h)).length_outcomes_le
    have hOne : y.outcomes.length = x.outcomes.length + 1 := by
      cases step_of_work? h with
      | work => simp
      | enter _ _ hEvent => cases hEvent
    simp only [Move.event?] at hPool
    rw [hPool] at hMost
    rw [toil, toil, hPool]
    omega
  · have hPool := pool_step? h
    rw [hEvent] at hPool
    have hLess := hPool.toil_lt hSection
    have hSame : y.outcomes = x.outcomes := outcomes_of_step (step_of_step? h) fun worker hWork => by
      rw [hWork] at hEvent
      cases hEvent
    have hAccepted := hPool.accepted_of_not_enqueue fun notified hEnqueue => by
      rw [hEnqueue] at hSection
      cases hSection
    rw [toil, toil, hSame, hAccepted]
    omega

end Exchange

end ShaderBackend.Pool
