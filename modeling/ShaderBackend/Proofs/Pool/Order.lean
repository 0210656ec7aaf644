import Mathlib.Data.List.Range
import ShaderBackend.Proofs.Pool.Waiting

/-! Where the accepted tasks of a pool are. They leave the queue in the order in which they came: what
was started, what was dropped and what is still queued, one after the other, is what was accepted. -/
namespace ShaderBackend.Pool

/-- The task that a worker runs. -/
def Worker.task? : Worker → Option Nat
  | .running task => some task
  | _ => none

@[simp] theorem Worker.task?_running (task : Nat) : (Worker.running task).task? = some task := rfl
@[simp] theorem Worker.task?_ready : Worker.ready.task? = none := rfl
@[simp] theorem Worker.task?_waiting : Worker.waiting.task? = none := rfl
@[simp] theorem Worker.task?_notified : Worker.notified.task? = none := rfl
@[simp] theorem Worker.task?_exited : Worker.exited.task? = none := rfl

def State.taskOf? (s : State) (worker : Nat) : Option Nat := s.workers[worker]?.bind Worker.task?

/-- A worker inside the wait runs nothing. -/
theorem Worker.task?_of_insideWait {w : Worker} (h : w.insideWait = true) : w.task? = none := by
  cases w with
  | waiting | notified => rfl
  | ready | running | exited => cases h

section Counting

variable {workers : List Worker} {index : Nat} {old : Worker}

theorem count_task?_toList (w : Worker) (task : Nat) :
    w.task?.toList.count task = if w = .running task then 1 else 0 := by
  cases w with
  | running own => simp [Worker.task?, List.count_singleton]
  | ready | waiting | notified | exited => rfl

/-- One worker moves, gives up the task that it ran and gets another one. -/
theorem count_running_set (task : Nat) (hOld : workers[index]? = some old) (new : Worker) :
    (workers.set index new).count (.running task) + old.task?.toList.count task =
      workers.count (.running task) + new.task?.toList.count task := by
  rw [count_task?_toList, count_task?_toList]
  exact count_set_add (.running task) hOld new

/-- A worker without a task adds the one that it takes. -/
theorem count_running_set_of_idle (task : Nat) (hOld : workers[index]? = some old)
    (hIdle : old.task? = none) (new : Worker) :
    (workers.set index new).count (.running task) =
      workers.count (.running task) + new.task?.toList.count task := by
  simpa [hIdle] using count_running_set task hOld new

theorem count_running_map_wake (task : Nat) :
    (workers.map State.wake).count (.running task) = workers.count (.running task) := by
  rw [List.count_eq_countP, List.countP_map, List.count_eq_countP]
  congr 1
  funext w
  cases w <;> rfl

end Counting

namespace Step

variable {s t : State} {event : Event}

/-- The flag goes up with the first shutdown and stays. -/
theorem stop_iff (h : Step s event t) (hStop : s.stop = true ↔ s.shutdowns ≠ []) :
    t.stop = true ↔ t.shutdowns ≠ [] := by
  cases h with
  | beginShutdown => simp
  | takeWorkers | join | clear => simpa using hStop
  | accept | acceptNotify | leave | wait | take | wakeTake | wakeLeave | wakeWait | finish =>
      exact hStop

/-- Nothing joins the queue of a pool that has stopped. -/
theorem drained (h : Step s event t) (hStop : s.stop = true) (hQueue : s.queue = []) :
    t.stop = true ∧ t.queue = [] := by
  cases h with
  | accept hOpen | acceptNotify hOpen | wait hOpen | take hOpen => cases hOpen.symm.trans hStop
  | wakeTake hTask => cases hQueue.symm.trans hTask
  | beginShutdown => exact ⟨rfl, hQueue⟩
  | clear => exact ⟨hStop, rfl⟩
  | leave | wakeLeave | wakeWait | finish | takeWorkers | join => exact ⟨hStop, hQueue⟩

/-- A worker that has gone does not come back. -/
theorem exited (h : Step s event t) {worker : Nat} (hGone : s.workers[worker]? = some .exited) :
    t.workers[worker]? = some .exited := by
  have hSet {index : Nat} {old new : Worker} (hOld : s.workers[index]? = some old)
      (hStays : old ≠ .exited) : (s.workers.set index new)[worker]? = some .exited := by
    rw [List.getElem?_set_ne, hGone]
    rintro rfl
    exact hStays (Option.some.inj (hOld.symm.trans hGone))
  cases h with
  | accept | takeWorkers | join | clear => exact hGone
  | beginShutdown => simp [hGone, State.wake]
  | acceptNotify _ hOld | leave _ hOld | wait _ _ hOld | take _ _ hOld | finish _ hOld =>
      exact hSet hOld nofun
  | wakeTake _ hOld hInside | wakeLeave _ _ hOld hInside | wakeWait _ _ hOld hInside =>
      exact hSet hOld (by rintro rfl; cases hInside)

/-- Tasks leave the queue at its front, to be started, or all at once, to be dropped. -/
theorem order (h : Step s event t)
    (hOrder : s.started ++ s.dropped ++ s.queue = List.range s.accepted)
    (hDropped : s.dropped ≠ [] → s.stop = true ∧ s.queue = []) :
    t.started ++ t.dropped ++ t.queue = List.range t.accepted := by
  cases h with
  | accept | acceptNotify => simp [List.range_succ, ← hOrder]
  | take _ hQueue | wakeTake hQueue =>
      -- a dropped task would stand between the started ones and the next
      have hNone : s.dropped = [] := by
        by_contra hSome
        cases (hDropped hSome).2.symm.trans hQueue
      simpa [hNone, hQueue] using hOrder
  | clear => simpa using hOrder
  | leave | wait | wakeLeave | wakeWait | finish | beginShutdown | takeWorkers | join =>
      exact hOrder

/-- Only the last section of a shutdown drops tasks, and it drops the whole queue. -/
theorem dropped_cases (h : Step s event t) : t.dropped = s.dropped ∨
    ∃ call caller, event = .clear call ∧ s.shutdowns[call]? = some ⟨caller, .joining []⟩ ∧
      t.dropped = s.dropped ++ s.queue := by
  cases h with
  | clear hCall => exact .inr ⟨_, _, rfl, hCall, rfl⟩
  | _ => exact .inl rfl

/-- A shutdown returns from its last section. -/
theorem returned_cases (h : Step s event t) {c : Shutdown} (hMem : c ∈ t.shutdowns)
    (hReturned : c.phase = .returned) : c ∈ s.shutdowns ∨ ∃ call, event = .clear call := by
  cases h with
  | accept | acceptNotify | leave | wait | take | wakeTake | wakeLeave | wakeWait | finish =>
      exact .inl hMem
  | beginShutdown =>
      refine .inl ((List.mem_append.1 hMem).resolve_right fun hNew => ?_)
      cases List.mem_singleton.1 hNew
      cases hReturned
  | takeWorkers | join =>
      refine .inl ((List.mem_or_eq_of_mem_set hMem).resolve_right ?_)
      rintro rfl
      cases hReturned
  | clear => exact .inr ⟨_, rfl⟩

/-- A queue is cleared by a shutdown only, so the pool has stopped by then. -/
theorem emptied {call : Nat} (h : Step s (.clear call) t)
    (hStop : s.stop = true ↔ s.shutdowns ≠ []) : t.stop = true ∧ t.queue = [] := by
  cases h with
  | clear hCall => exact ⟨hStop.2 (List.ne_nil_of_mem (List.mem_of_getElem? hCall)), rfl⟩

/-- A task is started when a worker gets it and ends when the worker gives it up. -/
theorem held (h : Step s event t)
    (hHeld : ∀ task, s.finished.count task + s.workers.count (.running task) =
      s.started.count task) (task : Nat) :
    t.finished.count task + t.workers.count (.running task) = t.started.count task := by
  have hBefore := hHeld task
  cases h with
  | accept | takeWorkers | join | clear => exact hBefore
  | beginShutdown => rwa [count_running_map_wake]
  | acceptNotify _ hOld | leave _ hOld | wait _ _ hOld =>
      simpa [count_running_set_of_idle task hOld rfl] using hBefore
  | take _ _ hOld =>
      simp [count_running_set_of_idle task hOld rfl, ← hBefore, Nat.add_assoc]
  | wakeTake _ hOld hInside =>
      have hIdle := Worker.task?_of_insideWait hInside
      simp [count_running_set_of_idle task hOld hIdle, ← hBefore, Nat.add_assoc]
  | wakeLeave _ _ hOld hInside | wakeWait _ _ hOld hInside =>
      have hIdle := Worker.task?_of_insideWait hInside
      simpa [count_running_set_of_idle task hOld hIdle] using hBefore
  | finish _ hOld =>
      have hCount := count_running_set task hOld .ready
      simp only [Worker.task?_running, Worker.task?_ready, Option.toList_some, Option.toList_none,
        List.count_nil, List.count_append] at hCount ⊢
      omega

end Step

/-- The books of a pool. -/
structure State.Orderly (s : State) : Prop where
  stop_iff : s.stop = true ↔ s.shutdowns ≠ []
  order : s.started ++ s.dropped ++ s.queue = List.range s.accepted
  /-- Where a task was dropped or a shutdown has returned, nothing is queued any more. -/
  dropped : s.dropped ≠ [] → s.stop = true ∧ s.queue = []
  returned : ∀ c ∈ s.shutdowns, c.phase = .returned → s.stop = true ∧ s.queue = []
  held : ∀ task, s.finished.count task + s.workers.count (.running task) = s.started.count task

/-- All of this is kept by every step. -/
theorem Step.orderly {s t : State} {event : Event} (h : Step s event t) (hOrderly : s.Orderly) :
    t.Orderly where
  stop_iff := h.stop_iff hOrderly.stop_iff
  order := h.order hOrderly.order hOrderly.dropped
  dropped hSome := by
    obtain hSame | ⟨call, -, rfl, -⟩ := h.dropped_cases
    · obtain ⟨hStop, hQueue⟩ := hOrderly.dropped (hSame ▸ hSome)
      exact h.drained hStop hQueue
    · exact h.emptied hOrderly.stop_iff
  returned c hMem hReturned := by
    obtain hBefore | ⟨call, rfl⟩ := h.returned_cases hMem hReturned
    · obtain ⟨hStop, hQueue⟩ := hOrderly.returned c hBefore hReturned
      exact h.drained hStop hQueue
    · exact h.emptied hOrderly.stop_iff
  held := h.held hOrderly.held

/-- A new pool is in order, and so is whatever it reaches. -/
theorem Reaches.orderly {count : Nat} {events : List Event} {s : State}
    (run : Reaches (.initial count) events s) : s.Orderly := by
  refine run.invariant ?_ Step.orderly
  exact
    { stop_iff := by simp [State.initial]
      order := rfl
      dropped := fun hSome => absurd rfl hSome
      returned := fun c hMem => absurd hMem List.not_mem_nil
      held := fun task => by simp [State.initial, List.count_replicate] }

end ShaderBackend.Pool
