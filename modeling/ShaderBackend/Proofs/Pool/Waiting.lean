import ShaderBackend.Proofs.Pool.Transitions

/-! Which workers of a pool are inside the wait. The counter of the pool is the number of the others,
and as long as a worker is blocked each queued task has a worker that was told to wake. -/
namespace ShaderBackend.Pool

/-- Neither inside the wait nor gone. -/
def Worker.isBusy (w : Worker) : Bool := !w.insideWait && w ≠ .exited

/-- A worker inside the wait has been counted off. -/
theorem Worker.isBusy_of_insideWait {w : Worker} (h : w.insideWait = true) : w.isBusy = false := by
  simp [isBusy, h]

@[simp] theorem Worker.isBusy_ready : Worker.ready.isBusy = true := rfl
@[simp] theorem Worker.isBusy_running (task : Nat) : (Worker.running task).isBusy = true := rfl
@[simp] theorem Worker.isBusy_waiting : Worker.waiting.isBusy = false := rfl
@[simp] theorem Worker.isBusy_notified : Worker.notified.isBusy = false := rfl
@[simp] theorem Worker.isBusy_exited : Worker.exited.isBusy = false := rfl

section Counting

variable {workers : List Worker} {index : Nat} {old : Worker}

/-- One worker moves, and a count changes by what it was and what it is. -/
theorem countP_set_add (p : Worker → Bool) (hOld : workers[index]? = some old) (new : Worker) :
    (workers.set index new).countP p + (if p old then 1 else 0) =
      workers.countP p + (if p new then 1 else 0) := by
  obtain ⟨hInside, rfl⟩ := List.getElem?_eq_some_iff.1 hOld
  have hCounted : (if p workers[index] then 1 else 0) ≤ workers.countP p := by
    split
    · exact List.countP_pos_iff.2 ⟨_, List.getElem_mem hInside, ‹_›⟩
    · exact Nat.zero_le _
  rw [List.countP_set hInside]
  omega

/-- A worker that changes moves the count by what it was and by what it becomes. -/
theorem countP_isBusy_set (hOld : workers[index]? = some old) (new : Worker) :
    ((workers.set index new).countP Worker.isBusy : Int) =
      workers.countP Worker.isBusy + (if new.isBusy then 1 else 0) -
        (if old.isBusy then 1 else 0) := by
  have hCount := countP_set_add Worker.isBusy hOld new
  cases hWas : old.isBusy
  all_goals cases hIs : new.isBusy
  all_goals simp only [hWas, hIs, Bool.false_eq_true, if_true, if_false] at hCount ⊢
  all_goals omega

theorem count_set_add (w : Worker) (hOld : workers[index]? = some old) (new : Worker) :
    (workers.set index new).count w + (if old = w then 1 else 0) =
      workers.count w + (if new = w then 1 else 0) := by
  simpa [List.count] using countP_set_add (· == w) hOld new

/-- A list in which one worker changes has no others that are new. -/
theorem mem_of_mem_set {w new : Worker} (h : w ∈ workers.set index new) (hNew : w ≠ new) :
    w ∈ workers :=
  (List.mem_or_eq_of_mem_set h).resolve_right hNew

theorem not_mem_set {w new : Worker} (h : w ∉ workers) (hNew : w ≠ new) :
    w ∉ workers.set index new := fun hMem => h (mem_of_mem_set hMem hNew)

/-- When all are woken, nobody waits untold. -/
theorem waiting_not_mem_map_wake : .waiting ∉ workers.map State.wake := by
  intro hMem
  obtain ⟨w, -, hWake⟩ := List.mem_map.1 hMem
  cases w <;> cases hWake

/-- Who is told to wake stays inside the wait. -/
theorem countP_isBusy_map_wake : (workers.map State.wake).countP Worker.isBusy =
    workers.countP Worker.isBusy := by
  rw [List.countP_map]
  congr 1
  funext w
  cases w <;> rfl

end Counting

namespace Step

variable {s t : State} {event : Event}

/-- Each path through the loop counts a worker off as often as it counts it in. -/
theorem busy_eq (h : Step s event t) (hBusy : s.busy = s.workers.countP Worker.isBusy) :
    t.busy = t.workers.countP Worker.isBusy := by
  cases h with
  | accept | takeWorkers | join | clear => exact hBusy
  | beginShutdown => rwa [countP_isBusy_map_wake]
  | acceptNotify _ hOld => rw [countP_isBusy_set hOld, hBusy]; simp
  | leave _ hOld | wait _ _ hOld => rw [countP_isBusy_set hOld, hBusy]; simp
  | take _ _ hOld | finish _ hOld => rw [countP_isBusy_set hOld, hBusy]; simp
  | wakeTake _ hOld hInside =>
      rw [countP_isBusy_set hOld, hBusy]
      simp [Worker.isBusy_of_insideWait hInside]
  | wakeLeave _ _ hOld hInside | wakeWait _ _ hOld hInside =>
      rw [countP_isBusy_set hOld, hBusy]
      simp [Worker.isBusy_of_insideWait hInside]

/-- A section changes the counter at most once, by one. -/
theorem busy_step (h : Step s event t) :
    t.busy = s.busy ∨ t.busy = s.busy + 1 ∨ t.busy = s.busy - 1 := by
  cases h <;> simp

end Step

/-- Of the workers that wait and of those that have gone. -/
structure State.Awake (s : State) : Prop where
  /-- Nobody goes before the pool stops. -/
  staffed : s.stop = false → .exited ∉ s.workers
  /-- Nobody sleeps through a shutdown. -/
  stopped : s.stop = true → .waiting ∉ s.workers
  /-- While somebody sleeps each queued task has somebody who was told. -/
  told : s.stop = false → .waiting ∈ s.workers → s.queue.length ≤ s.workers.count .notified

namespace Step

variable {s t : State} {event : Event}

/-- No worker leaves a pool that runs. -/
theorem staffed (h : Step s event t) (hStaffed : s.stop = false → .exited ∉ s.workers) :
    t.stop = false → .exited ∉ t.workers := by
  intro hOpen
  cases h with
  | accept | takeWorkers | join | clear => exact hStaffed hOpen
  | leave hStop | wakeLeave hStop => cases hStop.symm.trans hOpen
  | beginShutdown => cases hOpen
  | acceptNotify | wait | take | wakeTake | wakeWait | finish =>
      exact not_mem_set (hStaffed hOpen) nofun

/-- Nobody waits untold once the pool has stopped, since a worker does not go to wait any more. -/
theorem stopped (h : Step s event t) (hStopped : s.stop = true → .waiting ∉ s.workers) :
    t.stop = true → .waiting ∉ t.workers := by
  intro hStop
  cases h with
  | accept | takeWorkers | join | clear => exact hStopped hStop
  | wait hOpen | wakeWait hOpen => cases hOpen.symm.trans hStop
  | beginShutdown => exact waiting_not_mem_map_wake
  | acceptNotify | leave | take | wakeTake | wakeLeave | finish =>
      exact not_mem_set (hStopped hStop) nofun

/-- A worker blocks only on an empty queue, and a task that joins the queue brings its own
notification. A task that leaves the queue takes at most one notified worker along. -/
theorem told (h : Step s event t)
    (hTold : s.stop = false → .waiting ∈ s.workers → s.queue.length ≤ s.workers.count .notified) :
    t.stop = false → .waiting ∈ t.workers → t.queue.length ≤ t.workers.count .notified := by
  intro hOpen hWaiting
  cases h with
  | takeWorkers | join => exact hTold hOpen hWaiting
  | accept _ hNobody => exact absurd hWaiting hNobody
  | leave hStop | wakeLeave hStop => cases hStop.symm.trans hOpen
  | beginShutdown => cases hOpen
  | wait _ hQueue | wakeWait _ hQueue => simp [hQueue]
  | clear => exact Nat.zero_le _
  | acceptNotify _ hOld =>
      have hBefore := hTold hOpen (List.mem_of_getElem? hOld)
      have hCount := count_set_add .notified hOld .notified
      simp only [reduceCtorEq, if_false, if_true, List.length_append, List.length_singleton]
        at hCount ⊢
      omega
  | @take _ task _ _ hQueue hOld =>
      have hBefore := hTold hOpen (mem_of_mem_set hWaiting nofun)
      have hCount := count_set_add .notified hOld (.running task)
      simp only [reduceCtorEq, if_false, hQueue, List.length_cons] at hCount hBefore ⊢
      omega
  | @wakeTake _ task _ _ hQueue hOld =>
      have hBefore := hTold hOpen (mem_of_mem_set hWaiting nofun)
      have hCount := count_set_add .notified hOld (.running task)
      simp only [reduceCtorEq, if_false, hQueue, List.length_cons] at hCount hBefore ⊢
      split at hCount <;> omega
  | finish _ hOld =>
      have hBefore := hTold hOpen (mem_of_mem_set hWaiting nofun)
      have hCount := count_set_add .notified hOld .ready
      simp only [reduceCtorEq, if_false] at hCount ⊢
      omega

/-- So all three hold together after each step, and with them that no wake-up is lost. -/
theorem awake (h : Step s event t) (hAwake : s.Awake) : t.Awake where
  staffed := h.staffed hAwake.staffed
  stopped := h.stopped hAwake.stopped
  told := h.told hAwake.told

end Step

/-- Workers that have just started have not come to the wait as yet. -/
theorem State.awake_initial (count : Nat) : (State.initial count).Awake where
  staffed _ := by simp [State.initial]
  stopped _ := by simp [State.initial]
  told _ _ := Nat.zero_le _

namespace Reaches

variable {count : Nat} {s : State} {events : List Event}

theorem awake (run : Reaches (.initial count) events s) : s.Awake :=
  run.invariant (State.awake_initial count) Step.awake

theorem busy_eq (run : Reaches (.initial count) events s) :
    s.busy = s.workers.countP Worker.isBusy :=
  run.invariant (P := fun s => s.busy = s.workers.countP Worker.isBusy)
    (by simp [State.initial, List.countP_replicate]) Step.busy_eq

end Reaches

/-- Between two sections the lock is free. Then a queued task has a worker that will look for it,
nobody sleeps once the pool stops, and as long as somebody sleeps each queued task has a worker of
its own that was told. -/
theorem no_lost_wakeup {count : Nat} {events : List Event} {s : State}
    (run : Reaches (.initial count) events s) :
    ((∃ w ∈ s.workers, w ≠ .exited) → s.queue ≠ [] → s.stop = false →
      ∃ w ∈ s.workers, w ≠ .waiting ∧ w ≠ .exited) ∧
    (s.stop = true → ∀ w ∈ s.workers, w ≠ .waiting) ∧
    (.waiting ∈ s.workers → s.stop = false → s.queue.length ≤ s.workers.count .notified) := by
  have hAwake := run.awake
  refine ⟨?_, ?_, fun hWaiting hOpen => hAwake.told hOpen hWaiting⟩
  · rintro ⟨w, hMem, hStays⟩ hQueued hOpen
    by_cases hWaiting : .waiting ∈ s.workers
    · have hTold := hAwake.told hOpen hWaiting
      have hLength := List.length_pos_iff.2 hQueued
      exact ⟨.notified, List.count_pos_iff.1 (Nat.lt_of_lt_of_le hLength hTold), nofun, nofun⟩
    · exact ⟨w, hMem, fun hIs => hWaiting (hIs ▸ hMem), hStays⟩
  · rintro hStop w hMem rfl
    exact hAwake.stopped hStop hMem

/-- The second worker takes the task that the first one was told of, and the first one blocks again.
The next task finds it there. -/
def stolenTask : List Event :=
  [.lock 0, .lock 2, .enqueue (some 0), .lock 1, .lock 0, .enqueue (some 0)]

def afterStolenTask : State :=
  { workers := [.notified, .running 0, .waiting], queue := [1], busy := 1
    joinable := [0, 1, 2], accepted := 2, started := [0] }

/-- One task is left in the queue, and one worker has been told of it. -/
theorem no_lost_wakeup_stolenTask :
    Reaches (.initial 3) stolenTask afterStolenTask ∧
    (∃ w ∈ afterStolenTask.workers, w ≠ .waiting ∧ w ≠ .exited) ∧
    afterStolenTask.queue.length ≤ afterStolenTask.workers.count .notified := by
  have hRun : Reaches (.initial 3) stolenTask afterStolenTask := .of_run? rfl
  obtain ⟨hQueued, -, hTold⟩ := no_lost_wakeup hRun
  exact ⟨hRun, hQueued ⟨.waiting, by decide, nofun⟩ nofun rfl, hTold (by decide) rfl⟩

/-- Between two sections the counter is the number of workers that are neither inside the wait nor
gone. No section moves it by more than one, so it never falls below zero on the way. -/
theorem running_exact {count : Nat} {events : List Event} {s : State}
    (run : Reaches (.initial count) events s) :
    s.busy = s.workers.countP Worker.isBusy ∧
    s.running = s.workers.countP Worker.isBusy ∧
    0 ≤ s.busy ∧ s.busy ≤ count ∧
    ((∀ w ∈ s.workers, w = .exited) → s.busy = 0) ∧
    ∀ event t, s.step? event = some t →
      0 ≤ t.busy ∧ (t.busy = s.busy ∨ t.busy = s.busy + 1 ∨ t.busy = s.busy - 1) := by
  have hBusy := run.busy_eq
  have hLength : s.workers.length = count := by simpa [State.initial] using run.length_workers
  have hBound := hLength ▸ s.workers.countP_le_length (p := Worker.isBusy)
  refine ⟨hBusy, by simp [State.running, hBusy], by omega, by omega, fun hGone => ?_, ?_⟩
  · rw [hBusy, List.countP_eq_zero.2 fun w hMem => by simp [hGone w hMem]]
    rfl
  · intro event t hStep
    have hNext := (run.step hStep).busy_eq
    exact ⟨by omega, (State.step_of_step? hStep).busy_step⟩

/-- The first worker wakes once for nothing and once with a task although the pool stops. -/
def lateTask : List Event :=
  [.lock 0, .lock 0, .enqueue (some 0), .beginShutdown .outside, .lock 0, .lock 1]

def afterLateTask : State :=
  { workers := [.running 0, .exited], stop := true, busy := 1, joinable := [0, 1], accepted := 1
    started := [0], shutdowns := [⟨.outside, .stopping⟩] }

/-- A worker wakes in a stopped pool, takes the task that is left and is counted again. -/
theorem running_exact_lateTask :
    Reaches (.initial 2) lateTask afterLateTask ∧
    afterLateTask.busy = afterLateTask.workers.countP Worker.isBusy ∧
    afterLateTask.busy ≤ 2 := by
  have hRun : Reaches (.initial 2) lateTask afterLateTask := .of_run? rfl
  obtain ⟨hBusy, -, -, hBound, -⟩ := running_exact hRun
  exact ⟨hRun, hBusy, hBound⟩

end ShaderBackend.Pool
