import Mathlib.Data.List.Induction
import ShaderBackend.Pool.State

/-! What one transition of a pool can do. `Step` lists the sections that hold the lock path by path,
each with what it asks for and what it changes; later proofs split its cases and open no section. -/
namespace ShaderBackend.Pool

/-- Inside the wait: blocked, or told to wake and without the lock as yet. -/
def Worker.insideWait : Worker → Bool
  | .waiting | .notified => true
  | _ => false

/-- The paths through the transitions. -/
inductive Step (s : State) : Event → State → Prop where
  | accept (hOpen : s.stop = false) (hNobody : .waiting ∉ s.workers) :
      Step s (.enqueue none)
        { s with queue := s.queue ++ [s.accepted], accepted := s.accepted + 1 }
  | acceptNotify {index : Nat} (hOpen : s.stop = false)
      (hOld : s.workers[index]? = some .waiting) :
      Step s (.enqueue (some index))
        { s with queue := s.queue ++ [s.accepted], accepted := s.accepted + 1
                 workers := s.workers.set index .notified }
  | leave {index : Nat} (hStop : s.stop = true) (hOld : s.workers[index]? = some .ready) :
      Step s (.lock index)
        { s with workers := s.workers.set index .exited, busy := s.busy - 1 }
  | wait {index : Nat} (hOpen : s.stop = false) (hQueue : s.queue = [])
      (hOld : s.workers[index]? = some .ready) :
      Step s (.lock index)
        { s with workers := s.workers.set index .waiting, busy := s.busy - 1 }
  | take {index task : Nat} {rest : List Nat} (hOpen : s.stop = false)
      (hQueue : s.queue = task :: rest) (hOld : s.workers[index]? = some .ready) :
      Step s (.lock index)
        { s with workers := s.workers.set index (.running task), queue := rest
                 started := s.started ++ [task] }
  | wakeTake {index task : Nat} {rest : List Nat} {old : Worker}
      (hQueue : s.queue = task :: rest) (hOld : s.workers[index]? = some old)
      (hInside : old.insideWait = true) :
      Step s (.lock index)
        { s with workers := s.workers.set index (.running task), queue := rest
                 started := s.started ++ [task], busy := s.busy + 1 }
  | wakeLeave {index : Nat} {old : Worker} (hStop : s.stop = true) (hQueue : s.queue = [])
      (hOld : s.workers[index]? = some old) (hInside : old.insideWait = true) :
      Step s (.lock index) { s with workers := s.workers.set index .exited }
  | wakeWait {index : Nat} {old : Worker} (hOpen : s.stop = false) (hQueue : s.queue = [])
      (hOld : s.workers[index]? = some old) (hInside : old.insideWait = true) :
      Step s (.lock index) { s with workers := s.workers.set index .waiting }
  | finish {index task : Nat} (hFree : s.stopsItself index = false)
      (hOld : s.workers[index]? = some (.running task)) :
      Step s (.finish index)
        { s with workers := s.workers.set index .ready, finished := s.finished ++ [task] }
  | beginShutdown {caller : Caller} (hCan : s.canCall caller = true) :
      Step s (.beginShutdown caller)
        { s with stop := true, workers := s.workers.map State.wake
                 shutdowns := s.shutdowns ++ [⟨caller, .stopping⟩] }
  | takeWorkers {call : Nat} {caller : Caller}
      (hCall : s.shutdowns[call]? = some ⟨caller, .stopping⟩) :
      Step s (.takeWorkers call)
        { s with shutdowns := s.shutdowns.set call ⟨caller, .joining s.joinable⟩, joinable := [] }
  | join {call index : Nat} {caller : Caller} {rest : List Nat}
      (hCall : s.shutdowns[call]? = some ⟨caller, .joining (index :: rest)⟩)
      (hLeft : caller = .worker index ∨ s.workers[index]? = some .exited) :
      Step s (.join call) { s with shutdowns := s.shutdowns.set call ⟨caller, .joining rest⟩ }
  | clear {call : Nat} {caller : Caller}
      (hCall : s.shutdowns[call]? = some ⟨caller, .joining []⟩) :
      Step s (.clear call)
        { s with shutdowns := s.shutdowns.set call ⟨caller, .returned⟩
                 queue := [], dropped := s.dropped ++ s.queue }

namespace State

variable {s t : State}

/-- A shutdown moves on by itself, while the other calls stay in their phases. -/
theorem setPhase_eq {call : Nat} {caller : Caller} {old : Phase}
    (hCall : s.shutdowns[call]? = some ⟨caller, old⟩) (phase : Phase) :
    s.setPhase call phase = { s with shutdowns := s.shutdowns.set call ⟨caller, phase⟩ } := by
  obtain ⟨hInside, hEntry⟩ := List.getElem?_eq_some_iff.1 hCall
  have hShutdowns : (s.shutdowns.modify call fun c => { c with phase }) =
      s.shutdowns.set call ⟨caller, phase⟩ := by
    apply List.ext_getElem?
    intro other
    rw [List.getElem?_modify, List.getElem?_set]
    by_cases hSame : call = other
    · subst hSame
      simp [hInside, hEntry]
    · simp [hSame]
  rw [setPhase, hShutdowns]

/-- Of a call that is accepted, the queue and the number of accepted tasks tell, and the worker that
it woke. -/
theorem step_of_enqueue? {notified : Option Nat} (h : s.enqueue? notified = some t) :
    Step s (.enqueue notified) t := by
  rw [enqueue?] at h
  split at h
  · cases h
  · rename_i hAccepts
    simp only [Bool.or_eq_true, Bool.not_eq_true', not_or, Bool.not_eq_true,
      Bool.not_eq_false] at hAccepts
    obtain ⟨hOpen, hCan⟩ := hAccepts
    cases notified with
    | none =>
        cases h
        exact .accept hOpen (by simpa [canNotify] using hCan)
    | some index =>
        cases h
        exact .acceptNotify hOpen (by simpa [canNotify] using hCan)

/-- The first worker that waits can be notified, and nobody if nobody waits. -/
theorem canNotify_firstWaiting? : s.canNotify s.firstWaiting? = true := by
  cases hFirst : s.firstWaiting? with
  | none =>
      have hNobody : .waiting ∉ s.workers := fun hMem => by
        simpa using List.findIdx?_eq_none_iff.1 hFirst _ hMem
      simpa [canNotify] using hNobody
  | some index =>
      obtain ⟨hInside, hWaits, -⟩ := List.findIdx?_eq_some_iff_getElem.1 hFirst
      simpa [canNotify, List.getElem?_eq_some_iff] using ⟨hInside, of_decide_eq_true hWaits⟩

/-- Handing a task to the first worker that waits fails in a stopped pool only. -/
theorem enqueue?_firstWaiting?_eq_none_iff : s.enqueue? s.firstWaiting? = none ↔ s.stop = true := by
  rw [enqueue?, canNotify_firstWaiting?]
  simp

/-- What makes a pool refuse a task is the stop flag, and nothing else. -/
theorem refuses_iff : s.refuses = true ↔ s.stop = true := by
  rw [refuses, Option.isNone_iff_eq_none, enqueue?_firstWaiting?_eq_none_iff]

/-- A stopped pool takes no task, whichever worker would be woken. -/
theorem enqueue?_eq_none_of_stop (hStop : s.stop = true) (notified : Option Nat) :
    s.enqueue? notified = none := by
  rw [enqueue?, hStop, Bool.true_or, if_pos rfl]

/-- A worker at the top of its loop leaves if the pool is stopped, and else takes a task or waits. -/
theorem step_lockReady {index : Nat} (hOld : s.workers[index]? = some .ready) :
    Step s (.lock index) (s.lockReady index) := by
  rw [lockReady]
  split
  · exact .leave ‹_› hOld
  · rename_i hOpen
    rw [Bool.not_eq_true] at hOpen
    cases hQueue : s.queue with
    | nil =>
        rw [if_pos List.isEmpty_nil]
        exact .wait hOpen hQueue hOld
    | cons task rest =>
        rw [if_neg (by simp), takeTask, hQueue]
        exact .take hOpen hQueue hOld

/-- So does one that wakes, told or not, except that a queue with tasks comes before the stop
flag. -/
theorem step_lockWaking {index : Nat} {old : Worker} (hOld : s.workers[index]? = some old)
    (hInside : old.insideWait = true) : Step s (.lock index) (s.lockWaking index) := by
  rw [lockWaking]
  cases hQueue : s.queue with
  | nil =>
      rw [if_neg (by simp)]
      split
      · exact .wakeLeave ‹_› hQueue hOld hInside
      · exact .wakeWait (Bool.eq_false_iff.2 ‹_›) hQueue hOld hInside
  | cons task rest =>
      rw [if_pos (by simp), takeTask, hQueue]
      exact .wakeTake hQueue hOld hInside

/-- A worker gets the lock at the top of its loop or inside the wait, and nowhere else. -/
theorem step_of_lock? {index : Nat} (h : s.lock? index = some t) : Step s (.lock index) t := by
  rw [lock?] at h
  split at h
  case h_1 hOld =>
    cases h
    exact step_lockReady hOld
  case h_2 hOld =>
    cases h
    exact step_lockWaking hOld rfl
  case h_3 hOld =>
    cases h
    exact step_lockWaking hOld rfl
  case h_4 => cases h

/-- Only a running task can end, and its worker is back at the top of the loop. -/
theorem step_of_finish? {index : Nat} (h : s.finish? index = some t) : Step s (.finish index) t := by
  rw [finish?] at h
  split at h
  · rename_i task hOld
    split at h
    · cases h
    · rename_i hFree
      cases h
      exact .finish (Bool.eq_false_iff.2 hFree) hOld
  · cases h

/-- A shutdown that begins stops the pool and wakes every worker. -/
theorem step_of_beginShutdown? {caller : Caller} (h : s.beginShutdown? caller = some t) :
    Step s (.beginShutdown caller) t := by
  rw [beginShutdown?] at h
  split at h
  · cases h
    exact .beginShutdown ‹_›
  · cases h

/-- The call that comes first gets all workers to join, and those that come later get none. -/
theorem step_of_takeWorkers? {call : Nat} (h : s.takeWorkers? call = some t) :
    Step s (.takeWorkers call) t := by
  rw [takeWorkers?] at h
  split at h
  · rename_i caller hCall
    rw [setPhase_eq hCall] at h
    cases h
    exact .takeWorkers hCall
  · cases h

/-- A call gets past a worker that is gone, or past its own. -/
theorem step_of_join? {call : Nat} (h : s.join? call = some t) : Step s (.join call) t := by
  rw [join?] at h
  split at h
  · rename_i caller index rest hCall
    split at h
    · rw [setPhase_eq hCall] at h
      cases h
      exact .join hCall ‹_›
    · cases h
  · cases h

theorem step_of_clear? {call : Nat} (h : s.clear? call = some t) : Step s (.clear call) t := by
  rw [clear?] at h
  split at h
  · rename_i caller hCall
    rw [setPhase_eq hCall] at h
    cases h
    exact .clear hCall
  · cases h

/-- The function does what the transitions allow and nothing else. -/
theorem step_of_step? {event : Event} (h : s.step? event = some t) : Step s event t := by
  cases event with
  | enqueue notified => exact step_of_enqueue? h
  | lock worker => exact step_of_lock? h
  | finish worker => exact step_of_finish? h
  | beginShutdown caller => exact step_of_beginShutdown? h
  | takeWorkers call => exact step_of_takeWorkers? h
  | join call => exact step_of_join? h
  | clear call => exact step_of_clear? h

/-- The state after a run of transitions, `none` if one of them cannot happen. -/
def run? (s : State) (events : List Event) : Option State := events.foldlM step? s

end State

namespace Reaches

variable {start s : State} {events : List Event}

/-- What every transition keeps holds along a run. -/
theorem invariant {P : State → Prop} (run : Reaches start events s) (hStart : P start)
    (hStep : ∀ {s event t}, Step s event t → P s → P t) : P s := by
  induction run with
  | start => exact hStart
  | step prior last ih => exact hStep (State.step_of_step? last) ih

/-- A run of the function is one of the transition system. -/
theorem of_run? (h : start.run? events = some s) : Reaches start events s := by
  induction events using List.reverseRecOn generalizing s with
  | nil =>
      cases h
      exact .start
  | append_singleton events event ih =>
      rw [State.run?, List.foldlM_append] at h
      obtain ⟨middle, hPrior, hLast⟩ := Option.bind_eq_some_iff.1 h
      exact .step (ih hPrior) (by simpa using hLast)

end Reaches

/-- No worker is added and none is taken away, since those that leave stay in the list. -/
theorem Step.length_workers {s t : State} {event : Event} (h : Step s event t) :
    t.workers.length = s.workers.length := by
  cases h <;> simp

/-- No worker comes and none goes from the list. -/
theorem Reaches.length_workers {start s : State} {events : List Event}
    (run : Reaches start events s) : s.workers.length = start.workers.length :=
  run.invariant (P := fun s => s.workers.length = start.workers.length) rfl
    fun hStep hLength => hStep.length_workers.trans hLength

end ShaderBackend.Pool
