import ShaderBackend.Proofs.Pool.Order
import ShaderBackend.Proofs.Runs

/-! A pool with the history of what its callers and its workers did: which tasks were offered and
which of them were turned away, which worker started a task and how the task ended, and which workers
a shutdown has joined. The history agrees with what the pool keeps, and every run of a pool has one. -/
namespace ShaderBackend.Pool

/-- What somebody does next. -/
inductive Action where
  /-- A caller offers a task. If the pool accepts it the notification reaches this worker. -/
  | offer (notified : Option Nat)
  | lock (worker : Nat)
  /-- The task of a worker ends, by a panic or normally. -/
  | finish (worker : Nat) (panicked : Bool)
  | beginShutdown (caller : Caller)
  | takeWorkers (call : Nat)
  | join (call : Nat)
  | clear (call : Nat)
  deriving DecidableEq, Repr

/-- The transition of the pool, where it takes part. -/
def Action.event : Action → Event
  | .offer notified => .enqueue notified
  | .lock worker => .lock worker
  | .finish worker _ => .finish worker
  | .beginShutdown caller => .beginShutdown caller
  | .takeWorkers call => .takeWorkers call
  | .join call => .join call
  | .clear call => .clear call

/-- Every transition of the pool is one that the journal can record. -/
theorem Event.exists_action (event : Event) : ∃ action : Action, action.event = event := by
  cases event with
  | enqueue notified => exact ⟨.offer notified, rfl⟩
  | lock worker => exact ⟨.lock worker, rfl⟩
  | finish worker => exact ⟨.finish worker false, rfl⟩
  | beginShutdown caller => exact ⟨.beginShutdown caller, rfl⟩
  | takeWorkers call => exact ⟨.takeWorkers call, rfl⟩
  | join call => exact ⟨.join call, rfl⟩
  | clear call => exact ⟨.clear call, rfl⟩

theorem Action.eq_clear_of_event {action : Action} {call : Nat} (h : action.event = .clear call) :
    action = .clear call := by
  cases action with
  | clear =>
      cases h
      rfl
  | offer | lock | finish | beginShutdown | takeWorkers | join => cases h

/-- A worker gets a task out of the queue. -/
structure Start where
  worker : Nat
  task : Nat
  deriving DecidableEq, Repr

structure Ending where
  task : Nat
  panicked : Bool
  deriving DecidableEq, Repr

/-- A shutdown finds that a worker has gone. -/
structure Joined where
  call : Nat
  worker : Nat
  deriving DecidableEq, Repr

/-- The worker that the next join of a call finds gone. The worker that the call runs on has not
gone, and is passed over. -/
def State.nextJoined? (s : State) (call : Nat) : Option Nat :=
  match s.shutdowns[call]? with
  | some ⟨_, .joining (index :: _)⟩ => if s.workers[index]? = some .exited then some index else none
  | _ => none

/-- A worker that is joined next has left. -/
theorem State.exited_of_nextJoined? {s : State} {call worker : Nat}
    (h : s.nextJoined? call = some worker) : s.workers[worker]? = some .exited := by
  rw [nextJoined?] at h
  split at h
  · split at h
    · cases h
      assumption
    · cases h
  · cases h

namespace Action

/-- The offer that is accepted, given the number of offers before. -/
def accepted (offered : Nat) : Action → List Nat
  | .offer _ => [offered]
  | _ => []

/-- What is started, given the pool afterwards. -/
def starts (after : State) : Action → List Start
  | .lock worker => (after.taskOf? worker).toList.map (⟨worker, ·⟩)
  | _ => []

/-- What ends, given the pool before. -/
def endings (before : State) : Action → List Ending
  | .finish worker panicked => (before.taskOf? worker).toList.map (⟨·, panicked⟩)
  | _ => []

def joins (before : State) : Action → List Joined
  | .join call => (before.nextJoined? call).toList.map (⟨call, ·⟩)
  | _ => []

/-- Each join that is recorded is one of a worker that has left. -/
theorem exited_of_mem_joins {before : State} {action : Action} {x : Joined}
    (hMem : x ∈ action.joins before) : before.workers[x.worker]? = some .exited := by
  cases action with
  | join call =>
      obtain ⟨worker, hNext, rfl⟩ := List.mem_map.1 hMem
      exact State.exited_of_nextJoined? (Option.mem_toList.1 hNext)
  | offer | lock | finish | beginShutdown | takeWorkers | clear => cases hMem

end Action

theorem bind_task?_set {workers : List Worker} {index : Nat} {old : Worker}
    (hOld : workers[index]? = some old) (new : Worker) :
    (workers.set index new)[index]?.bind Worker.task? = new.task? := by
  obtain ⟨hInside, -⟩ := List.getElem?_eq_some_iff.1 hOld
  rw [List.getElem?_set_self hInside, Option.bind_some]

namespace Step

variable {s t : State} {action : Action}

/-- The pool counts the tasks that the journal lists. -/
theorem accepted_eq (h : Step s action.event t) (offered : Nat) :
    t.accepted = s.accepted + (action.accepted offered).length := by
  cases action with
  | offer => cases h <;> rfl
  | lock | finish | beginShutdown | takeWorkers | join | clear => cases h <;> rfl

/-- Starts are recorded in the order in which the pool starts them. -/
theorem started_eq (h : Step s action.event t) :
    t.started = s.started ++ (action.starts t).map Start.task := by
  cases action with
  | lock worker =>
      cases h with
      | leave _ hOld | wait _ _ hOld | wakeLeave _ _ hOld | wakeWait _ _ hOld =>
          simp [Action.starts, State.taskOf?, bind_task?_set hOld]
      | take _ _ hOld | wakeTake _ hOld =>
          simp [Action.starts, State.taskOf?, bind_task?_set hOld]
  | offer | finish | beginShutdown | takeWorkers | join | clear =>
      cases h <;> simp [Action.starts]

/-- So are endings. -/
theorem finished_eq (h : Step s action.event t) :
    t.finished = s.finished ++ (action.endings s).map Ending.task := by
  cases action with
  | finish worker =>
      cases h with
      | finish _ hOld => simp [Action.endings, State.taskOf?, hOld]
  | offer | lock | beginShutdown | takeWorkers | join | clear =>
      cases h <;> simp [Action.endings]

/-- A worker that runs a task has just got it or had it before. -/
theorem running_cases (h : Step s action.event t) {worker task : Nat}
    (hRuns : t.workers[worker]? = some (.running task)) :
    s.workers[worker]? = some (.running task) ∨ ⟨worker, task⟩ ∈ action.starts t := by
  have hSet {index : Nat} {new : Worker}
      (hAfter : (s.workers.set index new)[worker]? = some (.running task))
      (hNew : new ≠ .running task) : s.workers[worker]? = some (.running task) := by
    rw [List.getElem?_set] at hAfter
    split at hAfter
    · simp [hNew] at hAfter
    · exact hAfter
  cases action with
  | lock index =>
      by_cases hSame : index = worker
      · subst hSame
        exact .inr (by simp [Action.starts, State.taskOf?, hRuns])
      · left
        cases h <;> simpa [List.getElem?_set_ne hSame] using hRuns
  | offer =>
      cases h with
      | accept => exact .inl hRuns
      | acceptNotify => exact .inl (hSet hRuns nofun)
  | finish =>
      cases h with
      | finish => exact .inl (hSet hRuns nofun)
  | beginShutdown =>
      cases h with
      | beginShutdown =>
          rw [List.getElem?_map] at hRuns
          obtain ⟨w, hBefore, hWake⟩ := Option.map_eq_some_iff.1 hRuns
          cases w with
          | running => exact .inl (hWake ▸ hBefore)
          | ready | waiting | notified | exited => cases hWake
  | takeWorkers | join | clear =>
      cases h
      exact .inl hRuns

end Step

structure Journal where
  pool : State
  /-- Number of tasks offered. An offer is known by the number of those before it. -/
  offered : Nat := 0
  /-- The offers that were accepted, in this order: the place of one is its number in the pool. -/
  accepted : List Nat := []
  rejected : List Nat := []
  starts : List Start := []
  endings : List Ending := []
  joins : List Joined := []
  deriving DecidableEq, Repr

namespace Journal

def initial (count : Nat) : Journal := { pool := .initial count }

/-- An offer that the pool refuses. -/
def turnAway (j : Journal) : Journal :=
  { j with offered := j.offered + 1, rejected := j.rejected ++ [j.offered] }

def record (j : Journal) (action : Action) (pool : State) : Journal :=
  { pool
    offered := j.offered + (action.accepted j.offered).length
    accepted := j.accepted ++ action.accepted j.offered
    rejected := j.rejected
    starts := j.starts ++ action.starts pool
    endings := j.endings ++ action.endings j.pool
    joins := j.joins ++ action.joins j.pool }

def step? (j : Journal) : Action → Option Journal
  | .offer notified =>
    match j.pool.enqueue? notified with
    | some pool => some (j.record (.offer notified) pool)
    | none => if j.pool.refuses then some j.turnAway else none
  | action => (j.pool.step? action.event).map (j.record action)

/-- The journal after a run of actions, `none` if one of them cannot happen. -/
def run? (j : Journal) (actions : List Action) : Option Journal := actions.foldlM step? j

section Steps

variable {j k : Journal} {action : Action}

/-- Either the pool turns an offer away, or it moves and the journal notes it. -/
theorem step?_cases (h : j.step? action = some k) :
    (j.pool.stop = true ∧ k = j.turnAway) ∨
      ∃ pool, j.pool.step? action.event = some pool ∧ k = j.record action pool := by
  cases action with
  | offer notified =>
      rw [step?] at h
      split at h
      · rename_i pool hPool
        exact .inr ⟨pool, hPool, (Option.some.inj h).symm⟩
      · split at h
        · exact .inl ⟨State.refuses_iff.1 ‹_›, (Option.some.inj h).symm⟩
        · cases h
  | lock | finish | beginShutdown | takeWorkers | join | clear =>
      obtain ⟨pool, hPool, rfl⟩ := Option.map_eq_some_iff.1 h
      exact .inr ⟨pool, hPool, rfl⟩

/-- What the pool does can be noted. -/
theorem step?_of_pool {pool : State} (h : j.pool.step? action.event = some pool) :
    j.step? action = some (j.record action pool) := by
  cases action with
  | offer notified =>
      rw [step?, show j.pool.enqueue? notified = some pool from h]
  | lock | finish | beginShutdown | takeWorkers | join | clear =>
      show (j.pool.step? _).map _ = _
      rw [h, Option.map_some]

end Steps

/-- What the journal says is what the pool did. -/
structure Faithful (count : Nat) (j : Journal) : Prop where
  reached : ∃ events, Reaches (.initial count) events j.pool
  offers : (j.accepted ++ j.rejected).Perm (List.range j.offered)
  accepted : j.accepted.length = j.pool.accepted
  started : j.starts.map Start.task = j.pool.started
  finished : j.endings.map Ending.task = j.pool.finished
  runner : ∀ worker task, j.pool.workers[worker]? = some (.running task) → ⟨worker, task⟩ ∈ j.starts
  joined : ∀ x ∈ j.joins, j.pool.workers[x.worker]? = some .exited

namespace Faithful

variable {count : Nat} {j : Journal}

/-- A new journal is faithful, since nothing has happened. -/
theorem initial (count : Nat) : (Journal.initial count).Faithful count where
  reached := ⟨[], .start⟩
  offers := .refl _
  accepted := rfl
  started := rfl
  finished := rfl
  runner worker task hRuns := by
    cases List.eq_of_mem_replicate (List.mem_of_getElem? hRuns)
  joined _ hMem := absurd hMem List.not_mem_nil

/-- A call that is refused is recorded beside the pool, which it has not touched. -/
theorem turnAway (hFaithful : j.Faithful count) : j.turnAway.Faithful count :=
  { hFaithful with
    offers := by
      show (j.accepted ++ (j.rejected ++ [j.offered])).Perm (List.range (j.offered + 1))
      rw [← List.append_assoc, List.range_succ]
      exact hFaithful.offers.append_right _ }

/-- Every offer is among the accepted or among the rejected ones, and only once. -/
theorem offers_record (hFaithful : j.Faithful count) (action : Action) (pool : State) :
    ((j.record action pool).accepted ++ (j.record action pool).rejected).Perm
      (List.range (j.record action pool).offered) := by
  cases action with
  | offer =>
      show (j.accepted ++ [j.offered] ++ j.rejected).Perm (List.range (j.offered + 1))
      rw [List.append_assoc, List.range_succ]
      refine (List.perm_append_comm.append_left j.accepted).trans ?_
      rw [← List.append_assoc]
      exact hFaithful.offers.append_right _
  | lock | finish | beginShutdown | takeWorkers | join | clear =>
      simpa [Journal.record, Action.accepted] using hFaithful.offers

/-- What the pool does and what is recorded of it are the same. -/
theorem record (hFaithful : j.Faithful count) {action : Action} {pool : State}
    (hPool : j.pool.step? action.event = some pool) : (j.record action pool).Faithful count := by
  have hStep := State.step_of_step? hPool
  obtain ⟨events, hRun⟩ := hFaithful.reached
  constructor
  case reached => exact ⟨_, hRun.step hPool⟩
  case offers => exact hFaithful.offers_record action pool
  case accepted =>
    show (j.accepted ++ _).length = pool.accepted
    rw [List.length_append, hFaithful.accepted, hStep.accepted_eq]
  case started =>
    show (j.starts ++ _).map Start.task = pool.started
    rw [List.map_append, hFaithful.started, hStep.started_eq]
  case finished =>
    show (j.endings ++ _).map Ending.task = pool.finished
    rw [List.map_append, hFaithful.finished, hStep.finished_eq]
  case runner =>
    intro worker task hRuns
    exact List.mem_append.2 ((hStep.running_cases hRuns).imp_left (hFaithful.runner worker task))
  case joined =>
    intro x hMem
    obtain hBefore | hNew := List.mem_append.1 hMem
    · exact hStep.exited (hFaithful.joined x hBefore)
    · exact hStep.exited (Action.exited_of_mem_joins hNew)

/-- Whatever is done next, the journal stays faithful. -/
theorem step {action : Action} {k : Journal} (hFaithful : j.Faithful count)
    (h : j.step? action = some k) : k.Faithful count := by
  obtain ⟨-, rfl⟩ | ⟨pool, hPool, rfl⟩ := step?_cases h
  · exact hFaithful.turnAway
  · exact hFaithful.record hPool

theorem of_run? {actions : List Action} (run : (Journal.initial count).run? actions = some j) :
    j.Faithful count :=
  foldlM_invariant run (.initial count) fun h hFaithful => hFaithful.step h

end Faithful

/-- Whatever a pool does, there is a journal of it. -/
theorem exists_of_reaches {count : Nat} {events : List Event} {s : State}
    (run : Reaches (.initial count) events s) :
    ∃ actions j, (initial count).run? actions = some j ∧ actions.map Action.event = events ∧
      j.pool = s := by
  induction run with
  | start => exact ⟨[], initial count, rfl, rfl, rfl⟩
  | @step events s t event prior last ih =>
      obtain ⟨actions, j, hRun, rfl, rfl⟩ := ih
      obtain ⟨action, rfl⟩ := event.exists_action
      refine ⟨actions ++ [action], j.record action t, ?_, by simp, rfl⟩
      rw [run?, List.foldlM_append]
      refine Option.bind_eq_some_iff.2 ⟨j, hRun, ?_⟩
      simpa using step?_of_pool last

end Journal

end ShaderBackend.Pool
