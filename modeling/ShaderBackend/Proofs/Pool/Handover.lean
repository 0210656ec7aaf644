import ShaderBackend.Proofs.Pool.Verdicts

/-! How a worker hands over what its task made. The slot of the task is empty then, or its waiter has
gone, so that no worker has to wait for anybody, unless its task shuts the pool down. -/
namespace ShaderBackend.Pool

/-- No task shuts its own pool down. -/
def State.StoppedOutside (s : State) : Prop := ∀ call ∈ s.shutdowns, call.caller = .outside

namespace Step

variable {s t : State} {event : Event}

/-- As long as no task begins a shutdown, all of them come from outside. -/
theorem stoppedOutside (h : Step s event t) (hCaller : ∀ index, event ≠ .beginShutdown (.worker index))
    (hStopped : s.StoppedOutside) : t.StoppedOutside := by
  have hSet {call : Nat} {caller : Caller} {old new : Phase}
      (hCall : s.shutdowns[call]? = some ⟨caller, old⟩) :
      ∀ c ∈ s.shutdowns.set call ⟨caller, new⟩, c.caller = .outside := by
    intro c hMem
    obtain hBefore | rfl := List.mem_or_eq_of_mem_set hMem
    · exact hStopped c hBefore
    · exact hStopped ⟨caller, old⟩ (List.mem_of_getElem? hCall)
  cases h with
  | accept | acceptNotify | leave | wait | take | wakeTake | wakeLeave | wakeWait | finish =>
      exact hStopped
  | @beginShutdown caller hCan =>
      intro call hMem
      obtain hBefore | hLast := List.mem_append.1 hMem
      · exact hStopped call hBefore
      · obtain rfl := List.mem_singleton.1 hLast
        cases caller with
        | outside => rfl
        | worker index => exact absurd rfl (hCaller index)
  | takeWorkers hCall => exact hSet hCall
  | join hCall => exact hSet hCall
  | clear hCall => exact hSet hCall

/-- Tasks are accepted by nothing but an accepted call. -/
theorem accepted_of_not_enqueue (h : Step s event t) (hOther : ∀ notified, event ≠ .enqueue notified) :
    t.accepted = s.accepted := by
  cases h with
  | accept | acceptNotify => exact absurd rfl (hOther _)
  | leave | wait | take | wakeTake | wakeLeave | wakeWait | finish | beginShutdown | takeWorkers
  | join | clear => rfl

end Step

theorem State.StoppedOutside.stopsItself {s : State} (h : s.StoppedOutside) (index : Nat) :
    s.stopsItself index = false := by
  refine List.any_eq_false.2 fun call hMem => ?_
  simp [h call hMem]

variable {Env Result : Type}

/-- Where no waiter is left a task leaves nothing. -/
theorem Slot.receive_of_not_hasWaiter {slot : Slot Result} (hGone : slot.hasWaiter = false)
    (result : Option Result) : slot.receive result = slot := by
  cases result with
  | none => rfl
  | some value => rw [receive, leave, if_neg (by simp [hGone])]

namespace Tasks

variable {release : Result → Env → Env} {t : Tasks Env Result}

theorem jobs_leave (task : Nat) (result : Option Result) :
    (t.leave release task result).jobs = t.jobs := by
  unfold leave
  split <;> rfl

theorem jobs_forget (task : Nat) : (t.forget release task).jobs = t.jobs := by
  unfold forget
  split <;> rfl

end Tasks

namespace Exchange

variable {release : Result → Env → Env} {x y : Exchange Env Result} {task : Nat}

/-- A slot whose waiter has gone holds nothing. -/
def Emptied (x : Exchange Env Result) : Prop :=
  ∀ task slot, x.tasks.slot? task = some slot → slot.hasWaiter = false → slot.value = none

namespace Emptied

theorem initial (count : Nat) (env : Env) :
    (Exchange.initial count env : Exchange Env Result).Emptied := fun _ _ hSlot => by cases hSlot

/-- Slots only change in ways that keep those empty whose waiter has gone. -/
theorem of_slots (h : x.Emptied) (hSlots : ∀ task new, y.tasks.slot? task = some new →
    new.value = none ∨ new.hasWaiter = true ∨
      ∃ old, x.tasks.slot? task = some old ∧ new.value = old.value ∧ new.hasWaiter = old.hasWaiter) :
    y.Emptied := by
  intro task new hNew hGone
  obtain hNone | hHeld | ⟨old, hOld, hValue, hWaiter⟩ := hSlots task new hNew
  · exact hNone
  · cases hHeld.symm.trans hGone
  · exact hValue.trans (h task old hOld (hWaiter.symm.trans hGone))

/-- No value is put into a slot that nobody reads, so a slot whose waiter has gone stays empty. -/
theorem step {move : Move Env Result} (h : x.Emptied) (hStep : Step release x move y) :
    y.Emptied := by
  refine h.of_slots fun other new hNew => ?_
  have hKept {old : Slot Result} (hOld : x.tasks.slot? other = some old)
      (hValue : new.value = old.value) (hWaiter : new.hasWaiter = old.hasWaiter) :
      new.value = none ∨ new.hasWaiter = true ∨ ∃ old, x.tasks.slot? other = some old ∧
        new.value = old.value ∧ new.hasWaiter = old.hasWaiter := .inr (.inr ⟨old, hOld, hValue, hWaiter⟩)
  cases hStep with
  | enter | surround => exact hKept hNew rfl rfl
  | submit hPool =>
      rw [Tasks.slot?, Tasks.slot?_concat] at hNew
      split at hNew
      · split at hNew
        · cases hNew
          exact .inl rfl
        · cases hNew
      · exact hKept hNew rfl rfl
  | work hRuns hJob hNone hMade =>
      rw [Tasks.slot?_leave] at hNew
      split at hNew
      · obtain ⟨old, hOld, rfl⟩ := Option.map_eq_some_iff.1 hNew
        cases hWaiter : old.hasWaiter with
        | true => exact .inr (.inl ((Slot.hasWaiter_receive _).trans hWaiter))
        | false =>
            rw [Slot.receive_of_not_hasWaiter hWaiter] at hKept ⊢
            exact hKept hOld rfl rfl
      · exact hKept hNew rfl rfl
  | finish hWorked hPool =>
      rw [Tasks.slot?_close] at hNew
      split at hNew
      · obtain ⟨old, hOld, rfl⟩ := Option.map_eq_some_iff.1 hNew
        exact hKept hOld rfl rfl
      · exact hKept hNew rfl rfl
  | clear hPool =>
      rw [Tasks.slot?, Tasks.slot?_closeAll] at hNew
      split at hNew
      · obtain ⟨old, hOld, rfl⟩ := Option.map_eq_some_iff.1 hNew
        exact hKept hOld rfl rfl
      · exact hKept hNew rfl rfl
  | look hSlot hHeld =>
      rw [note, Tasks.slot?_set hSlot] at hNew
      split at hNew
      · cases hNew
        exact .inl Slot.value_poll
      · exact hKept hNew rfl rfl
  | wait hSlot hHeld hFound =>
      rw [note, Tasks.slot?_forget, Tasks.slot?_set hSlot] at hNew
      split at hNew
      · obtain ⟨old, -, rfl⟩ := Option.map_eq_some_iff.1 hNew
        exact .inl rfl
      · exact hKept hNew rfl rfl
  | forget hHeld =>
      rw [Tasks.slot?_forget] at hNew
      split at hNew
      · obtain ⟨old, -, rfl⟩ := Option.map_eq_some_iff.1 hNew
        exact .inl rfl
      · exact hKept hNew rfl rfl

end Emptied

/-- The slot of a task that has done no work yet is empty. -/
theorem Consistent.value_eq_none (hConsistent : x.Consistent) (hEmptied : x.Emptied)
    (hNew : x.hasWorked task = false) {slot : Slot Result} (hSlot : x.tasks.slot? task = some slot) :
    slot.value = none := by
  cases hHeld : slot.hasWaiter with
  | false => exact hEmptied task slot hSlot hHeld
  | true =>
      rw [(hConsistent.slot task slot hSlot).value_eq_none_iff hHeld]
      intro value hMade
      cases hNew.symm.trans (hasWorked_iff.2 ⟨_, hMade⟩)

/-- A worker whose task can end does its work at once, whatever the waiters do. -/
theorem exists_work? {worker : Nat} {job : Job Env Result}
    (hRuns : x.tasks.pool.workers[worker]? = some (.running task))
    (hJob : x.tasks.jobs[task]? = some job) (hEnds : job.canEnd x.tasks.env = true)
    (hStopped : x.tasks.pool.StoppedOutside) (hNew : x.hasWorked task = false) :
    ∃ y, x.step? release (.work worker) = some y := by
  simp only [step?, work?, hRuns, hJob, hNew, hStopped.stopsItself, hEnds]
  exact ⟨_, rfl⟩

/-- A worker whose task has done its work goes on at once. -/
theorem exists_finish? {worker : Nat}
    (hRuns : x.tasks.pool.workers[worker]? = some (.running task))
    (hStopped : x.tasks.pool.StoppedOutside) (hWorked : x.hasWorked task = true) :
    ∃ y, x.step? release (.finish worker) = some y := by
  simp only [step?, finish?, State.finish?, hRuns, hWorked, hStopped.stopsItself]
  exact ⟨_, rfl⟩

end Exchange

end ShaderBackend.Pool
