import Mathlib.Data.List.Nodup
import ShaderBackend.Proofs.Pool.Exchange
import ShaderBackend.Proofs.Runs

/-! What the waiter of a task is told. A slot holds the result of its task until the waiter takes it,
and it tells that nothing will come when the task has ended or was dropped. -/
namespace ShaderBackend.Pool

variable {Env Result : Type}

theorem Step.section_lists {s t : State} {event : Event} (h : Step s event t)
    (hSection : event.isSection = true) : t.accepted = s.accepted ∧ s.started ⊆ t.started ∧
      t.finished = s.finished ∧ t.dropped = s.dropped := by
  cases h with
  | take | wakeTake => exact ⟨rfl, List.subset_append_left .., rfl, rfl⟩
  | leave | wait | wakeLeave | wakeWait | beginShutdown | takeWorkers | join =>
      exact ⟨rfl, List.Subset.refl _, rfl, rfl⟩
  | accept | acceptNotify | finish | clear => cases hSection

/-- What a task made goes into its slot. A panic leaves nothing. -/
def Slot.receive (slot : Slot Result) : Option Result → Slot Result
  | some value => (slot.leave value).1
  | none => slot

namespace Slot

variable {slot : Slot Result}

theorem hasTask_receive (result : Option Result) : (slot.receive result).hasTask = slot.hasTask := by
  cases result with
  | none => rfl
  | some value =>
      rw [receive, leave]
      split <;> rfl

theorem hasWaiter_receive (result : Option Result) :
    (slot.receive result).hasWaiter = slot.hasWaiter := by
  cases result with
  | none => rfl
  | some value =>
      rw [receive, leave]
      split <;> rfl

/-- The three answers of a look by what the slot holds. A value is found whether or not the task
still has its end. -/
theorem poll_eq_delivered_iff {value : Result} :
    slot.poll.1 = .delivered value ↔ slot.value = some value := by
  unfold poll
  split
  · simp_all
  · split <;> simp_all

/-- Without a value and without a task that could bring one, the answer is that the task is gone. -/
theorem poll_eq_aborted_iff :
    slot.poll.1 = .aborted ↔ slot.value = none ∧ slot.hasTask = false := by
  unfold poll
  split
  · simp_all
  · split <;> simp_all

theorem isPending_poll_iff :
    slot.poll.1.isPending = true ↔ slot.value = none ∧ slot.hasTask = true := by
  unfold poll
  split
  · simp_all [Poll.isPending]
  · split <;> simp_all [Poll.isPending]

/-- A look empties the slot, which is why the next one finds nothing. -/
theorem value_poll : slot.poll.2.value = none := by
  unfold poll
  split
  · rfl
  · assumption

theorem hasTask_poll : slot.poll.2.hasTask = slot.hasTask := by
  unfold poll
  split <;> rfl

end Slot

namespace Tasks

variable {release : Result → Env → Env} {t : Tasks Env Result}
variable {slots : List (Option (Slot Result))} {task : Nat}

/-- A task that ends touches its own slot only. -/
theorem slot?_leave (task : Nat) (result : Option Result) (other : Nat) :
    (t.leave release task result).slot? other =
      if task = other then (t.slot? other).map (·.receive result) else t.slot? other := by
  unfold leave
  split
  · rename_i slot value hSlot
    show ((t.slots.set task (some (slot.leave value).1))[other]?).join = _
    rw [join_getElem?_set (lt_of_join_getElem? hSlot)]
    split
    · rename_i hSame
      rw [← hSame, hSlot, Option.map_some, Slot.receive]
    · rfl
  · split
    · cases t.slot? other <;> rfl
    · rfl
  · rename_i hSlot
    show t.slot? other = _
    split
    · rename_i hSame
      rw [← hSame, hSlot, Option.map_none]
    · rfl

theorem length_slots_leave (task : Nat) (result : Option Result) :
    (t.leave release task result).slots.length = t.slots.length := by
  unfold leave
  split
  · exact List.length_set
  · rfl
  · rfl

theorem length_slots_forget (task : Nat) :
    (t.forget release task).slots.length = t.slots.length := by
  unfold forget
  split
  · exact List.length_set
  · rfl

theorem slot?_close (task other : Nat) :
    (t.close task).slot? other =
      if task = other then (t.slot? other).map Slot.close else t.slot? other :=
  join_getElem?_modify_close task other

theorem slot?_forget (task other : Nat) :
    (t.forget release task).slot? other =
      if task = other then (t.slot? other).map (·.forget.1) else t.slot? other := by
  unfold forget
  split
  · rename_i slot hSlot
    show ((t.slots.set task (some slot.forget.1))[other]?).join = _
    rw [join_getElem?_set (lt_of_join_getElem? hSlot)]
    split
    · rename_i hSame
      rw [← hSame, slot?, hSlot]
      rfl
    · rfl
  · rename_i hSlot
    split
    · rename_i hSame
      rw [← hSame, slot?, hSlot, Option.map_none]
    · rfl

theorem slot?_set {slot : Slot Result} (hSlot : t.slot? task = some slot) (new : Slot Result)
    (other : Nat) :
    slot? { t with slots := t.slots.set task (some new) } other =
      if task = other then some new else t.slot? other :=
  join_getElem?_set (lt_of_join_getElem? hSlot) other

/-- The tasks of a list give up their ends. -/
theorem slot?_closeAll (tasks : List Nat) (other : Nat) :
    ((tasks.foldl (fun slots task => slots.modify task (·.map Slot.close)) slots)[other]?).join =
      if other ∈ tasks then (slots[other]?).join.map Slot.close else (slots[other]?).join := by
  induction tasks generalizing slots with
  | nil => simp
  | cons task rest ih =>
      rw [List.foldl_cons, ih, join_getElem?_modify_close]
      by_cases hSame : task = other
      · subst hSame
        cases (slots[task]?).join <;> simp [Slot.close]
      · simp [hSame, Ne.symm hSame]

theorem length_closeAll (tasks : List Nat) :
    (tasks.foldl (fun slots task => slots.modify task (·.map Slot.close)) slots).length =
      slots.length := by
  induction tasks generalizing slots with
  | nil => rfl
  | cons task rest ih => rw [List.foldl_cons, ih, List.length_modify]

/-- A task joins with its slot, or without one. -/
theorem slot?_concat (added : Option (Slot Result)) (other : Nat) :
    ((slots ++ [added])[other]?).join =
      if other = slots.length then added else (slots[other]?).join := by
  split
  · rename_i hNew
    rw [hNew, List.getElem?_concat_length, Option.join_some]
  · rename_i hOld
    rw [List.getElem?_append]
    split
    · rfl
    · rename_i hOut
      rw [List.getElem?_eq_none (by simp; omega), List.getElem?_eq_none (by omega)]

end Tasks

namespace Exchange

/-- The work of a task came to a panic. -/
def Panicked (x : Exchange Env Result) (task : Nat) : Prop := ⟨task, none⟩ ∈ x.outcomes

/-- A shutdown dropped a task that no worker had taken. -/
def Dropped (x : Exchange Env Result) (task : Nat) : Prop :=
  task ∈ x.tasks.pool.dropped ∧ task ∉ x.tasks.pool.started

def Finished (x : Exchange Env Result) (task : Nat) : Prop := task ∈ x.tasks.pool.finished

/-- The waiter of a task has taken its result. -/
def Delivered (x : Exchange Env Result) (task : Nat) : Prop :=
  ∃ value, ⟨task, .delivered value⟩ ∈ x.findings

/-- The task has no end of its slot any more. -/
def Over (x : Exchange Env Result) (task : Nat) : Prop :=
  task ∈ x.tasks.pool.finished ∨ task ∈ x.tasks.pool.dropped

/-- What a slot holds, by the history of its task and of its waiter. -/
structure SlotFits (x : Exchange Env Result) (task : Nat) (slot : Slot Result) : Prop where
  hasTask : slot.hasTask = true ↔ ¬ x.Over task
  value : slot.hasWaiter = true →
    ∀ value, slot.value = some value ↔ ⟨task, some value⟩ ∈ x.outcomes ∧ ¬ x.Delivered task

/-- The slots agree with the history. -/
structure Consistent (x : Exchange Env Result) : Prop where
  orderly : x.tasks.pool.Orderly
  length_slots : x.tasks.slots.length = x.tasks.pool.accepted
  /-- Only tasks that were started do work, and they do it once. -/
  started : ∀ outcome ∈ x.outcomes, outcome.task ∈ x.tasks.pool.started
  once : (x.outcomes.map Outcome.task).Nodup
  finished : ∀ task ∈ x.tasks.pool.finished, x.hasWorked task = true
  delivered : ∀ task value, ⟨task, .delivered value⟩ ∈ x.findings → ⟨task, some value⟩ ∈ x.outcomes
  slot : ∀ task slot, x.tasks.slot? task = some slot → x.SlotFits task slot

variable {release : Result → Env → Env} {x y : Exchange Env Result} {task : Nat}

theorem hasWorked_iff : x.hasWorked task = true ↔ ∃ result, ⟨task, result⟩ ∈ x.outcomes := by
  rw [hasWorked, List.any_eq_true]
  constructor
  · rintro ⟨outcome, hMem, hTask⟩
    obtain rfl := of_decide_eq_true hTask
    exact ⟨outcome.result, hMem⟩
  · rintro ⟨result, hMem⟩
    exact ⟨_, hMem, decide_eq_true rfl⟩

/-- A slot that nothing happened to goes on fitting its history. -/
theorem SlotFits.frame {slot : Slot Result} (hFits : x.SlotFits task slot)
    (hOver : y.Over task ↔ x.Over task)
    (hOutcomes : ∀ result, ⟨task, result⟩ ∈ y.outcomes ↔ ⟨task, result⟩ ∈ x.outcomes)
    (hDelivered : y.Delivered task ↔ x.Delivered task) : y.SlotFits task slot where
  hasTask := by rw [hFits.hasTask, hOver]
  value hHeld value := by rw [hFits.value hHeld, hOutcomes, hDelivered]

/-- The task of a slot is over, and its end goes. -/
theorem SlotFits.close {slot : Slot Result} (hFits : x.SlotFits task slot) (hOver : y.Over task)
    (hOutcomes : ∀ result, ⟨task, result⟩ ∈ y.outcomes ↔ ⟨task, result⟩ ∈ x.outcomes)
    (hDelivered : y.Delivered task ↔ x.Delivered task) : y.SlotFits task slot.close where
  hasTask := iff_of_false nofun (not_not_intro hOver)
  value hHeld value := by
    show slot.value = some value ↔ _
    rw [hFits.value hHeld, hOutcomes, hDelivered]

/-- The notes grow by what a look finds, and only a value counts as delivered. -/
theorem delivered_note {found : Poll Result} {tasks : Tasks Env Result} {other : Nat} :
    (x.note task found tasks).Delivered other ↔
      x.Delivered other ∨ other = task ∧ ∃ value, found = .delivered value := by
  simp only [Delivered, note, List.mem_append, List.mem_singleton, Finding.mk.injEq, exists_or,
    exists_and_left, eq_comm]

/-- A waiter looks, and a result that it finds is in its slot no more. -/
theorem SlotFits.poll {slot : Slot Result} (hFits : x.SlotFits task slot)
    (hHeld : slot.hasWaiter = true) (slots : List (Option (Slot Result))) :
    SlotFits (x.note task slot.poll.1 { x.tasks with slots }) task slot.poll.2 where
  hasTask := by
    rw [Slot.hasTask_poll]
    exact hFits.hasTask
  value _ value := by
    rw [Slot.value_poll, delivered_note]
    refine iff_of_false nofun fun ⟨hMade, hUntouched⟩ => hUntouched (.inr ⟨rfl, value, ?_⟩)
    rw [Slot.poll_eq_delivered_iff, hFits.value hHeld]
    exact ⟨hMade, fun hDelivered => hUntouched (.inl hDelivered)⟩

/-- A waiter that has gone leaves nothing to fit but the end of the task. -/
theorem SlotFits.forget {slot : Slot Result} (hFits : x.SlotFits task slot) :
    x.SlotFits task slot.forget.1 where
  hasTask := hFits.hasTask
  value hHeld := by cases hHeld

/-- The slot of a task that does its work, and has done none before. -/
theorem SlotFits.receive {slot : Slot Result} {result : Option Result} {env : Env}
    (hFits : x.SlotFits task slot) (hNone : ∀ made, ⟨task, made⟩ ∉ x.outcomes)
    (hDelivered : ∀ value, ⟨task, .delivered value⟩ ∈ x.findings → ⟨task, some value⟩ ∈ x.outcomes) :
    SlotFits { x with tasks := { x.tasks with env }.leave release task result
                      outcomes := x.outcomes ++ [⟨task, result⟩] } task (slot.receive result) where
  hasTask := by
    rw [Slot.hasTask_receive, hFits.hasTask]
    simp only [Over, Tasks.pool_leave]
  value hHeld value := by
    rw [Slot.hasWaiter_receive] at hHeld
    have hUntouched : ¬ x.Delivered task := fun ⟨value, hMem⟩ => hNone _ (hDelivered value hMem)
    have hOutcome : ⟨task, some value⟩ ∈ x.outcomes ++ [⟨task, result⟩] ↔ some value = result := by
      simp [hNone]
    show _ ↔ ⟨task, some value⟩ ∈ x.outcomes ++ [⟨task, result⟩] ∧ ¬ x.Delivered task
    rw [hOutcome, and_iff_left hUntouched]
    cases result with
    | none =>
        rw [Slot.receive, hFits.value hHeld]
        exact iff_of_false (fun hMade => hNone _ hMade.1) nofun
    | some made => 
        rw [Slot.receive, Slot.leave, if_pos hHeld]
        exact eq_comm

namespace Consistent

theorem initial (count : Nat) (env : Env) :
    (Exchange.initial count env : Exchange Env Result).Consistent where
  orderly := Reaches.start.orderly
  length_slots := rfl
  started _ hMem := absurd hMem List.not_mem_nil
  once := List.nodup_nil
  finished _ hMem := absurd hMem List.not_mem_nil
  delivered _ _ hMem := absurd hMem List.not_mem_nil
  slot _ _ hSlot := by cases hSlot

/-- A task is started, dropped or queued, and only one of these. -/
theorem nodup (hConsistent : x.Consistent) :
    (x.tasks.pool.started ++ x.tasks.pool.dropped ++ x.tasks.pool.queue).Nodup := by
  rw [hConsistent.orderly.order]
  exact List.nodup_range

/-- A task works once, so it has one outcome. -/
theorem outcome_unique (hConsistent : x.Consistent) {first second : Option Result}
    (hFirst : ⟨task, first⟩ ∈ x.outcomes) (hSecond : ⟨task, second⟩ ∈ x.outcomes) :
    first = second :=
  (Outcome.mk.inj (List.inj_on_of_nodup_map hConsistent.once hFirst hSecond rfl)).2

/-- A task that has ended was started. -/
theorem started_of_finished (hConsistent : x.Consistent) (h : x.Finished task) :
    task ∈ x.tasks.pool.started := by
  obtain ⟨result, hMem⟩ := hasWorked_iff.1 (hConsistent.finished task h)
  exact hConsistent.started _ hMem

/-- Tasks are numbered as they are accepted. -/
theorem lt_accepted_of_started (hConsistent : x.Consistent) (h : task ∈ x.tasks.pool.started) :
    task < x.tasks.pool.accepted := by
  rw [← List.mem_range, ← hConsistent.orderly.order]
  exact List.mem_append_left _ (List.mem_append_left _ h)

theorem lt_accepted_of_over (hConsistent : x.Consistent) (h : x.Over task) :
    task < x.tasks.pool.accepted := by
  obtain hFinished | hDropped := h
  · exact hConsistent.lt_accepted_of_started (hConsistent.started_of_finished hFinished)
  · rw [← List.mem_range, ← hConsistent.orderly.order]
    exact List.mem_append_left _ (List.mem_append_right _ hDropped)

/-- A new slot is empty, and the next task has no history. -/
theorem slotFits_accepted (hConsistent : x.Consistent) :
    x.SlotFits x.tasks.pool.accepted {} where
  hasTask := iff_of_true rfl fun hOver => absurd (hConsistent.lt_accepted_of_over hOver) (lt_irrefl _)
  value _ value := by
    refine iff_of_false nofun fun hMade => ?_
    exact absurd (hConsistent.lt_accepted_of_started (hConsistent.started _ hMade.1)) (lt_irrefl _)

theorem submit {job : Job Env Result} {awaited : Bool} {notified : Option Nat} {pool : State}
    (hConsistent : x.Consistent) (hPool : Pool.Step x.tasks.pool (.enqueue notified) pool) :
    Consistent { x with tasks := { x.tasks with
      pool
      jobs := x.tasks.jobs ++ [job]
      slots := x.tasks.slots ++ [if awaited then some {} else none] } } := by
  have hLists : pool.accepted = x.tasks.pool.accepted + 1 ∧ pool.started = x.tasks.pool.started ∧
      pool.finished = x.tasks.pool.finished ∧ pool.dropped = x.tasks.pool.dropped := by
    cases hPool <;> exact ⟨rfl, rfl, rfl, rfl⟩
  obtain ⟨hAccepted, hStarted, hFinished, hDropped⟩ := hLists
  constructor
  case orderly => exact hPool.orderly hConsistent.orderly
  case length_slots => simp [hAccepted, hConsistent.length_slots]
  case started => exact fun outcome hMem => hStarted ▸ hConsistent.started outcome hMem
  case once => exact hConsistent.once
  case finished => exact fun task hMem => hConsistent.finished task (hFinished ▸ hMem)
  case delivered => exact hConsistent.delivered
  case slot =>
    intro task slot hSlot
    suffices hFits : x.SlotFits task slot from hFits.frame
      (by simp only [Over, hFinished, hDropped]) (fun _ => .rfl) .rfl
    rw [Tasks.slot?, Tasks.slot?_concat, hConsistent.length_slots] at hSlot
    split at hSlot
    · rename_i hNew
      split at hSlot
      · cases hSlot
        exact hNew ▸ hConsistent.slotFits_accepted
      · cases hSlot
    · exact hConsistent.slot task slot hSlot

/-- A section that ends no task changes nothing for the waiters. -/
theorem enter {event : Event} {pool : State} (hConsistent : x.Consistent)
    (hPool : Pool.Step x.tasks.pool event pool) (hSection : event.isSection = true) :
    Consistent { x with tasks := { x.tasks with pool } } := by
  obtain ⟨hAccepted, hStarted, hFinished, hDropped⟩ := hPool.section_lists hSection
  constructor
  case orderly => exact hPool.orderly hConsistent.orderly
  case length_slots => exact hConsistent.length_slots.trans hAccepted.symm
  case started => exact fun outcome hMem => hStarted (hConsistent.started outcome hMem)
  case once => exact hConsistent.once
  case finished => exact fun task hMem => hConsistent.finished task (hFinished ▸ hMem)
  case delivered => exact hConsistent.delivered
  case slot =>
    intro task slot hSlot
    exact (hConsistent.slot task slot hSlot).frame
      (by simp only [Over, hFinished, hDropped]) (fun _ => .rfl) .rfl

/-- The task that a worker runs was started and has not ended. -/
theorem running (hConsistent : x.Consistent) {worker : Nat}
    (hRuns : x.tasks.pool.workers[worker]? = some (.running task)) :
    task ∈ x.tasks.pool.started ∧ ¬ x.Over task := by
  have hHeld := hConsistent.orderly.held task
  have hHere : 0 < x.tasks.pool.workers.count (.running task) :=
    List.count_pos_iff.2 (List.mem_of_getElem? hRuns)
  have hStarted : task ∈ x.tasks.pool.started := List.count_pos_iff.1 (by omega)
  have hNodup := hConsistent.nodup
  rw [List.nodup_append, List.nodup_append] at hNodup
  obtain ⟨⟨hStartedOnce, -, hApart⟩, -, -⟩ := hNodup
  refine ⟨hStarted, fun hOver => ?_⟩
  obtain hFinished | hDropped := hOver
  · have hOnce := List.nodup_iff_count_le_one.1 hStartedOnce task
    have hEnded : 0 < x.tasks.pool.finished.count task := List.count_pos_iff.2 hFinished
    omega
  · exact hApart task hStarted task hDropped rfl

/-- A task does its work, and what it made can be found in its slot. -/
theorem work {worker : Nat} (result : Option Result) (env : Env) (hConsistent : x.Consistent)
    (hRuns : x.tasks.pool.workers[worker]? = some (.running task))
    (hNew : x.hasWorked task = false) :
    Consistent { x with tasks := { x.tasks with env }.leave release task result
                        outcomes := x.outcomes ++ [⟨task, result⟩] } := by
  have hNone : ∀ made, ⟨task, made⟩ ∉ x.outcomes := fun made hMem =>
    Bool.eq_false_iff.1 hNew (hasWorked_iff.2 ⟨made, hMem⟩)
  obtain ⟨hStarted, hGoes⟩ := hConsistent.running hRuns
  constructor
  case orderly =>
    rw [Tasks.pool_leave]
    exact hConsistent.orderly
  case length_slots =>
    rw [Tasks.pool_leave, Tasks.length_slots_leave]
    exact hConsistent.length_slots
  case started =>
    rw [Tasks.pool_leave]
    intro outcome hMem
    obtain hBefore | hLast := List.mem_append.1 hMem
    · exact hConsistent.started outcome hBefore
    · rwa [List.mem_singleton.1 hLast]
  case once =>
    rw [List.map_append, List.nodup_append]
    refine ⟨hConsistent.once, List.nodup_singleton _, fun earlier hEarlier last hLast hSame => ?_⟩
    obtain ⟨outcome, hMem, rfl⟩ := List.mem_map.1 hEarlier
    obtain rfl := List.mem_singleton.1 hLast
    exact hNone outcome.result (hSame ▸ hMem)
  case finished =>
    rw [Tasks.pool_leave]
    intro other hMem
    obtain ⟨made, hMade⟩ := hasWorked_iff.1 (hConsistent.finished other hMem)
    exact hasWorked_iff.2 ⟨made, List.mem_append_left _ hMade⟩
  case delivered =>
    intro other value hMem
    exact List.mem_append_left _ (hConsistent.delivered other value hMem)
  case slot =>
    intro other slot hSlot
    rw [Tasks.slot?_leave] at hSlot
    split at hSlot
    · rename_i hSame
      subst hSame
      obtain ⟨old, hOld, rfl⟩ := Option.map_eq_some_iff.1 hSlot
      have hFits := hConsistent.slot task old hOld
      exact hFits.receive hNone fun value hMem => hConsistent.delivered task value hMem
    · rename_i hOther
      refine (hConsistent.slot other slot hSlot).frame ?_ (fun made => ?_) .rfl
      · simp only [Over, Tasks.pool_leave]
      · simp [Ne.symm hOther]

/-- A task ends, and its slot loses the end of the task. -/
theorem finish {worker : Nat} {pool : State} (hConsistent : x.Consistent)
    (hWorked : x.hasWorked task = true) (hPool : Pool.Step x.tasks.pool (.finish worker) pool)
    (hFinished : pool.finished = x.tasks.pool.finished ++ [task]) :
    Consistent { x with tasks := { x.tasks with pool }.close task } := by
  have hLists : pool.accepted = x.tasks.pool.accepted ∧ pool.started = x.tasks.pool.started ∧
      pool.dropped = x.tasks.pool.dropped := by
    cases hPool
    exact ⟨rfl, rfl, rfl⟩
  obtain ⟨hAccepted, hStarted, hDropped⟩ := hLists
  constructor
  case orderly => exact hPool.orderly hConsistent.orderly
  case length_slots =>
    exact (List.length_modify ..).trans (hConsistent.length_slots.trans hAccepted.symm)
  case started => exact fun outcome hMem => hStarted ▸ hConsistent.started outcome hMem
  case once => exact hConsistent.once
  case finished =>
    intro other hMem
    obtain hBefore | hLast := List.mem_append.1 (hFinished ▸ hMem)
    · exact hConsistent.finished other hBefore
    · rwa [List.mem_singleton.1 hLast]
  case delivered => exact hConsistent.delivered
  case slot =>
    intro other slot hSlot
    rw [Tasks.slot?_close] at hSlot
    split at hSlot
    · rename_i hSame
      subst hSame
      obtain ⟨old, hOld, rfl⟩ := Option.map_eq_some_iff.1 hSlot
      refine (hConsistent.slot task old hOld).close (.inl ?_) (fun _ => .rfl) .rfl
      show task ∈ pool.finished
      rw [hFinished]
      exact List.mem_append_right _ (List.mem_singleton_self _)
    · rename_i hOther
      refine (hConsistent.slot other slot hSlot).frame ?_ (fun _ => .rfl) .rfl
      simp only [Over, Tasks.pool_close, hFinished, hDropped, List.mem_append, List.mem_singleton,
        Ne.symm hOther, or_false]

/-- A shutdown drops what is queued, and the slots of these tasks lose the ends of the tasks. -/
theorem clear {call : Nat} {pool : State} (hConsistent : x.Consistent)
    (hPool : Pool.Step x.tasks.pool (.clear call) pool) :
    Consistent { x with tasks := { x.tasks with
      pool
      slots := x.tasks.pool.queue.foldl
        (fun slots task => slots.modify task (·.map Slot.close)) x.tasks.slots } } := by
  have hLists : pool.accepted = x.tasks.pool.accepted ∧ pool.started = x.tasks.pool.started ∧
      pool.finished = x.tasks.pool.finished ∧
      pool.dropped = x.tasks.pool.dropped ++ x.tasks.pool.queue := by
    cases hPool
    exact ⟨rfl, rfl, rfl, rfl⟩
  obtain ⟨hAccepted, hStarted, hFinished, hDropped⟩ := hLists
  constructor
  case orderly => exact hPool.orderly hConsistent.orderly
  case length_slots =>
    exact (Tasks.length_closeAll ..).trans (hConsistent.length_slots.trans hAccepted.symm)
  case started => exact fun outcome hMem => hStarted ▸ hConsistent.started outcome hMem
  case once => exact hConsistent.once
  case finished => exact fun task hMem => hConsistent.finished task (hFinished ▸ hMem)
  case delivered => exact hConsistent.delivered
  case slot =>
    intro other slot hSlot
    rw [Tasks.slot?, Tasks.slot?_closeAll] at hSlot
    split at hSlot
    · rename_i hQueued
      obtain ⟨old, hOld, rfl⟩ := Option.map_eq_some_iff.1 hSlot
      refine (hConsistent.slot other old hOld).close (.inr ?_) (fun _ => .rfl) .rfl
      rw [hDropped]
      exact List.mem_append_right _ hQueued
    · rename_i hOther
      refine (hConsistent.slot other slot hSlot).frame ?_ (fun _ => .rfl) .rfl
      simp only [Over, hFinished, hDropped, List.mem_append, hOther, or_false]

/-- A waiter takes what is in its slot. -/
theorem look {slot : Slot Result} (hConsistent : x.Consistent)
    (hSlot : x.tasks.slot? task = some slot) (hHeld : slot.hasWaiter = true) :
    Consistent (x.note task slot.poll.1
      { x.tasks with slots := x.tasks.slots.set task (some slot.poll.2) }) := by
  have hFits := hConsistent.slot task slot hSlot
  constructor
  case orderly => exact hConsistent.orderly
  case length_slots => exact List.length_set.trans hConsistent.length_slots
  case started => exact hConsistent.started
  case once => exact hConsistent.once
  case finished => exact hConsistent.finished
  case delivered =>
    intro other value hMem
    obtain hBefore | hLast := List.mem_append.1 hMem
    · exact hConsistent.delivered other value hBefore
    · obtain ⟨rfl, hFound⟩ := Finding.mk.inj (List.mem_singleton.1 hLast)
      exact ((hFits.value hHeld value).1 (slot.poll_eq_delivered_iff.1 hFound.symm)).1
  case slot =>
    intro other new hNew
    rw [note, Tasks.slot?_set hSlot] at hNew
    split at hNew
    · rename_i hSame
      subst hSame
      cases hNew
      exact hFits.poll hHeld _
    · rename_i hOther
      refine (hConsistent.slot other new hNew).frame .rfl (fun _ => .rfl) ?_
      simp [delivered_note, Ne.symm hOther]

theorem forget (hConsistent : x.Consistent) (task : Nat) :
    Consistent { x with tasks := x.tasks.forget release task } := by
  constructor
  case orderly =>
    rw [Tasks.pool_forget]
    exact hConsistent.orderly
  case length_slots =>
    rw [Tasks.pool_forget, Tasks.length_slots_forget]
    exact hConsistent.length_slots
  case started =>
    rw [Tasks.pool_forget]
    exact hConsistent.started
  case once => exact hConsistent.once
  case finished =>
    rw [Tasks.pool_forget]
    exact hConsistent.finished
  case delivered => exact hConsistent.delivered
  case slot =>
    intro other slot hSlot
    rw [Tasks.slot?_forget] at hSlot
    have hOver : Over { x with tasks := x.tasks.forget release task } other ↔ x.Over other := by
      simp only [Over, Tasks.pool_forget]
    split at hSlot
    · obtain ⟨old, hOld, rfl⟩ := Option.map_eq_some_iff.1 hSlot
      exact (hConsistent.slot other old hOld).forget.frame hOver (fun _ => .rfl) .rfl
    · exact (hConsistent.slot other slot hSlot).frame hOver (fun _ => .rfl) .rfl

theorem surround (hConsistent : x.Consistent) (env : Env) :
    Consistent { x with tasks := { x.tasks with env } } :=
  { hConsistent with
    slot := fun task slot hSlot =>
      (hConsistent.slot task slot hSlot).frame .rfl (fun _ => .rfl) .rfl }

/-- Every move keeps the history and the slots in step. The cases are the moves, each with its own
lemma above. -/
theorem step {move : Move Env Result} (hConsistent : x.Consistent) (h : Step release x move y) :
    y.Consistent := by
  cases h with
  | submit hPool => exact hConsistent.submit hPool
  | enter hPool hSection => exact hConsistent.enter hPool hSection
  | work hRuns _ hNew => exact hConsistent.work _ _ hRuns hNew
  | finish hWorked hPool => exact hConsistent.finish hWorked hPool rfl
  | clear hPool => exact hConsistent.clear hPool
  | look hSlot hHeld => exact hConsistent.look hSlot hHeld
  | wait hSlot hHeld => exact (hConsistent.look hSlot hHeld).forget _
  | forget => exact hConsistent.forget _
  | surround env => exact hConsistent.surround env

theorem run {moves : List (Move Env Result)} (hConsistent : x.Consistent)
    (run : x.run? release moves = some y) : y.Consistent :=
  foldlM_invariant run hConsistent fun h hBefore => hBefore.step (step_of_step? h)

/-- Consistency of all reachable states, by induction over the run. -/
theorem of_run? {count : Nat} {env : Env} {moves : List (Move Env Result)}
    (run : (Exchange.initial count env).run? release moves = some x) : x.Consistent :=
  (initial count env).run run

/-- A dropped task was taken by no worker. -/
theorem dropped_iff (hConsistent : x.Consistent) :
    x.Dropped task ↔ task ∈ x.tasks.pool.dropped := by
  refine and_iff_left_of_imp fun hDropped hStarted => ?_
  have hApart := (List.nodup_append.1 (List.nodup_append.1 hConsistent.nodup).1).2.2
  exact hApart task hStarted task hDropped rfl

end Consistent

/-- What the waiter of a task is told, by the history of both. -/
structure Verdict (x : Exchange Env Result) (task : Nat) (found : Poll Result) : Prop where
  delivered : ∀ value, found = .delivered value ↔
    ⟨task, some value⟩ ∈ x.outcomes ∧ ¬ x.Delivered task
  aborted : found = .aborted ↔
    x.Dropped task ∨ x.Finished task ∧ (x.Panicked task ∨ x.Delivered task)
  pending : found.isPending = true ↔
    ¬ x.Over task ∧ ∀ value, ⟨task, some value⟩ ∈ x.outcomes → x.Delivered task

/-- An empty slot has been emptied by its waiter, or has never been filled. -/
theorem SlotFits.value_eq_none_iff {slot : Slot Result} (hFits : x.SlotFits task slot)
    (hHeld : slot.hasWaiter = true) :
    slot.value = none ↔ ∀ value, ⟨task, some value⟩ ∈ x.outcomes → x.Delivered task := by
  rw [Option.eq_none_iff_forall_ne_some]
  simp only [ne_eq, hFits.value hHeld, not_and, not_not]

theorem Consistent.verdict {slot : Slot Result} (hConsistent : x.Consistent)
    (hSlot : x.tasks.slot? task = some slot) (hHeld : slot.hasWaiter = true) :
    x.Verdict task slot.poll.1 := by
  have hFits := hConsistent.slot task slot hSlot
  have hEmpty := hFits.value_eq_none_iff hHeld
  have hOver : slot.hasTask = false ↔ x.Over task := by
    rw [← Bool.not_eq_true, hFits.hasTask, not_not]
  constructor
  case delivered => exact fun value => slot.poll_eq_delivered_iff.trans (hFits.value hHeld value)
  case pending => 
    rw [Slot.isPending_poll_iff, hEmpty, hFits.hasTask]
    exact and_comm
  case aborted =>
    rw [Slot.poll_eq_aborted_iff, hEmpty, hOver, hConsistent.dropped_iff]
    constructor
    · rintro ⟨hTaken, hFinished | hDropped⟩
      · obtain ⟨result, hMade⟩ := hasWorked_iff.1 (hConsistent.finished task hFinished)
        cases result with
        | none => exact .inr ⟨hFinished, .inl hMade⟩
        | some value => exact .inr ⟨hFinished, .inr (hTaken value hMade)⟩
      · exact .inl hDropped
    · rintro (hDropped | ⟨hFinished, hPanicked | hDelivered⟩)
      · refine ⟨fun value hMade => ?_, .inr hDropped⟩
        exact absurd (hConsistent.started _ hMade) (hConsistent.dropped_iff.2 hDropped).2
      · refine ⟨fun value hMade => ?_, .inl hFinished⟩
        cases hConsistent.outcome_unique hPanicked hMade
      · exact ⟨fun _ _ => hDelivered, .inl hFinished⟩

/-- Whoever waits for a task is told that it was aborted exactly if it was dropped unrun, if it ended
by a panic, or if it ended and its result was taken before. Waiting to the end tells the same as a
look, once there is something to tell. -/
theorem look_verdict {count : Nat} {env : Env} {moves : List (Move Env Result)}
    (run : (initial count env).run? release moves = some x) (hHeld : x.isHeld task = true) :
    ∃ found y, x.step? release (.look task) = some y ∧
      y.findings = x.findings ++ [⟨task, found⟩] ∧ x.Verdict task found ∧
      if found.isPending then x.step? release (.wait task) = none
      else ∃ z, x.step? release (.wait task) = some z ∧ z.findings = x.findings ++ [⟨task, found⟩] := by
  obtain ⟨slot, hSlot, hWaiter⟩ := isHeld_iff.1 hHeld
  refine ⟨slot.poll.1, _, look?_eq hSlot hWaiter, rfl,
    (Consistent.of_run? run).verdict hSlot hWaiter, ?_⟩
  have hWait : x.wait? release task = _ := wait?_eq hSlot hWaiter
  split
  · rename_i hPending
    rw [step?, hWait, if_pos hPending]
  · rename_i hFound
    exact ⟨_, by rw [step?, hWait, if_neg hFound], rfl⟩

/-- A task that returns a number, or panics. -/
def returning (result : Option Nat) : Job Unit Nat := { run := fun _ _ env => (result, env) }

/-- One worker. The first task ends after its result was taken, the second panics, and the third is
dropped. -/
def threeEndings : List (Move Unit Nat) :=
  [.submit (returning (some 7)) true none, .submit (returning none) true none,
    .submit (returning (some 8)) true none, .lock 0, .work 0, .look 0, .finish 0, .lock 0,
    .beginShutdown .outside, .work 0, .finish 0, .lock 0, .takeWorkers 0, .join 0, .clear 0]

def afterThreeEndings : Exchange Unit Nat :=
  { tasks :=
      { pool :=
          { workers := [.exited], stop := true, busy := 0, joinable := [], accepted := 3
            started := [0, 1], finished := [0, 1], dropped := [2]
            shutdowns := [⟨.outside, .returned⟩] }
        jobs := [returning (some 7), returning none, returning (some 8)]
        slots := [some { hasTask := false }, some { hasTask := false }, some { hasTask := false }]
        env := () }
    outcomes := [⟨0, some 7⟩, ⟨1, none⟩]
    findings := [⟨0, .delivered 7⟩] }

def dropResult (_ : Nat) (env : Unit) : Unit := env

theorem look_verdict_threeEndings :
    (initial 1 ()).run? dropResult threeEndings = some afterThreeEndings ∧
    (afterThreeEndings.isHeld 0 = true ∧ ∃ y, afterThreeEndings.step? dropResult (.look 0) = some y ∧
      y.findings = [⟨0, .delivered 7⟩, ⟨0, .aborted⟩]) := by
  have hRun : (initial 1 ()).run? dropResult threeEndings = some afterThreeEndings := rfl
  have hHeld : afterThreeEndings.isHeld 0 = true := rfl
  obtain ⟨found, y, hLook, hFindings, hVerdict, -⟩ := look_verdict hRun hHeld
  obtain rfl : found = .aborted := hVerdict.aborted.2
    (.inr ⟨by simp [Finished, afterThreeEndings], .inr ⟨7, by simp [afterThreeEndings]⟩⟩)
  exact ⟨hRun, hHeld, y, hLook, hFindings⟩

/-- A task that ended normally is reported as aborted to a waiter that has taken its result. -/
theorem taken_reported_aborted :
    ¬ ∀ (count : Nat) (moves : List (Move Unit Nat)) (x y : Exchange Unit Nat) (task : Nat),
      (initial count ()).run? dropResult moves = some x →
      x.step? dropResult (.look task) = some y →
      y.findings = x.findings ++ [⟨task, .aborted⟩] → x.Panicked task ∨ x.Dropped task := by
  intro hOnly
  have hRun : (initial 1 ()).run? dropResult threeEndings = some afterThreeEndings := rfl
  obtain hPanicked | hDropped := hOnly 1 threeEndings afterThreeEndings _ 0 hRun rfl rfl
  · simp [Panicked, afterThreeEndings] at hPanicked
  · simp [Dropped, afterThreeEndings] at hDropped

end Exchange

end ShaderBackend.Pool
