import ShaderBackend.Proofs.Shader.Kept

/-! Orders on their way. A worker is never kept from leaving what its task made, a waiter finds what came
of its order, and if workers and shutdowns only go on every order comes to its end. -/
namespace ShaderBackend.Shader

open Pool (Exchange Poll Slot Tasks)

variable {State Handle : Type} {factory : Factory State ModuleRequest Handle}

namespace OrderBook

variable {b c : OrderBook State Handle}

theorem step?_pool {move : Pool.Move (Shop State Handle) (ModuleResult Handle)}
    {exchange : Exchange (Shop State Handle) (ModuleResult Handle)} (hMove : isPoolMove move = true)
    (hExchange : b.exchange.step? (releaseModule factory.traced) move = some exchange) :
    b.step? factory (.pool move) =
      some { b with exchange, held := b.held ++ taken b.exchange exchange } := by
  rw [step?, if_pos hMove, hExchange, Option.map_some]

section Waiter

variable {task : Nat} {slot : Slot (ModuleResult Handle)}

/-- A module that was found is held from then on. -/
theorem held_of_findings {y : Exchange (Shop State Handle) (ModuleResult Handle)}
    (hMore : y.findings = b.exchange.findings ++ [⟨task, slot.poll.1⟩]) :
    b.held ++ taken b.exchange y = b.held ++ modulesOf slot.poll.1 := by
  rw [taken_eq hMore, List.flatMap_singleton]

theorem exists_look? (hSlot : b.tasks.slot? task = some slot) (hWaiter : slot.hasWaiter = true) :
    ∃ c, b.step? factory (.pool (.look task)) = some c ∧
      c.exchange.findings = b.exchange.findings ++ [⟨task, slot.poll.1⟩] ∧
      c.held = b.held ++ modulesOf slot.poll.1 :=
  ⟨_, step?_pool rfl (Exchange.look?_eq hSlot hWaiter), rfl, held_of_findings rfl⟩

/-- Waiting comes to an end once there is something to find. -/
theorem exists_wait? (hSlot : b.tasks.slot? task = some slot) (hWaiter : slot.hasWaiter = true) :
    if slot.poll.1.isPending then b.step? factory (.pool (.wait task)) = none
    else ∃ c, b.step? factory (.pool (.wait task)) = some c ∧
      c.exchange.findings = b.exchange.findings ++ [⟨task, slot.poll.1⟩] ∧
      c.held = b.held ++ modulesOf slot.poll.1 := by
  have hWait : b.exchange.step? (releaseModule factory.traced) (.wait task) = _ :=
    Exchange.wait?_eq hSlot hWaiter
  split
  · rename_i hPending
    rw [step?, isPoolMove, if_pos rfl, hWait, if_pos hPending, Option.map_none]
  · rename_i hFound
    rw [if_neg hFound] at hWait
    exact ⟨_, step?_pool rfl hWait, rfl, held_of_findings rfl⟩

end Waiter

/-- What the waiter of an order finds as long as nothing was handed over. -/
inductive Finds (factory : Factory State ModuleRequest Handle) (b : OrderBook State Handle) (task : Nat)
    (o : Order) : Poll (ModuleResult Handle) → Prop where
  | pending (hGoes : ¬ b.exchange.Over task) : Finds factory b task o .pending
  | delivered {result : ModuleResult Handle}
      (hSame : ∀ device, o.answer factory device = some (told result)) :
      Finds factory b task o (.delivered result)
  | dropped (hDropped : b.exchange.Dropped task) : Finds factory b task o .aborted
  | panicked (hPanicked : b.exchange.Panicked task) (hSame : ∀ device, o.answer factory device = none) :
      Finds factory b task o .aborted

namespace Kept

theorem finds (h : b.Kept factory) {task : Nat} {o : Order} {slot : Slot (ModuleResult Handle)}
    (hOrder : b.orders[task]? = some o) (hSlot : b.tasks.slot? task = some slot)
    (hWaiter : slot.hasWaiter = true) (hNew : ¬ b.exchange.Delivered task) :
    b.Finds factory task o slot.poll.1 := by
  have hVerdict := h.consistent.verdict hSlot hWaiter
  have hTold {result : Option (ModuleResult Handle)}
      (hMade : ⟨task, result⟩ ∈ b.exchange.outcomes) (device : State) :
      o.answer factory device = result.map told := by
    obtain ⟨order, hAt, hSame⟩ := h.carries.told task result hMade
    cases hOrder.symm.trans hAt
    exact (hSame device).symm
  cases hFound : slot.poll.1 with
  | pending =>
      rw [hFound] at hVerdict
      exact .pending (hVerdict.pending.1 rfl).1
  | delivered result =>
      rw [hFound] at hVerdict
      exact .delivered (hTold ((hVerdict.delivered result).1 rfl).1)
  | aborted =>
      rw [hFound] at hVerdict
      obtain hDropped | ⟨-, hPanicked | hDelivered⟩ := hVerdict.aborted.1 rfl
      · exact .dropped hDropped
      · exact .panicked hPanicked (hTold hPanicked)
      · exact absurd hDelivered hNew

/-- Every task carries out an order. -/
theorem exists_job (h : b.Kept factory) {worker task : Nat}
    (hRuns : b.tasks.pool.workers[worker]? = some (.running task)) :
    ∃ order : Order, b.tasks.jobs[task]? = some (order.job factory) := by
  have hInside : task < b.orders.length := by
    rw [← h.accepted]
    exact h.consistent.lt_accepted_of_started (h.consistent.running hRuns).1
  refine ⟨b.orders[task], ?_⟩
  rw [h.jobs, List.getElem?_map, List.getElem?_eq_getElem hInside, Option.map_some]

/-- A worker with a task does its work, if that is not done yet, and is done with it otherwise. -/
theorem unblocked (h : b.Kept factory) {worker task : Nat}
    (hRuns : b.tasks.pool.workers[worker]? = some (.running task)) :
    if b.exchange.hasWorked task then ∃ c, b.step? factory (.pool (.finish worker)) = some c
    else (∀ slot, b.tasks.slot? task = some slot → slot.value = none) ∧
      ∃ c, b.step? factory (.pool (.work worker)) = some c := by
  split
  · rename_i hWorked
    have hFinish : ∃ y, b.exchange.step? (releaseModule factory.traced) (.finish worker) = some y :=
      Exchange.exists_finish? hRuns h.stopped hWorked
    exact hFinish.elim fun y hNext => ⟨_, step?_pool rfl hNext⟩
  · rename_i hNew
    rw [Bool.not_eq_true] at hNew
    obtain ⟨order, hJob⟩ := h.exists_job hRuns
    have hWork : ∃ y, b.exchange.step? (releaseModule factory.traced) (.work worker) = some y :=
      Exchange.exists_work? hRuns hJob rfl h.stopped hNew
    refine ⟨fun slot hSlot => h.consistent.value_eq_none h.emptied hNew hSlot, ?_⟩
    exact hWork.elim fun y hNext => ⟨_, step?_pool rfl hNext⟩

end Kept

/-- Workers, tasks and shutdowns that are under way go on. Nobody orders, waits or stops the pool. -/
def Goes (factory : Factory State ModuleRequest Handle) (b c : OrderBook State Handle) : Prop :=
  ∃ move, move.goesOn b.tasks.pool = true ∧ b.step? factory (.pool move) = some c

/-- An order has come to its end. -/
structure Ended (factory : Factory State ModuleRequest Handle) (b : OrderBook State Handle)
    (task : Nat) : Prop where
  isOver : b.exchange.Over task
  /-- Only a shutdown keeps an order from being carried out. -/
  carriedOut : b.tasks.pool.stop = false → b.exchange.Finished task
  /-- Whoever still waits need not wait any longer. -/
  told : ∀ order, b.orders[task]? = some order → b.exchange.isHeld task = true →
    ¬ b.exchange.Delivered task → ∃ found, b.Finds factory task order found ∧
      found.isPending = false ∧ ∃ c, b.step? factory (.pool (.wait task)) = some c

theorem exists_goes {move : Pool.Move (Shop State Handle) (ModuleResult Handle)}
    (hGoes : move.goesOn b.tasks.pool = true)
    (hNext : ∃ y, b.exchange.step? (releaseModule factory.traced) move = some y) :
    ∃ c, b.Goes factory c := by
  obtain ⟨y, hStep⟩ := hNext
  have hMove : isPoolMove move = true := by
    cases move with
    | lock | work | finish | takeWorkers | join | clear => rfl
    | submit | beginShutdown | look | wait | forget | surround => cases hGoes
  exact ⟨_, move, hGoes, step?_pool hMove hStep⟩

/-- A move of the pool is a step of the exchange, and the orders stay as they are. -/
theorem of_step?_pool {move : Pool.Move (Shop State Handle) (ModuleResult Handle)}
    (h : b.step? factory (.pool move) = some c) :
    b.exchange.step? (releaseModule factory.traced) move = some c.exchange ∧ c.orders = b.orders := by
  rw [step?] at h
  split at h
  · obtain ⟨exchange, hExchange, rfl⟩ := Option.map_eq_some_iff.1 h
    exact ⟨hExchange, rfl⟩
  · cases h

/-- Nobody stops a pool that only goes on, and its workers are the same. -/
theorem Goes.pool_kept (h : b.Goes factory c) : c.tasks.pool.stop = b.tasks.pool.stop ∧
    c.tasks.pool.workers.length = b.tasks.pool.workers.length := by
  obtain ⟨move, hGoes, hStep⟩ := h
  refine Exchange.pool_invariant
    (P := fun pool => pool.stop = _ ∧ pool.workers.length = _) (of_step?_pool hStep).1 ⟨rfl, rfl⟩
    fun hEvent hPool => ⟨?_, hPool.length_workers⟩
  cases hPool with
  | beginShutdown =>
      cases move <;> cases hEvent
      cases hGoes
  | accept | acceptNotify | leave | wait | take | wakeTake | wakeLeave | wakeWait | finish
  | takeWorkers | join | clear => rfl

namespace Kept

/-- Where nothing goes on the pool is at rest. A worker that runs a task always goes on. -/
theorem still (h : b.Kept factory) (hRest : ∀ c, ¬ b.Goes factory c) : b.tasks.pool.Still := by
  have hIdle (task : Nat) : .running task ∉ b.tasks.pool.workers := by
    intro hMem
    obtain ⟨worker, hRuns⟩ := List.mem_iff_getElem?.1 hMem
    have hGoes := h.unblocked hRuns
    split at hGoes
    · exact hGoes.elim fun c hStep => hRest c ⟨.finish worker, rfl, hStep⟩
    · exact hGoes.2.elim fun c hStep => hRest c ⟨.work worker, rfl, hStep⟩
  refine ⟨fun event hEvent => Option.eq_none_iff_forall_ne_some.2 fun pool hPool => ?_, hIdle⟩
  have hNone (move : Pool.Move (Shop State Handle) (ModuleResult Handle))
      (hGoes : move.goesOn b.tasks.pool = true)
      (hNext : ∃ y, b.exchange.step? (releaseModule factory.traced) move = some y) : False :=
    (exists_goes hGoes hNext).elim hRest
  have hEnter {event : Pool.Event} (hSection : b.tasks.pool.step? event = some pool) :
      ∃ y, b.exchange.enter? event = some y := ⟨_, by rw [Exchange.enter?, hSection]; rfl⟩
  cases event with
  | enqueue | beginShutdown => cases hEvent
  | lock worker => exact hNone (.lock worker) hEvent (hEnter hPool)
  | takeWorkers call => exact hNone (.takeWorkers call) rfl (hEnter hPool)
  | join call => exact hNone (.join call) rfl (hEnter hPool)
  | clear call =>
      have hClear : b.tasks.pool.clear? call = some pool := hPool
      refine hNone (.clear call) rfl (Option.isSome_iff_exists.1 ?_)
      rw [Exchange.step?, Tasks.clear?, hClear]
      rfl
  | finish worker =>
      cases Pool.State.step_of_step? hPool with
      | finish hFree hOld => exact hIdle _ (List.mem_of_getElem? hOld)

theorem ended (h : b.Kept factory) (hStaffed : b.tasks.pool.workers ≠ [])
    (hRest : ∀ c, ¬ b.Goes factory c) {task : Nat} (hTask : task < b.orders.length) :
    b.Ended factory task := by
  have hOrderly := h.consistent.orderly
  have hStill := h.still hRest
  have hEmpty := hStill.queue_eq_nil h.awake h.inside hOrderly hStaffed
  have hOver : b.exchange.Over task :=
    hStill.finished_or_dropped hEmpty hOrderly (h.accepted ▸ hTask)
  refine ⟨hOver, fun hOpen => hOver.resolve_right fun hDropped => ?_,
    fun order hOrder hHeld hNew => ?_⟩
  · have hStop := (hOrderly.dropped (List.ne_nil_of_mem hDropped)).1
    cases hOpen.symm.trans hStop
  · obtain ⟨slot, hSlot, hWaiter⟩ := Exchange.isHeld_iff.1 hHeld
    have hFinds := h.finds hOrder hSlot hWaiter hNew
    have hFound : slot.poll.1.isPending = false := by
      cases hPoll : slot.poll.1 with
      | delivered | aborted => rfl
      | pending =>
          rw [hPoll] at hFinds
          cases hFinds with
          | pending hGoes => exact absurd hOver hGoes
    have hWait : if slot.poll.1.isPending then b.step? factory (.pool (.wait task)) = none else _ :=
      exists_wait? hSlot hWaiter
    rw [hFound, if_neg Bool.false_ne_true] at hWait
    exact ⟨_, hFinds, hFound, hWait.imp fun _ hStep => hStep.1⟩

/-- However workers and shutdowns take turns, every order comes to its end. -/
theorem eventually_ended (h : b.Kept factory) (hSteady : Steady factory)
    (hStaffed : b.tasks.pool.workers ≠ []) {task : Nat} (hTask : task < b.orders.length) :
    Eventually (Goes factory)
      (fun c => c.Ended factory task ∧ c.tasks.pool.stop = b.tasks.pool.stop) b := by
  refine Eventually.of_measure (fun c => c.exchange.toil)
    (P := fun c => c.Kept factory ∧ c.tasks.pool.stop = b.tasks.pool.stop ∧
      c.tasks.pool.workers.length = b.tasks.pool.workers.length ∧ c.orders = b.orders)
    ?_ ?_ ⟨h, rfl, rfl, rfl⟩
  · rintro c d hNext ⟨hKept, hStop, hLength, hOrders⟩
    obtain ⟨hSameStop, hSameLength⟩ := hNext.pool_kept
    obtain ⟨move, hGoes, hStep⟩ := hNext
    obtain ⟨hExchange, hSame⟩ := of_step?_pool hStep
    exact ⟨⟨hKept.step hSteady hStep, hSameStop.trans hStop, hSameLength.trans hLength,
      hSame.trans hOrders⟩, Exchange.toil_lt hKept.consistent hExchange hGoes⟩
  · rintro c ⟨hKept, hStop, hLength, hOrders⟩ hRest
    have hWorkers : c.tasks.pool.workers ≠ [] := by
      rw [← List.length_pos_iff, hLength]
      exact List.length_pos_iff.2 hStaffed
    exact ⟨hKept.ended hWorkers hRest (hOrders ▸ hTask), hStop⟩

end Kept

end OrderBook

end ShaderBackend.Shader
