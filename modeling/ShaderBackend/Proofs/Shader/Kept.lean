import ShaderBackend.Proofs.Pool.Rest
import ShaderBackend.Proofs.Shader.Custody
import ShaderBackend.Proofs.Shader.Registration

/-! What holds of orders after any run: each task carries out the order that has its number, does
what a direct creation does, and the modules that were made for it are owned by somebody. -/
namespace ShaderBackend.Shader

open Pool (Exchange Slot Tasks)

variable {State Handle : Type} {factory : Factory State ModuleRequest Handle}

namespace Order

variable {o : Order}

/-- A task is told what a direct creation tells, and asks the device for the same. -/
theorem answer_eq (hSteady : Steady factory) {worker : Nat} {pool : Pool.State}
    {shop after : Shop State Handle} {result : Option (ModuleResult Handle)}
    (hMade : (o.job factory).run worker pool shop = (result, after)) (device : State) :
    result.map told = o.answer factory device ∧
      after.device.requested = shop.device.requested ++ o.asks factory device := by
  have hCreates := createModule_creates factory o.shader o.mapping o.options shop.device
  have hDirect := createModule_creates factory o.shader o.mapping o.options { device }
  rw [run_job] at hMade
  cases hMade
  constructor
  · rw [answer, ← createModule_behind factory o.shader o.mapping o.options { device }]
    exact hCreates.told_eq hSteady hDirect
  · rw [asks, hDirect.requested, hCreates.requested]
    rfl

end Order

namespace OrderBook

section Exchange

variable {x y : Exchange (Shop State Handle) (ModuleResult Handle)}

theorem taken_eq {more : List (Pool.Finding (ModuleResult Handle))}
    (hMore : y.findings = x.findings ++ more) :
    taken x y = more.flatMap fun finding => modulesOf finding.found := by
  rw [taken, hMore, List.drop_left]

theorem taken_eq_nil (hSame : y.findings = x.findings) : taken x y = [] :=
  taken_eq (hSame.trans (List.append_nil _).symm)

/-- What a waiter finds is what is in the slot. -/
theorem map_handle_modulesOf (slot : Slot (ModuleResult Handle)) :
    (modulesOf slot.poll.1).map (·.handle) = (slot.value.bind handleOf?).toList := by
  rw [Slot.poll]
  obtain _ | cause | made := slot.value
  · cases slot.hasTask <;> rfl
  · rfl
  · rfl

variable {move : Pool.Move (Shop State Handle) (ModuleResult Handle)}

theorem jobs_of_step (h : Exchange.Step (releaseModule factory.traced) x move y)
    (hMove : isPoolMove move = true) : y.tasks.jobs = x.tasks.jobs := by
  cases h with
  | submit | surround => cases hMove
  | enter | finish | clear | look => rfl
  | work => exact Tasks.jobs_leave ..
  | wait => exact Tasks.jobs_forget ..
  | forget => exact Tasks.jobs_forget ..

/-- Modules only pass from hand to hand, and what is taken from a slot is held from then on. -/
theorem balanced_of_step {orders : List Order} {held : List Handle}
    (h : Exchange.Step (releaseModule factory.traced) x move y) (hMove : isPoolMove move = true)
    (hConsistent : x.Consistent) (hEmptied : x.Emptied)
    (hJobs : x.tasks.jobs = orders.map (·.job factory))
    (hBalanced : Balanced x.tasks.env.device x.tasks.slots held) :
    Balanced y.tasks.env.device y.tasks.slots (held ++ (taken x y).map (·.handle)) := by
  have hNothing (hSame : y.findings = x.findings)
      (hNext : Balanced y.tasks.env.device y.tasks.slots held) :
      Balanced y.tasks.env.device y.tasks.slots (held ++ (taken x y).map (·.handle)) := by
    rwa [taken_eq_nil hSame, List.map_nil, List.append_nil]
  have hTaken {task : Nat} {slot : Slot (ModuleResult Handle)}
      (hMore : y.findings = x.findings ++ [⟨task, slot.poll.1⟩])
      (hNext : Balanced y.tasks.env.device y.tasks.slots
        (held ++ (slot.value.bind handleOf?).toList)) :
      Balanced y.tasks.env.device y.tasks.slots (held ++ (taken x y).map (·.handle)) := by
    rwa [taken_eq hMore, List.flatMap_singleton, map_handle_modulesOf]
  cases h with
  | submit | surround => cases hMove
  | enter => exact hNothing rfl hBalanced
  | work hRuns hJob hNew hMade =>
      rw [hJobs, List.getElem?_map] at hJob
      obtain ⟨order, -, rfl⟩ := Option.map_eq_some_iff.1 hJob
      refine hNothing rfl (Balanced.leave (hBalanced.run hMade) fun slot hSlot => ?_)
      exact hConsistent.value_eq_none hEmptied hNew hSlot
  | finish =>
      refine hNothing rfl ?_
      rwa [Balanced, Tasks.close, undelivered_modify_close]
  | clear =>
      refine hNothing rfl ?_
      rwa [Balanced, undelivered_closeAll]
  | look hSlot hHeld => exact hTaken rfl (hBalanced.poll hSlot)
  | wait hSlot hHeld hFound => exact hTaken rfl ((hBalanced.poll hSlot).forget _)
  | forget => exact hNothing rfl (hBalanced.forget _)

end Exchange

/-- What a task is to be told and to ask for, by its order. -/
structure Carries (factory : Factory State ModuleRequest Handle) (b : OrderBook State Handle) :
    Prop where
  told : ∀ task result, ⟨task, result⟩ ∈ b.exchange.outcomes → ∃ order, b.orders[task]? = some order ∧
    ∀ device, result.map told = order.answer factory device
  asked : ∀ device, b.device.requested = b.exchange.outcomes.flatMap fun outcome =>
    ((b.orders[outcome.task]?).map (·.asks factory device)).getD []

/-- What holds after any run. -/
structure Kept (factory : Factory State ModuleRequest Handle) (b : OrderBook State Handle) : Prop where
  consistent : b.exchange.Consistent
  emptied : b.exchange.Emptied
  stopped : b.tasks.pool.StoppedOutside
  awake : b.tasks.pool.Awake
  inside : b.tasks.pool.Inside
  accepted : b.tasks.pool.accepted = b.orders.length
  jobs : b.tasks.jobs = b.orders.map (·.job factory)
  carries : b.Carries factory
  balance : Balanced b.device b.tasks.slots (b.held.map (·.handle))

variable {b c : OrderBook State Handle}

namespace Carries

/-- A step that does no work of a task. -/
theorem frame (h : b.Carries factory) (hOrders : c.orders = b.orders)
    (hOutcomes : c.exchange.outcomes = b.exchange.outcomes)
    (hRequested : c.device.requested = b.device.requested) : c.Carries factory where
  told task result hMem := by
    rw [hOutcomes] at hMem
    rw [hOrders]
    exact h.told task result hMem
  asked device := by rw [hRequested, hOutcomes, hOrders, h.asked device]

/-- A task does its work. -/
theorem work (h : b.Carries factory) (hSteady : Steady factory) {task worker : Nat} {order : Order}
    {pool : Pool.State} {result : Option (ModuleResult Handle)} {after : Shop State Handle}
    (hOrder : b.orders[task]? = some order)
    (hMade : (order.job factory).run worker pool b.tasks.env = (result, after))
    (hOrders : c.orders = b.orders)
    (hOutcomes : c.exchange.outcomes = b.exchange.outcomes ++ [⟨task, result⟩])
    (hRequested : c.device.requested = after.device.requested) : c.Carries factory where
  told other made hMem := by
    rw [hOrders]
    obtain hBefore | hLast := List.mem_append.1 (hOutcomes ▸ hMem)
    · exact h.told other made hBefore
    · obtain ⟨rfl, rfl⟩ := Pool.Outcome.mk.inj (List.mem_singleton.1 hLast)
      exact ⟨order, hOrder, fun device => (Order.answer_eq hSteady hMade device).1⟩
  asked device := by
    rw [hRequested, (Order.answer_eq hSteady hMade device).2, hOutcomes, hOrders, List.flatMap_append,
      List.flatMap_singleton, hOrder]
    exact congrArg (· ++ _) (h.asked device)

end Carries

theorem requested_releaseTo (result : Option (ModuleResult Handle)) (shop : Shop State Handle) :
    (Tasks.releaseTo (releaseModule factory.traced) result shop).device.requested =
      shop.device.requested := by
  obtain _ | cause | made := result
  · rfl
  · rfl
  · exact Traced.requested_destroy ..

theorem requested_leave (task : Nat) (result : Option (ModuleResult Handle))
    (t : Tasks (Shop State Handle) (ModuleResult Handle)) :
    (t.leave (releaseModule factory.traced) task result).env.device.requested =
      t.env.device.requested := by
  unfold Tasks.leave
  split
  · exact requested_releaseTo ..
  · rfl
  · exact requested_releaseTo ..

theorem requested_forget (task : Nat) (t : Tasks (Shop State Handle) (ModuleResult Handle)) :
    (t.forget (releaseModule factory.traced) task).env.device.requested =
      t.env.device.requested := by
  unfold Tasks.forget
  split
  · exact requested_releaseTo ..
  · rfl

/-- The pool with its tasks and the order that it has just accepted. -/
def afterOrder (factory : Factory State ModuleRequest Handle) (b : OrderBook State Handle) (o : Order)
    (pool : Pool.State) : Exchange (Shop State Handle) (ModuleResult Handle) :=
  { b.exchange with tasks := { b.tasks with
      pool
      jobs := b.tasks.jobs ++ [o.job factory]
      slots := b.tasks.slots ++ [some {}] } }

/-- Either the pool refuses an order, or the order becomes a task. -/
theorem order_cases {o : Order} {notified : Option Nat}
    (hStep : b.step? factory (.order o notified) = some c) :
    (b.tasks.pool.stop = true ∧ c = { b with replies := b.replies ++ [.error .poolStopped] }) ∨
      ∃ pool, b.tasks.pool.enqueue? notified = some pool ∧
        c = { b with exchange := b.afterOrder factory o pool
                     orders := b.orders ++ [o]
                     replies := b.replies ++ [.ok b.tasks.pool.accepted] } := by
  rw [step?] at hStep
  split at hStep
  · rename_i exchange hExchange
    obtain ⟨tasks, hTasks, rfl⟩ := Option.map_eq_some_iff.1 hExchange
    obtain ⟨pool, hPool, rfl⟩ := Option.map_eq_some_iff.1 hTasks
    exact .inr ⟨pool, hPool, (Option.some.inj hStep).symm⟩
  · split at hStep
    · exact .inl ⟨Pool.State.refuses_iff.1 ‹_›, (Option.some.inj hStep).symm⟩
    · cases hStep

namespace Kept

theorem initial (count : Nat) (device : State) :
    (OrderBook.initial count device : OrderBook State Handle).Kept factory where
  consistent := .initial ..
  emptied := Exchange.Emptied.initial count _
  stopped _ hMem := absurd hMem List.not_mem_nil
  awake := Pool.State.awake_initial count
  inside := Pool.State.inside_initial count
  accepted := rfl
  jobs := rfl
  carries := ⟨fun _ _ hMem => absurd hMem List.not_mem_nil, fun _ => rfl⟩
  balance := .refl _

/-- An order is accepted by a pool that has not stopped. -/
theorem order {o : Order} {notified : Option Nat} {pool : Pool.State} (h : b.Kept factory)
    (hPool : Pool.Step b.tasks.pool (.enqueue notified) pool) (replies : List (Except Fault Nat)) :
    Kept factory
      { b with exchange := b.afterOrder factory o pool, orders := b.orders ++ [o], replies } := by
  have hStep : Exchange.Step (releaseModule factory.traced) b.exchange
      (.submit (o.job factory) true notified) (b.afterOrder factory o pool) := .submit hPool
  constructor
  case consistent => exact h.consistent.step hStep
  case emptied => exact h.emptied.step hStep
  case stopped => exact hPool.stoppedOutside nofun h.stopped
  case awake => exact hPool.awake h.awake
  case inside => exact hPool.inside h.inside
  case accepted =>
    have hMore : pool.accepted = b.tasks.pool.accepted + 1 := by cases hPool <;> rfl
    rw [List.length_append, ← h.accepted]
    exact hMore
  case jobs =>
    rw [List.map_append, ← h.jobs]
    rfl
  case carries =>
    have hKnown {task : Nat} {result : Option (ModuleResult Handle)}
        (hMem : ⟨task, result⟩ ∈ b.exchange.outcomes) : (b.orders ++ [o])[task]? = b.orders[task]? := by
      have hStarted := h.consistent.lt_accepted_of_started (h.consistent.started _ hMem)
      exact List.getElem?_append_left (h.accepted ▸ hStarted)
    constructor
    case told =>
      intro task result hMem
      rw [hKnown hMem]
      exact h.carries.told task result hMem
    case asked =>
      intro device
      refine (h.carries.asked device).trans (List.flatMap_congr fun outcome hMem => ?_)
      rw [hKnown hMem]
  case balance =>
    have hEmpty : undelivered (b.tasks.slots ++ [some ({} : Slot (ModuleResult Handle))]) =
        undelivered b.tasks.slots := List.filterMap_append.trans (List.append_nil _)
    rw [Balanced, afterOrder, hEmpty]
    exact h.balance

/-- Workers, shutdowns and waiters go on. -/
theorem pool {move : Pool.Move (Shop State Handle) (ModuleResult Handle)}
    {exchange : Exchange (Shop State Handle) (ModuleResult Handle)} (h : b.Kept factory)
    (hSteady : Steady factory) (hMove : isPoolMove move = true)
    (hExchange : b.exchange.step? (releaseModule factory.traced) move = some exchange) :
    Kept factory { b with exchange, held := b.held ++ taken b.exchange exchange } := by
  have hStep := Exchange.step_of_step? hExchange
  constructor
  case consistent => exact h.consistent.step hStep
  case emptied => exact h.emptied.step hStep
  case awake => exact Exchange.pool_invariant hExchange h.awake fun _ hPool => hPool.awake h.awake
  case inside => exact Exchange.pool_invariant hExchange h.inside fun _ hPool => hPool.inside h.inside
  case stopped =>
    refine Exchange.pool_invariant hExchange h.stopped fun hEvent hPool => ?_
    refine hPool.stoppedOutside (fun index hShutdown => ?_) h.stopped
    rw [hShutdown] at hEvent
    cases move <;> cases hEvent
    cases hMove
  case accepted =>
    refine Exchange.pool_invariant (P := fun pool => pool.accepted = _) hExchange h.accepted
      fun hEvent hPool => ?_
    refine (hPool.accepted_of_not_enqueue fun notified hEnqueue => ?_).trans h.accepted
    rw [hEnqueue] at hEvent
    cases move <;> cases hEvent
    cases hMove
  case jobs => exact (jobs_of_step hStep hMove).trans h.jobs
  case carries =>
    cases hStep with
    | submit | surround => cases hMove
    | enter | finish | clear | look => exact h.carries.frame rfl rfl rfl
    | wait => exact h.carries.frame rfl rfl (requested_forget ..)
    | forget => exact h.carries.frame rfl rfl (requested_forget ..)
    | work hRuns hJob hNew hMade =>
        rw [h.jobs, List.getElem?_map] at hJob
        obtain ⟨order, hOrder, rfl⟩ := Option.map_eq_some_iff.1 hJob
        exact h.carries.work hSteady hOrder hMade rfl rfl (requested_leave ..)
  case balance =>
    rw [List.map_append]
    exact balanced_of_step hStep hMove h.consistent h.emptied h.jobs h.balance

/-- The surroundings change, and the modules that are held with them. -/
theorem withShop {env : Shop State Handle} {held : List (ShaderModule Handle)} (h : b.Kept factory)
    (hRequested : env.device.requested = b.device.requested)
    (hBalanced : Balanced env.device b.tasks.slots (held.map (·.handle))) :
    Kept factory { b.withShop env with held } where
  consistent := h.consistent.surround env
  emptied := h.emptied
  stopped := h.stopped
  awake := h.awake
  inside := h.inside
  accepted := h.accepted
  jobs := h.jobs
  carries := h.carries.frame rfl rfl hRequested
  balance := hBalanced

/-- A module that is dropped was held. -/
theorem drop {index : Nat} {made : ShaderModule Handle} (h : b.Kept factory)
    (hHeld : b.held[index]? = some made) :
    Kept factory { b.withShop (releaseModule factory.traced (.ok made) b.tasks.env) with
      held := b.held.eraseIdx index } := by
  obtain ⟨hInside, hMade⟩ := List.getElem?_eq_some_iff.1 hHeld
  have hSplit : b.held.Perm (b.held.eraseIdx index ++ [made]) := by
    rw [← hMade]
    exact (List.getElem_cons_eraseIdx_perm hInside).symm.trans (List.perm_append_singleton ..).symm
  have hOne : Balanced b.device b.tasks.slots ((b.held.eraseIdx index).map (·.handle) ++
      ((some (.ok made : ModuleResult Handle)).bind handleOf?).toList) := by
    refine h.balance.trans ((List.Perm.append_left _ ?_).append_left _)
    simpa [handleOf?] using hSplit.map (·.handle)
  exact h.withShop (Traced.requested_destroy ..) hOne.release

theorem step {event : Event State Handle} (h : b.Kept factory) (hSteady : Steady factory)
    (hStep : b.step? factory event = some c) : c.Kept factory := by
  cases event with
  | order o notified =>
      obtain ⟨-, rfl⟩ | ⟨pool, hPool, rfl⟩ := order_cases hStep
      · exact { h with carries := h.carries.frame rfl rfl rfl }
      · exact h.order (Pool.State.step_of_enqueue? hPool) _
  | pool move =>
      rw [step?] at hStep
      split at hStep
      · obtain ⟨exchange, hExchange, rfl⟩ := Option.map_eq_some_iff.1 hStep
        exact h.pool hSteady ‹_› hExchange
      · cases hStep
  | drop index =>
      obtain ⟨made, hHeld, rfl⟩ := Option.map_eq_some_iff.1 hStep
      exact h.drop hHeld
  | outside device =>
      cases hStep
      exact h.withShop rfl h.balance

theorem of_run? (hSteady : Steady factory) {count : Nat} {device : State}
    {events : List (Event State Handle)}
    (run : (OrderBook.initial count device).run? factory events = some b) : b.Kept factory :=
  foldlM_invariant run (.initial count device) fun h hKept => hKept.step hSteady h

end Kept

end OrderBook

end ShaderBackend.Shader
