import ShaderBackend.Proofs.Shader.Progress

/-! What becomes of orders. Whoever waits for an order is told what a direct creation tells, and no
module is lost on the way, whoever goes and whenever. -/
namespace ShaderBackend.Shader

open Pool (Exchange Poll Slot Tasks)

variable {State Handle : Type} {factory : Factory State ModuleRequest Handle}

namespace OrderBook

variable {b c : OrderBook State Handle}

/-- A pool that has not stopped can take an order on. -/
theorem exists_order? (order : Order) (hOpen : b.tasks.pool.stop = false) :
    ∃ notified c, b.step? factory (.order order notified) = some c := by
  have hRuns : ¬ b.tasks.pool.stop = true := by simp [hOpen]
  obtain ⟨pool, hPool⟩ := Option.ne_none_iff_exists'.1
    (mt Pool.State.enqueue?_firstWaiting?_eq_none_iff.1 hRuns)
  have hSubmit : b.exchange.step? (releaseModule factory.traced)
      (.submit (order.job factory) true b.tasks.pool.firstWaiting?) =
        some (b.afterOrder factory order pool) := by
    rw [Exchange.step?, Tasks.submit?, hPool]
    rfl
  have hStep : (b.step? factory (.order order b.tasks.pool.firstWaiting?)).isSome = true := by
    rw [step?, hSubmit]
    rfl
  exact ⟨_, Option.isSome_iff_exists.1 hStep⟩

/-- A pool that has stopped turns every order away. -/
theorem step?_order_of_stop (order : Order) (notified : Option Nat)
    (hStop : b.tasks.pool.stop = true) : b.step? factory (.order order notified) =
      some { b with replies := b.replies ++ [.error .poolStopped] } := by
  rw [step?, Exchange.step?, Tasks.submit?, Pool.State.enqueue?_eq_none_of_stop hStop]
  exact if_pos (Pool.State.refuses_iff.2 hStop)

/-- What holds of orders and of the modules made for them, here and in whatever step comes next. -/
structure Delivery (factory : Factory State ModuleRequest Handle) (b : OrderBook State Handle) :
    Prop where
  /-- A pool that has stopped turns every order away. -/
  rejected : ∀ order notified, b.tasks.pool.stop = true → b.step? factory (.order order notified) =
    some { b with replies := b.replies ++ [.error .poolStopped] }
  /-- Any other pool can take an order on. -/
  accepts : ∀ order, b.tasks.pool.stop = false →
    ∃ notified c, b.step? factory (.order order notified) = some c
  /-- Whose order is taken on holds an end of the slot for its result. -/
  accepted : ∀ order notified c, b.tasks.pool.stop = false →
    b.step? factory (.order order notified) = some c →
      c.orders = b.orders ++ [order] ∧ c.replies = b.replies ++ [.ok b.orders.length] ∧
        c.exchange.isHeld b.orders.length = true
  /-- A waiter is told what a direct creation tells, or that the task was dropped or panicked. Waiting
  to the end tells the same as a look, once there is something to tell, and what is handed over is held
  from then on. -/
  waits : ∀ (task : Nat) order, b.orders[task]? = some order → b.exchange.isHeld task = true →
    ¬ b.exchange.Delivered task → ∃ found, b.Finds factory task order found ∧
      (∃ c, b.step? factory (.pool (.look task)) = some c ∧
        c.exchange.findings = b.exchange.findings ++ [⟨task, found⟩] ∧
        c.held = b.held ++ modulesOf found) ∧
      if found.isPending then b.step? factory (.pool (.wait task)) = none
      else ∃ c, b.step? factory (.pool (.wait task)) = some c ∧
        c.exchange.findings = b.exchange.findings ++ [⟨task, found⟩] ∧
        c.held = b.held ++ modulesOf found
  /-- The device was asked for what direct creations ask it for, task by task. -/
  asked : ∀ device, b.device.requested = b.exchange.outcomes.flatMap fun outcome =>
    ((b.orders[outcome.task]?).map (·.asks factory device)).getD []
  /-- A worker leaves what its task made in an empty slot and goes on. -/
  unblocked : ∀ (worker task : Nat), b.tasks.pool.workers[worker]? = some (.running task) →
    if b.exchange.hasWorked task then ∃ c, b.step? factory (.pool (.finish worker)) = some c
    else (∀ slot, b.tasks.slot? task = some slot → slot.value = none) ∧
      ∃ c, b.step? factory (.pool (.work worker)) = some c
  /-- If there is a worker every order comes to its end, in whichever order workers, tasks and shutdowns
  go on from here. -/
  ends : b.tasks.pool.workers ≠ [] → ∀ task < b.orders.length, Eventually (Goes factory)
    (fun c => c.Ended factory task ∧ c.tasks.pool.stop = b.tasks.pool.stop) b
  /-- The handles that the device gave out were given back, or their modules lie in slots or are held. -/
  balance : b.device.created.Perm
    (b.device.destroyed ++ (undelivered b.tasks.slots ++ b.held.map (·.handle)))
  /-- Unless the device gave a handle out twice, only one of these holds of it, and that once. -/
  once : b.device.created.Nodup →
    (b.device.destroyed ++ (undelivered b.tasks.slots ++ b.held.map (·.handle))).Nodup
  /-- Once all waiters have gone and all modules were dropped, every handle was given back. -/
  settled : (∀ task, b.exchange.isHeld task = false) → b.held = [] →
    b.device.created.Perm b.device.destroyed

namespace Kept

/-- An order that is taken on is the task that its waiter is told of. -/
theorem accepted_of_order? (h : b.Kept factory) {order : Order} {notified : Option Nat}
    (hOpen : b.tasks.pool.stop = false) (hStep : b.step? factory (.order order notified) = some c) :
    c.orders = b.orders ++ [order] ∧ c.replies = b.replies ++ [.ok b.orders.length] ∧
      c.exchange.isHeld b.orders.length = true := by
  obtain ⟨hStop, -⟩ | ⟨pool, -, rfl⟩ := order_cases hStep
  · cases hOpen.symm.trans hStop
  refine ⟨rfl, by rw [h.accepted], Exchange.isHeld_iff.2 ⟨{}, ?_, rfl⟩⟩
  rw [Tasks.slot?, afterOrder, Tasks.slot?_concat, if_pos]
  rw [← h.accepted, h.consistent.length_slots]

theorem undelivered_eq_nil (h : b.Kept factory) (hNobody : ∀ task, b.exchange.isHeld task = false) :
    undelivered b.tasks.slots = [] := by
  refine List.filterMap_eq_nil_iff.2 fun entry hMem => ?_
  obtain ⟨task, hAt⟩ := List.mem_iff_getElem?.1 hMem
  cases entry with
  | none => rfl
  | some slot =>
      have hSlot : b.tasks.slot? task = some slot := Option.join_eq_some_iff.2 hAt
      have hGone : slot.hasWaiter = false := by
        have hNot := hNobody task
        rwa [Exchange.isHeld, hSlot, Option.any_some] at hNot
      rw [Option.bind_some, h.emptied task slot hSlot hGone, Option.bind_none]

end Kept

/-- Ordering modules from a pool does what creating them directly does, and every module is owned by
somebody until it is destroyed, in every run. -/
theorem delivery (hSteady : Steady factory) {count : Nat} {device : State}
    {events : List (Event State Handle)}
    (run : (initial count device).run? factory events = some b) : b.Delivery factory := by
  have hKept := Kept.of_run? hSteady run
  constructor
  case rejected => exact step?_order_of_stop
  case accepts => exact fun order hOpen => exists_order? order hOpen
  case accepted => exact fun _ _ _ => hKept.accepted_of_order?
  case waits =>
    intro task order hOrder hHeld hNew
    obtain ⟨slot, hSlot, hWaiter⟩ := Exchange.isHeld_iff.1 hHeld
    exact ⟨slot.poll.1, hKept.finds hOrder hSlot hWaiter hNew, exists_look? hSlot hWaiter,
      exists_wait? hSlot hWaiter⟩
  case asked => exact hKept.carries.asked
  case unblocked => exact fun _ _ => hKept.unblocked
  case ends => exact fun hStaffed _ hTask => hKept.eventually_ended hSteady hStaffed hTask
  case balance => exact hKept.balance
  case once => exact fun hFresh => hKept.balance.nodup_iff.1 hFresh
  case settled =>
    intro hNobody hHeld
    have hBalance := hKept.balance
    rw [Balanced, hKept.undelivered_eq_nil hNobody, hHeld] at hBalance
    simpa using hBalance

/-- A device that numbers its modules, and makes none for compute shaders. -/
def graphicsFactory : Factory Nat ModuleRequest Nat where
  create request last :=
    if request.stage = .compute then (.error .outOfMemory, last) else (.ok (last + 1), last + 1)
  destroy _ last := last

theorem steady_graphicsFactory : Steady graphicsFactory := by
  intro request device other
  simp only [graphicsFactory]
  split <;> rfl

def blendOrder : Order := ⟨blendShader, .ofCalls blendCalls, {}⟩

/-- The first waiter goes while the module is made, the second receives its module and drops it, the third
is told that a shutdown has dropped the task, and the fourth order is turned away. -/
def fourOrders : List (Event Nat Nat) :=
  [.order blendOrder none, .order blendOrder none, .order blendOrder none, .pool (.lock 0),
    .pool (.forget 0), .pool (.work 0), .pool (.finish 0), .pool (.lock 0), .pool (.work 0),
    .pool (.wait 1), .drop 0, .pool (.beginShutdown .outside), .pool (.finish 0), .pool (.lock 0),
    .pool (.takeWorkers 0), .pool (.join 0), .pool (.clear 0), .pool (.wait 2), .order blendOrder none]

theorem delivery_fourOrders :
    Steady graphicsFactory ∧ ∃ b, (initial 1 0).run? graphicsFactory fourOrders = some b ∧
      b.exchange.findings.length = 2 ∧ b.replies.length = 4 ∧ b.device.created = [1, 2] ∧
      b.device.destroyed.Perm [1, 2] := by
  have hFacts : ((initial 1 0).run? graphicsFactory fourOrders).map (fun b =>
      (b.exchange.findings.length, b.replies.length, b.device.created,
        undelivered b.tasks.slots ++ b.held.map (·.handle))) = some (2, 4, [1, 2], []) := by
    decide +kernel
  obtain ⟨b, hRun, hSame⟩ := Option.map_eq_some_iff.1 hFacts
  simp only [Prod.mk.injEq] at hSame
  obtain ⟨hFindings, hReplies, hCreated, hNowhere⟩ := hSame
  refine ⟨steady_graphicsFactory, b, hRun, hFindings, hReplies, hCreated, ?_⟩
  have hBalance := (delivery steady_graphicsFactory hRun).balance
  rw [hCreated, hNowhere, List.append_nil] at hBalance
  exact hBalance.symm

end OrderBook

end ShaderBackend.Shader
