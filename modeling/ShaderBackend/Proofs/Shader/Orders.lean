import ShaderBackend.Proofs.Pool.Handover
import ShaderBackend.Proofs.Shader.Creation
import ShaderBackend.Shader.Async

/-! Modules that are ordered from a pool, step by step. An order is carried out by a task, and its
result waits in the slot of the task until somebody takes it. Until a task has left its module there,
nobody else knows of the module, so that making and leaving it are one step. A module that was received
is held until it is dropped. -/
namespace ShaderBackend.Shader

open Pool (Exchange Job Poll)

variable {State Handle : Type}

/-- What the tasks share, with the calls to the device written down. -/
abbrev Shop (State Handle : Type) := Workshop (ModuleTrace State Handle)

/-- What a waiter can receive of a creation; nothing of one that was aborted. -/
def received? : Except Failure (ShaderModule Handle) → Option (ModuleResult Handle)
  | .ok made => some (.ok made)
  | .error (.fault cause) => some (.error cause)
  | .error .abort => none

/-- What a result says, whichever handle the device gave out. -/
def told (result : ModuleResult Handle) : Except Fault Stage := result.map (·.stage)

/-- Whether a request is granted, and why it is refused, does not depend on the device's state. -/
def Steady (factory : Factory State ModuleRequest Handle) : Prop :=
  ∀ request device other, (factory.create request device).1.map (fun _ => ()) =
    (factory.create request other).1.map (fun _ => ())

section Told

variable {factory : Factory State ModuleRequest Handle} {s : Shader} {m : DescriptorMapping}
  {options : ModuleOptions} {d e : ModuleTrace State Handle}
  {first second : Creation (ModuleTrace State Handle) Handle}

theorem Creates.told_result (h : Creates factory s m options d first) :
    (received? first.result).map told = match s.specialize m options with
      | .ok code => some ((factory.create ⟨s.stage, code⟩ d.device).1.map fun _ => s.stage)
      | .error e => match e.failure with
        | .fault cause => some (.error cause)
        | .abort => none := by
  cases h with
  | faulty _ hSpecialize hFault => simp [received?, told, hSpecialize, hFault, Except.map]
  | aborted hSpecialize hAbort => simp [received?, hSpecialize, hAbort]
  | refused _ hSpecialize hRefused => simp [received?, told, hSpecialize, hRefused, Except.map]
  | made _ hSpecialize hMade => simp [received?, told, hSpecialize, hMade, Except.map]

/-- On a steady device a creation says the same in every state. -/
theorem Creates.told_eq (hSteady : Steady factory) (hFirst : Creates factory s m options d first)
    (hSecond : Creates factory s m options e second) :
    (received? first.result).map told = (received? second.result).map told := by
  rw [hFirst.told_result, hSecond.told_result]
  cases s.specialize m options with
  | error e => rfl
  | ok code =>
      have hStage (answer : Except Fault Handle) : (answer.map fun _ => s.stage) =
          (answer.map fun _ => ()).map fun _ => s.stage := by
        cases answer <;> rfl
      simp only
      rw [hStage, hSteady ⟨s.stage, code⟩ d.device e.device, ← hStage]

end Told

/-- A module to be created. -/
structure Order where
  shader : Shader
  mapping : DescriptorMapping
  options : ModuleOptions

namespace Order

variable (factory : Factory State ModuleRequest Handle) (o : Order)

/-- The task that carries out an order. -/
def job : Job (Shop State Handle) (ModuleResult Handle) :=
  moduleJob factory.traced o.shader o.mapping o.options

/-- What is told by a direct creation, and nothing if it is aborted. -/
def answer (device : State) : Option (Except Fault Stage) :=
  (received? (o.shader.createModule factory o.mapping o.options device).result).map told

/-- What a direct creation asks the device for. -/
def asks (device : State) : List ModuleRequest :=
  (o.shader.createModule factory.traced o.mapping o.options { device }).device.requested

/-- The task does what a direct creation does, and its waiter receives the result. -/
theorem run_job (worker : Nat) (pool : Pool.State) (shop : Shop State Handle) :
    (o.job factory).run worker pool shop =
      let creation := o.shader.createModule factory.traced o.mapping o.options shop.device
      (received? creation.result,
        { device := creation.device, entries := shop.entries ++ creation.entries }) := by
  simp only [job, moduleJob]
  rcases (o.shader.createModule factory.traced o.mapping o.options shop.device).result with
    (cause | _) | made <;> rfl

end Order

/-- Modules that a finding hands over. -/
def modulesOf : Poll (ModuleResult Handle) → List (ShaderModule Handle)
  | .delivered (.ok made) => [made]
  | .delivered (.error _) | .pending | .aborted => []

/-- A pool and those who order modules from it. -/
structure OrderBook (State Handle : Type) where
  exchange : Exchange (Shop State Handle) (ModuleResult Handle)
  /-- The orders that were accepted, by the numbers of their tasks. -/
  orders : List Order := []
  /-- What those were told who ordered: the number of the task, or that the pool has stopped. -/
  replies : List (Except Fault Nat) := []
  /-- The modules that were received and not dropped. -/
  held : List (ShaderModule Handle) := []

namespace OrderBook

/-- Moves of workers, of shutdowns from outside and of waiters. No task that creates a module shuts its
own pool down. -/
def isPoolMove : Pool.Move (Shop State Handle) (ModuleResult Handle) → Bool
  | .submit .. | .surround _ | .beginShutdown (.worker _) => false
  | .lock _ | .work _ | .finish _ | .beginShutdown .outside | .takeWorkers _ | .join _ | .clear _
  | .look _ | .wait _ | .forget _ => true

/-- What happens next. -/
inductive Event (State Handle : Type) where
  | order (order : Order) (notified : Option Nat)
  | pool (move : Pool.Move (Shop State Handle) (ModuleResult Handle))
  /-- One of the modules that are held is dropped. -/
  | drop (index : Nat)
  /-- The device changes on its own account, or by the doing of others. -/
  | outside (device : State)

def initial (count : Nat) (device : State) : OrderBook State Handle :=
  { exchange := .initial count { device := { device } } }

/-- The pool with its tasks. -/
abbrev tasks (b : OrderBook State Handle) := b.exchange.tasks

/-- The device with its calls. -/
abbrev device (b : OrderBook State Handle) : ModuleTrace State Handle := b.exchange.tasks.env.device

/-- The same with other surroundings. -/
def withShop (b : OrderBook State Handle) (env : Shop State Handle) : OrderBook State Handle :=
  { b with exchange := { b.exchange with tasks := { b.exchange.tasks with env } } }

/-- The modules that were taken from their slots since. -/
def taken (x y : Exchange (Shop State Handle) (ModuleResult Handle)) : List (ShaderModule Handle) :=
  (y.findings.drop x.findings.length).flatMap fun finding => modulesOf finding.found

/-- What an event leads to, `none` where it cannot happen. -/
def step? (factory : Factory State ModuleRequest Handle) (b : OrderBook State Handle) :
    Event State Handle → Option (OrderBook State Handle)
  | .order order notified =>
    match b.exchange.step? (releaseModule factory.traced)
        (.submit (order.job factory) true notified) with
    | some exchange =>
      some { b with exchange
                    orders := b.orders ++ [order]
                    replies := b.replies ++ [.ok b.tasks.pool.accepted] }
    | none =>
      if b.tasks.pool.refuses then some { b with replies := b.replies ++ [.error .poolStopped] }
      else none
  | .pool move =>
    if isPoolMove move then
      (b.exchange.step? (releaseModule factory.traced) move).map fun exchange =>
        { b with exchange, held := b.held ++ taken b.exchange exchange }
    else none
  | .drop index => (b.held[index]?).map fun made =>
    { b.withShop (releaseModule factory.traced (.ok made) b.tasks.env) with
      held := b.held.eraseIdx index }
  | .outside device =>
    some (b.withShop { b.tasks.env with device := { b.device with device } })

/-- What a run of events leads to, `none` if one of them cannot happen. -/
def run? (factory : Factory State ModuleRequest Handle) (b : OrderBook State Handle)
    (events : List (Event State Handle)) : Option (OrderBook State Handle) :=
  events.foldlM (step? factory) b

end OrderBook

end ShaderBackend.Shader
