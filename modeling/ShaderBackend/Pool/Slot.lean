/-!
The place where a task leaves its result for whoever waits. It holds one result at most. The task
holds one end and the waiter the other; either end may go at any time.
-/
namespace ShaderBackend.Pool

structure Slot (Result : Type) where
  value : Option Result := none
  /-- The task still has its end. -/
  hasTask : Bool := true
  /-- The waiter still has its end. -/
  hasWaiter : Bool := true
  deriving DecidableEq, Repr

/-- What a waiter finds. -/
inductive Poll (Result : Type) where
  /-- The task may still leave a result. -/
  | pending
  | delivered (value : Result)
  /-- There is no result, and there will be none. -/
  | aborted
  deriving DecidableEq, Repr

namespace Slot

variable {Result : Type}

/-- The task leaves its result, and its end goes. Where no waiter is left the result comes back as
the second part, to be released. -/
def send (slot : Slot Result) (value : Result) : Slot Result × Option Result :=
  if slot.hasWaiter then ({ slot with value := some value, hasTask := false }, none)
  else ({ slot with hasTask := false }, some value)

/-- The task's end goes without a result. -/
def close (slot : Slot Result) : Slot Result := { slot with hasTask := false }

/-- The waiter looks. A result is handed over once; after that the slot is as if it had never held
one. -/
def poll (slot : Slot Result) : Poll Result × Slot Result :=
  match slot.value with
  | some value => (.delivered value, { slot with value := none })
  | none => (if slot.hasTask then .pending else .aborted, slot)

/-- The waiter's end goes. A result that nobody took comes back, to be released. -/
def forget (slot : Slot Result) : Slot Result × Option Result :=
  ({ slot with value := none, hasWaiter := false }, slot.value)

end Slot
end ShaderBackend.Pool
