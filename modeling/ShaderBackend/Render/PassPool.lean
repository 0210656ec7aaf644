import ShaderBackend.Render.Pass
/-!
The pool of render passes: one object per format, shared with whoever asked for it. An object lives
as long as the pool or some reference owns it; when the last owner goes, its handles are given back.
-/
namespace ShaderBackend.Render

variable {State Handle : Type}

structure PassPool (Handle : Type) where
  /-- Every object ever made. Its place in the list is its number. -/
  objects : List (Pass Handle) := []
  /-- Numbers of the objects that the pool owns; `none` once the pool is gone. -/
  cached : Option (List Nat) := some []
  /-- Objects that references handed out own; `none` where a reference has been released. -/
  references : List (Option Nat) := []
  deriving DecidableEq, Repr

namespace PassPool

/-- Numbers of the objects that the pool owns. -/
def owned (pool : PassPool Handle) : List Nat := pool.cached.getD []

/-- Number of formats; `none` once the pool is gone. -/
def size? (pool : PassPool Handle) : Option Nat := pool.cached.map (·.length)

/-- Whether the pool or a reference owns an object. -/
def isOwned (pool : PassPool Handle) (number : Nat) : Bool :=
  pool.owned.contains number || pool.references.contains (some number)

/-- Number of the object for a format. -/
def known? (pool : PassPool Handle) (format : PassFormat) : Option Nat :=
  pool.owned.find? fun number => (pool.objects[number]?.map (·.hasFormat format)).getD false

/-- Number of the object for a format, which is made now if there is none yet. Nothing changes if
the device refuses. A pool that is gone gives nothing. -/
def get (factory : Factory State PassPlan Handle) (threshold : Log.Threshold)
    (pool : PassPool Handle) (format : PassFormat) (device : State) :
    Option (Effect State Nat × PassPool Handle) :=
  pool.cached.map fun cached =>
    match pool.known? format with
    | some number => (⟨.ok number, [], device⟩, pool)
    | none =>
      let made := Pass.new factory threshold format device
      match made.result with
      | .error cause => (⟨.error cause, made.entries, made.device⟩, pool)
      | .ok object =>
        (⟨.ok pool.objects.length, made.entries ++ threshold.note .trace logSource
            s!"Render pass pool now holds {cached.length + 1} format(s)", made.device⟩,
          { pool with objects := pool.objects ++ [object]
                      cached := some (cached ++ [pool.objects.length]) })

/-- The pass of an object for these operations. -/
def handleFor (factory : Factory State PassPlan Handle) (threshold : Log.Threshold)
    (pool : PassPool Handle) (number : Nat) (ops : PassOps) (device : State) :
    Option (Effect State Handle × PassPool Handle) :=
  pool.objects[number]?.map fun object =>
    let (effect, object) := object.handleFor factory threshold ops device
    (effect, { pool with objects := pool.objects.set number object })

/-- Hands out one more reference to an object. -/
def hold (pool : PassPool Handle) (number : Nat) : PassPool Handle :=
  { pool with references := pool.references ++ [some number] }

/-- Object that a reference owns, `none` if it has been released or never handed out. -/
def referent? (pool : PassPool Handle) (reference : Nat) : Option Nat :=
  (pool.references[reference]?).join

/-- Gives back the handles of those objects that nobody owns any more. -/
def destroyUnowned (factory : Factory State PassPlan Handle) (pool : PassPool Handle)
    (numbers : List Nat) (device : State) : State :=
  (numbers.filter (!pool.isOwned ·)).foldl (fun device number =>
    match pool.objects[number]? with
    | some object => object.destroy factory device
    | none => device) device

/-- Releases a reference; a second release does nothing. -/
def release (factory : Factory State PassPlan Handle) (pool : PassPool Handle) (reference : Nat)
    (device : State) : PassPool Handle × State :=
  match pool.referent? reference with
  | none => (pool, device)
  | some number =>
    let pool := { pool with references := pool.references.set reference none }
    (pool, pool.destroyUnowned factory [number] device)

/-- Lets the pool go. Objects that references own live on. -/
def drop (factory : Factory State PassPlan Handle) (pool : PassPool Handle) (device : State) :
    PassPool Handle × State :=
  let gone := { pool with cached := none }
  (gone, gone.destroyUnowned factory pool.owned device)

end PassPool
end ShaderBackend.Render
