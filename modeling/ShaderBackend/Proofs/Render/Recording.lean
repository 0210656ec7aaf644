import ShaderBackend.Render.PassPool

/-! Render passes on a device of which a record is kept: which handles it gave out and which it was
given back. The device does not notice the record, so that whatever holds of the record holds of the
device that stands behind it. -/
namespace ShaderBackend

/-- A device with the handles that it gave out and those that it was given back, in order. -/
structure Recorded (State Handle : Type) where
  device : State
  created : List Handle := []
  destroyed : List Handle := []
  deriving DecidableEq, Repr

namespace Factory

variable {State Request Handle : Type} (factory : Factory State Request Handle)

/-- The same devices, with a record. -/
def recorded : Factory (Recorded State Handle) Request Handle where
  create request r :=
    match factory.create request r.device with
    | (.ok handle, device) => (.ok handle, { r with device, created := r.created ++ [handle] })
    | (.error cause, device) => (.error cause, { r with device })
  destroy handle r :=
    { r with device := factory.destroy handle r.device, destroyed := r.destroyed ++ [handle] }

variable {factory}

/-- The record notes the handles that it was given back in the order in which they came. -/
theorem foldl_destroy_recorded (handles : List Handle) (r : Recorded State Handle) :
    handles.foldl (fun r handle => factory.recorded.destroy handle r) r =
      { r with device := handles.foldl (fun device handle => factory.destroy handle device) r.device
               destroyed := r.destroyed ++ handles } := by
  induction handles generalizing r with
  | nil => simp
  | cons handle handles ih => rw [List.foldl_cons, ih]; simp [recorded]

end Factory

namespace Render

variable {State Handle : Type} {factory : Factory State PassPlan Handle} {threshold : Log.Threshold}

/-- What becomes of the device behind the record. -/
def Effect.behind {α : Type} (effect : Effect (Recorded State Handle) α) : Effect State α :=
  { effect with device := effect.device.device }

/-- What is logged when the device refuses to make a pass. -/
def refusalEntries (threshold : Log.Threshold) (cause : Fault) : List Log.Entry :=
  threshold.report logSource s!"Failed to create render pass object: {cause.message}"

/-- Making a pass ends in one of two ways: the device gives out a handle, or it refuses. -/
inductive Creates (factory : Factory State PassPlan Handle) (threshold : Log.Threshold)
    (plan : PassPlan) (r : Recorded State Handle) : Effect (Recorded State Handle) Handle → Prop where
  | made {handle : Handle} {device : State}
      (hMade : factory.create plan r.device = (.ok handle, device)) :
      Creates factory threshold plan r
        ⟨.ok handle, [], { r with device, created := r.created ++ [handle] }⟩
  | refused {cause : Fault} {device : State}
      (hRefused : factory.create plan r.device = (.error cause, device)) :
      Creates factory threshold plan r
        ⟨.error cause, refusalEntries threshold cause, { r with device }⟩

section CreatePass

variable (factory threshold) (format : PassFormat) (ops : PassOps) (r : Recorded State Handle)

/-- There is no third way, such as a handle that the record misses. -/
theorem createPass_creates :
    Creates factory threshold (.build format ops) r
      (createPass factory.recorded threshold format ops r) := by
  rcases hCreate : factory.create (.build format ops) r.device with ⟨cause | handle, device⟩
  · simp only [createPass, Factory.recorded, hCreate]
    exact .refused hCreate
  · simp only [createPass, Factory.recorded, hCreate]
    exact .made hCreate

/-- Whoever asks through the record is told the same and logs the same, and the device ends in the
same state. -/
theorem createPass_behind :
    (createPass factory.recorded threshold format ops r).behind =
      createPass factory threshold format ops r.device := by
  rcases hCreate : factory.create (.build format ops) r.device with ⟨cause | handle, device⟩ <;>
    simp [createPass, Factory.recorded, Effect.behind, hCreate]

end CreatePass

namespace Pass

variable (factory threshold)

/-- The record is not noticed where an object is made for a format. -/
theorem new_behind (format : PassFormat) (r : Recorded State Handle) :
    (new factory.recorded threshold format r).behind = new factory threshold format r.device := by
  have hCreate := createPass_behind factory threshold format (.compatible format) r
  simp only [new, ← hCreate, Effect.behind]

/-- Nor where an object is asked for the handle of some ops, which it may have already. -/
theorem handleFor_behind (p : Pass Handle) (ops : PassOps) (r : Recorded State Handle) :
    (fun (effect, p) => (effect.behind, p)) (p.handleFor factory.recorded threshold ops r) =
      p.handleFor factory threshold ops r.device := by
  have hCreate := createPass_behind factory threshold p.format ops r
  cases hKnown : p.known? ops with
  | some handle => simp [handleFor, hKnown, Effect.behind]
  | none =>
      cases hMade : createPass factory.recorded threshold p.format ops r with
      | mk result entries device =>
          cases result <;> simp [handleFor, hKnown, ← hCreate, hMade, Effect.behind]

/-- An object that goes gives back exactly its own handles. -/
theorem destroy_recorded (p : Pass Handle) (r : Recorded State Handle) :
    p.destroy factory.recorded r =
      { r with device := p.destroy factory r.device, destroyed := r.destroyed ++ p.handles } :=
  Factory.foldl_destroy_recorded _ _

end Pass

namespace PassPool

/-- The handles of these objects, object by object. -/
def handlesOf (pool : PassPool Handle) (numbers : List Nat) : List Handle :=
  numbers.flatMap fun number => ((pool.objects[number]?).map Pass.handles).getD []

/-- The pool with one more object, which it owns together with these. -/
def withObject (pool : PassPool Handle) (cached : List Nat) (object : Pass Handle) :
    PassPool Handle :=
  { pool with objects := pool.objects ++ [object], cached := some (cached ++ [pool.objects.length]) }

/-- The pool after an object has made a pass. -/
def withInstance (pool : PassPool Handle) (number : Nat) (object : Pass Handle)
    (made : Instance Handle) : PassPool Handle :=
  { pool with
    objects := pool.objects.set number { object with instances := object.instances ++ [made] } }

/-- The pool without a reference. -/
def without (pool : PassPool Handle) (reference : Nat) : PassPool Handle :=
  { pool with references := pool.references.set reference none }

/-- What is left of a pool that was let go. -/
def gone (pool : PassPool Handle) : PassPool Handle := { pool with cached := none }

variable (factory threshold) (pool : PassPool Handle)

/-- The record is not noticed by the pool either, whether the format is known or not. -/
theorem get_behind (format : PassFormat) (r : Recorded State Handle) :
    (pool.get factory.recorded threshold format r).map (fun (effect, pool) => (effect.behind, pool)) =
      pool.get factory threshold format r.device := by
  have hNew := Pass.new_behind factory threshold format r
  rw [get, get, Option.map_map]
  refine Option.map_congr fun cached _ => ?_
  cases hKnown : pool.known? format with
  | some number => simp [Effect.behind]
  | none =>
      cases hMade : Pass.new factory.recorded threshold format r with
      | mk result entries device =>
          cases result <;> simp [← hNew, hMade, Effect.behind]

theorem handleFor_behind (number : Nat) (ops : PassOps) (r : Recorded State Handle) :
    (pool.handleFor factory.recorded threshold number ops r).map
        (fun (effect, pool) => (effect.behind, pool)) =
      pool.handleFor factory threshold number ops r.device := by
  rw [handleFor, handleFor, Option.map_map]
  refine Option.map_congr fun object _ => ?_
  simp only [Function.comp, ← Pass.handleFor_behind factory threshold object ops r]

/-- Of these objects, the ones that nobody owns give back what they hold. -/
theorem destroyUnowned_recorded (numbers : List Nat) (r : Recorded State Handle) :
    pool.destroyUnowned factory.recorded numbers r =
      { r with device := pool.destroyUnowned factory numbers r.device
               destroyed := r.destroyed ++ pool.handlesOf (numbers.filter (!pool.isOwned ·)) } := by
  unfold destroyUnowned handlesOf
  induction numbers.filter (!pool.isOwned ·) generalizing r with
  | nil => simp
  | cons number numbers ih =>
      rw [List.foldl_cons, ih]
      cases hObject : pool.objects[number]? with
      | none => simp [hObject]
      | some object => simp [hObject, Pass.destroy_recorded]

variable {pool} in
/-- A reference that is released gives back the handles of its object if it was the last one to own
it. -/
theorem release_recorded {reference number : Nat} (hHeld : pool.referent? reference = some number)
    (r : Recorded State Handle) :
    pool.release factory.recorded reference r =
      (pool.without reference, { r with
        device := (pool.release factory reference r.device).2
        destroyed := r.destroyed ++ (pool.without reference).handlesOf
          ([number].filter (!(pool.without reference).isOwned ·)) }) := by
  simp only [release, hHeld, destroyUnowned_recorded]
  rfl

/-- A pool that goes gives back the handles of all objects that no reference keeps. -/
theorem drop_recorded (r : Recorded State Handle) :
    pool.drop factory.recorded r =
      (pool.gone, { r with
        device := (pool.drop factory r.device).2
        destroyed := r.destroyed ++
          pool.gone.handlesOf (pool.owned.filter (!pool.gone.isOwned ·)) }) := by
  simp only [drop, destroyUnowned_recorded]
  rfl

end PassPool

end Render

end ShaderBackend
