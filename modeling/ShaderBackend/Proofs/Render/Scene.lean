import ShaderBackend.Proofs.Render.Recording

/-! A pool of render passes and everybody who uses it, call by call. Every call is one step, as it is
made under the lock of the pool or of the object. A device may refuse any request, and it may change
between the calls. What was called, answered, made and given back is kept as history. -/
namespace ShaderBackend.Render

variable {State Handle : Type}

/-- What somebody does with the pool or with a reference to one of its objects. -/
inductive Call where
  | get (format : PassFormat)
  /-- Asks the object of a reference for a pass. -/
  | handle (reference : Nat) (ops : PassOps)
  /-- Makes one more reference to the same object. -/
  | share (reference : Nat)
  | release (reference : Nat)
  /-- Lets the pool go. -/
  | drop
  deriving DecidableEq, Repr

inductive Answer (Handle : Type) where
  | object (number : Nat)
  | pass (handle : Handle)
  | refused (cause : Fault)
  | done
  deriving DecidableEq, Repr

/-- What a call answers and logs. -/
structure Reply (Handle : Type) where
  answer : Answer Handle
  entries : List Log.Entry := []
  deriving DecidableEq, Repr

namespace PassPool

/-- What comes of a call, `none` if nobody can make it: the pool is gone, or the reference is. An
object that is got is held by a new reference. -/
def call? (factory : Factory State PassPlan Handle) (threshold : Log.Threshold)
    (pool : PassPool Handle) (device : State) : Call → Option (Reply Handle × PassPool Handle × State)
  | .get format =>
    (pool.get factory threshold format device).map fun (effect, pool) =>
      match effect.result with
      | .ok number => (⟨.object number, effect.entries⟩, pool.hold number, effect.device)
      | .error cause => (⟨.refused cause, effect.entries⟩, pool, effect.device)
  | .handle reference ops =>
    (pool.referent? reference).bind fun number =>
      (pool.handleFor factory threshold number ops device).map fun (effect, pool) =>
        match effect.result with
        | .ok handle => (⟨.pass handle, effect.entries⟩, pool, effect.device)
        | .error cause => (⟨.refused cause, effect.entries⟩, pool, effect.device)
  | .share reference =>
    (pool.referent? reference).map fun number => ({ answer := .done }, pool.hold number, device)
  | .release reference =>
    (pool.referent? reference).map fun _ =>
      ({ answer := .done }, pool.release factory reference device)
  | .drop => pool.cached.map fun _ => ({ answer := .done }, pool.drop factory device)

/-- A call takes the same course whether or not there is a record. -/
theorem call?_behind (factory : Factory State PassPlan Handle) (threshold : Log.Threshold)
    (pool : PassPool Handle) (r : Recorded State Handle) (call : Call) :
    (pool.call? factory.recorded threshold r call).map
        (fun (reply, pool, r) => (reply, pool, r.device)) =
      pool.call? factory threshold r.device call := by
  cases call with
  | get format =>
      rw [call?, call?, ← get_behind, Option.map_map, Option.map_map]
      refine Option.map_congr fun (effect, pool) _ => ?_
      rcases effect with ⟨_ | _, _, _⟩ <;> rfl
  | handle reference ops =>
      cases hHeld : pool.referent? reference with
      | none => simp [call?, hHeld]
      | some number =>
          simp only [call?, hHeld, Option.bind_some, ← handleFor_behind, Option.map_map]
          refine Option.map_congr fun (effect, pool) _ => ?_
          rcases effect with ⟨_ | _, _, _⟩ <;> rfl
  | share reference => simp [call?, Function.comp_def]
  | release reference =>
      cases hHeld : pool.referent? reference with
      | none => simp [call?, hHeld]
      | some number =>
          simp only [call?, hHeld, Option.map_some, release_recorded factory hHeld]
          simp [release, hHeld, without]
  | drop =>
      simp only [call?, drop_recorded, Option.map_map]
      rfl

/-- Whether a call can be made: the pool is there, or the reference is. -/
def admits (pool : PassPool Handle) : Call → Bool
  | .get _ | .drop => pool.cached.isSome
  | .handle reference _ | .share reference | .release reference => (pool.referent? reference).isSome

/-- Format that a call is about. -/
def formatOf? (pool : PassPool Handle) : Call → Option PassFormat
  | .get format => some format
  | .handle reference _ =>
    (pool.referent? reference).bind fun number => (pool.objects[number]?).map (·.format)
  | .share _ | .release _ | .drop => none

end PassPool

/-- A call that was made, with its answer and what the device did meanwhile. -/
structure Turn (Handle : Type) where
  call : Call
  format : Option PassFormat
  reply : Reply Handle
  created : List Handle
  destroyed : List Handle
  deriving DecidableEq, Repr

/-- A pool, the record of its device, and the calls made so far. -/
structure Scene (State Handle : Type) where
  pool : PassPool Handle := {}
  record : Recorded State Handle
  turns : List (Turn Handle) := []
  deriving DecidableEq, Repr

/-- What happens next. -/
inductive Event (State : Type) where
  | call (call : Call)
  /-- The device changes on its own account, or by the doing of others. -/
  | outside (device : State)

namespace Scene

def initial (device : State) : Scene State Handle := { record := { device } }

/-- What is written down of a call that leaves this record behind. -/
def turn (s : Scene State Handle) (call : Call) (reply : Reply Handle)
    (record : Recorded State Handle) : Turn Handle where
  call := call
  format := s.pool.formatOf? call
  reply := reply
  created := record.created.drop s.record.created.length
  destroyed := record.destroyed.drop s.record.destroyed.length

/-- The scene after a call. -/
def after (s : Scene State Handle) (call : Call) (reply : Reply Handle) (pool : PassPool Handle)
    (record : Recorded State Handle) : Scene State Handle :=
  { pool, record, turns := s.turns ++ [s.turn call reply record] }

/-- The scene with another device in the place of its own. -/
def withDevice (s : Scene State Handle) (device : State) : Scene State Handle :=
  { s with record := { s.record with device } }

/-- What an event leads to, `none` where it cannot happen. -/
def step? (factory : Factory State PassPlan Handle) (threshold : Log.Threshold)
    (s : Scene State Handle) : Event State → Option (Scene State Handle)
  | .call call =>
    (s.pool.call? factory.recorded threshold s.record call).map fun (reply, pool, record) =>
      s.after call reply pool record
  | .outside device => some (s.withDevice device)

/-- What a run of events leads to, `none` if one of them cannot happen. -/
def run? (factory : Factory State PassPlan Handle) (threshold : Log.Threshold)
    (s : Scene State Handle) (events : List (Event State)) : Option (Scene State Handle) :=
  events.foldlM (step? factory threshold) s

variable {factory : Factory State PassPlan Handle} {threshold : Log.Threshold}
  {s t : Scene State Handle}

/-- The paths through the events. -/
inductive Step (factory : Factory State PassPlan Handle) (threshold : Log.Threshold)
    (s : Scene State Handle) : Event State → Scene State Handle → Prop where
  /-- The object was there. -/
  | found {format : PassFormat} {number : Nat} (hKnown : s.pool.known? format = some number) :
      Step factory threshold s (.call (.get format))
        (s.after (.get format) ⟨.object number, []⟩ (s.pool.hold number) s.record)
  /-- The object is new. -/
  | built {format : PassFormat} {cached : List Nat} {handle : Handle} {device : State}
      (entries : List Log.Entry) (hAlive : s.pool.cached = some cached)
      (hNew : s.pool.known? format = none)
      (hMade : factory.create (.build format (.compatible format)) s.record.device =
        (.ok handle, device)) :
      Step factory threshold s (.call (.get format))
        (s.after (.get format) ⟨.object s.pool.objects.length, entries⟩
          ((s.pool.withObject cached { format, defaultHandle := handle }).hold s.pool.objects.length)
          { s.record with device, created := s.record.created ++ [handle] })
  /-- The pass was there. -/
  | known {reference number : Nat} {ops : PassOps} {object : Pass Handle} {handle : Handle}
      (hHeld : s.pool.referent? reference = some number)
      (hObject : s.pool.objects[number]? = some object) (hKnown : object.known? ops = some handle) :
      Step factory threshold s (.call (.handle reference ops))
        (s.after (.handle reference ops) ⟨.pass handle, []⟩ s.pool s.record)
  /-- The pass is new. -/
  | made {reference number : Nat} {ops : PassOps} {object : Pass Handle} {handle : Handle}
      {device : State} (entries : List Log.Entry)
      (hHeld : s.pool.referent? reference = some number)
      (hObject : s.pool.objects[number]? = some object) (hNew : object.known? ops = none)
      (hMade : factory.create (.build object.format ops) s.record.device = (.ok handle, device)) :
      Step factory threshold s (.call (.handle reference ops))
        (s.after (.handle reference ops) ⟨.pass handle, entries⟩
          (s.pool.withInstance number object ⟨ops, handle⟩)
          { s.record with device, created := s.record.created ++ [handle] })
  /-- The device refused to make the default pass of an object, or a pass. -/
  | refused {call : Call} {plan : PassPlan} {cause : Fault} {device : State}
      (hRefused : factory.create plan s.record.device = (.error cause, device)) :
      Step factory threshold s (.call call)
        (s.after call ⟨.refused cause, refusalEntries threshold cause⟩ s.pool
          { s.record with device })
  | shared {reference number : Nat} (hHeld : s.pool.referent? reference = some number) :
      Step factory threshold s (.call (.share reference))
        (s.after (.share reference) { answer := .done } (s.pool.hold number) s.record)
  | released {reference number : Nat} (device : State)
      (hHeld : s.pool.referent? reference = some number) :
      Step factory threshold s (.call (.release reference))
        (s.after (.release reference) { answer := .done } (s.pool.without reference)
          { s.record with
            device
            destroyed := s.record.destroyed ++ (s.pool.without reference).handlesOf
              ([number].filter (!(s.pool.without reference).isOwned ·)) })
  | dropped {cached : List Nat} (device : State) (hAlive : s.pool.cached = some cached) :
      Step factory threshold s (.call .drop)
        (s.after .drop { answer := .done } s.pool.gone
          { s.record with
            device
            destroyed := s.record.destroyed ++
              s.pool.gone.handlesOf (cached.filter (!s.pool.gone.isOwned ·)) })
  | outside (device : State) : Step factory threshold s (.outside device) (s.withDevice device)

theorem step_of_get? {format : PassFormat}
    (h : s.step? factory threshold (.call (.get format)) = some t) :
    Step factory threshold s (.call (.get format)) t := by
  obtain ⟨⟨reply, pool, record⟩, hCall, rfl⟩ := Option.map_eq_some_iff.1 h
  obtain ⟨⟨effect, next⟩, hGet, hReply⟩ := Option.map_eq_some_iff.1 hCall
  obtain ⟨cached, hAlive, hGet⟩ := Option.map_eq_some_iff.1 hGet
  cases hKnown : s.pool.known? format with
  | some number =>
      rw [hKnown] at hGet
      cases hGet
      cases hReply
      exact .found hKnown
  | none =>
      rw [hKnown] at hGet
      have hCreate := createPass_creates factory threshold format (.compatible format) s.record
      simp only [Pass.new] at hGet
      cases hPass : createPass factory.recorded threshold format (.compatible format) s.record with
      | mk result entries device =>
          rw [hPass] at hCreate hGet
          cases hCreate with
          | made hMade =>
              cases hGet
              cases hReply
              exact .built _ hAlive hKnown hMade
          | refused hRefused =>
              cases hGet
              cases hReply
              exact .refused hRefused

theorem step_of_handle? {reference : Nat} {ops : PassOps}
    (h : s.step? factory threshold (.call (.handle reference ops)) = some t) :
    Step factory threshold s (.call (.handle reference ops)) t := by
  obtain ⟨⟨reply, pool, record⟩, hCall, rfl⟩ := Option.map_eq_some_iff.1 h
  obtain ⟨number, hHeld, hCall⟩ := Option.bind_eq_some_iff.1 hCall
  obtain ⟨⟨effect, next⟩, hHandle, hReply⟩ := Option.map_eq_some_iff.1 hCall
  obtain ⟨object, hObject, hHandle⟩ := Option.map_eq_some_iff.1 hHandle
  have hSame : s.pool.objects.set number object = s.pool.objects := by
    obtain ⟨hInside, rfl⟩ := List.getElem?_eq_some_iff.1 hObject
    exact List.set_getElem_self hInside
  cases hKnown : object.known? ops with
  | some handle =>
      simp only [Pass.handleFor, hKnown, hSame] at hHandle
      cases hHandle
      cases hReply
      exact .known hHeld hObject hKnown
  | none =>
      have hCreate := createPass_creates factory threshold object.format ops s.record
      simp only [Pass.handleFor, hKnown] at hHandle
      cases hPass : createPass factory.recorded threshold object.format ops s.record with
      | mk result entries device =>
          rw [hPass] at hCreate hHandle
          cases hCreate with
          | made hMade =>
              cases hHandle
              cases hReply
              exact .made _ hHeld hObject hKnown hMade
          | refused hRefused =>
              simp only [hSame] at hHandle
              cases hHandle
              cases hReply
              exact .refused hRefused

/-- The relation covers the function that runs: whatever an event does is one of the listed
steps. -/
theorem step_of_step? {event : Event State} (h : s.step? factory threshold event = some t) :
    Step factory threshold s event t := by
  cases event with
  | outside device =>
      cases h
      exact .outside device
  | call call =>
      cases call with
      | get format => exact step_of_get? h
      | handle reference ops => exact step_of_handle? h
      | share reference =>
          obtain ⟨⟨reply, pool, record⟩, hCall, rfl⟩ := Option.map_eq_some_iff.1 h
          obtain ⟨number, hHeld, hReply⟩ := Option.map_eq_some_iff.1 hCall
          cases hReply
          exact .shared hHeld
      | release reference =>
          obtain ⟨⟨reply, pool, record⟩, hCall, rfl⟩ := Option.map_eq_some_iff.1 h
          obtain ⟨number, hHeld, hReply⟩ := Option.map_eq_some_iff.1 hCall
          rw [PassPool.release_recorded factory hHeld] at hReply
          cases hReply
          exact .released _ hHeld
      | drop =>
          obtain ⟨⟨reply, pool, record⟩, hCall, rfl⟩ := Option.map_eq_some_iff.1 h
          obtain ⟨cached, hAlive, hReply⟩ := Option.map_eq_some_iff.1 hCall
          rw [PassPool.drop_recorded factory] at hReply
          cases hReply
          rw [PassPool.owned, hAlive, Option.getD_some]
          exact .dropped _ hAlive

/-- The last call was refused, and before it the scene was another one. -/
def Refused (s t : Scene State Handle) (cause : Fault) : Prop :=
  ∃ turn, t.turns = s.turns ++ [turn] ∧ turn.reply.answer = .refused cause

/-- It is the device that refuses, and nothing but the device changes. -/
theorem Step.refused_eq {call : Call} {cause : Fault} (step : Step factory threshold s (.call call) t)
    (hRefused : Refused s t cause) :
    ∃ plan device, factory.create plan s.record.device = (.error cause, device) ∧
      t = s.after call ⟨.refused cause, refusalEntries threshold cause⟩ s.pool
        { s.record with device } := by
  obtain ⟨turn, hTurns, hAnswer⟩ := hRefused
  cases step with
  | refused hDevice =>
      have hTurn := List.append_cancel_left hTurns
      cases hTurn
      cases hAnswer
      exact ⟨_, _, hDevice, rfl⟩
  | found | built | known | made | shared | released | dropped =>
      have hTurn := List.append_cancel_left hTurns
      cases hTurn
      cases hAnswer

end Scene

end ShaderBackend.Render
