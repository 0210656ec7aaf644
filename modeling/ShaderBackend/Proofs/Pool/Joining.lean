import ShaderBackend.Proofs.Pool.Order

/-! Who joins the workers of a pool. The first shutdown that asks for the workers gets all of them and
no later one gets any, so that a later one may return while workers still run. -/
namespace ShaderBackend.Pool

/-- The call that asks for the workers. -/
def Event.taker? : Event → Option Nat
  | .takeWorkers call => some call
  | _ => none

/-- The first call that asked for the workers. -/
def taker? (events : List Event) : Option Nat := events.findSome? Event.taker?

/-- The workers that a shutdown has taken over and not joined as yet. -/
def Shutdown.unjoined (c : Shutdown) : List Nat :=
  match c.phase with
  | .joining workers => workers
  | _ => []

/-- Each worker has gone, unless the shutdown has still to join it or runs on it. -/
def State.Covered (s : State) (c : Shutdown) : Prop :=
  ∀ worker < s.workers.length,
    s.workers[worker]? = some .exited ∨ worker ∈ c.unjoined ∨ c.caller = .worker worker

/-- Joining one worker more covers it, for it has left or is the caller itself. -/
theorem State.Covered.join {s : State} {caller : Caller} {index : Nat} {rest : List Nat}
    (hCovered : s.Covered ⟨caller, .joining (index :: rest)⟩)
    (hLeft : caller = .worker index ∨ s.workers[index]? = some .exited) :
    s.Covered ⟨caller, .joining rest⟩ := by
  intro worker hInside
  obtain hGone | hListed | hOwn := hCovered worker hInside
  · exact .inl hGone
  · obtain rfl | hLater := List.mem_cons.1 hListed
    · exact hLeft.elim (fun hOwn => .inr (.inr hOwn)) .inl
    · exact .inr (.inl hLater)
  · exact .inr (.inr hOwn)

/-- Nobody has asked for the workers. -/
structure State.Untaken (s : State) : Prop where
  joinable : s.joinable = List.range s.workers.length
  stopping : ∀ c ∈ s.shutdowns, c.phase = .stopping

/-- No call but this one has anything to join. -/
def OthersIdle (shutdowns : List Shutdown) (taker : Nat) : Prop :=
  ∀ other c, other ≠ taker → shutdowns[other]? = some c → c.unjoined = []

namespace OthersIdle

variable {shutdowns : List Shutdown} {taker call : Nat} {new : Shutdown}

/-- A call other than the taker may change its phase, as long as it still joins nobody. -/
theorem set (hIdle : OthersIdle shutdowns taker) (hNew : call ≠ taker → new.unjoined = []) :
    OthersIdle (shutdowns.set call new) taker := by
  intro other c hOther hAt
  by_cases hSame : call = other
  · subst hSame
    obtain ⟨-, rfl⟩ : call < shutdowns.length ∧ new = c := by
      simpa [List.getElem?_set] using hAt
    exact hNew hOther
  · rw [List.getElem?_set_ne hSame] at hAt
    exact hIdle other c hOther hAt

/-- A new call joins nobody to begin with. -/
theorem concat (hIdle : OthersIdle shutdowns taker) (hNew : new.unjoined = []) :
    OthersIdle (shutdowns ++ [new]) taker := by
  intro other c hOther hAt
  rw [List.getElem?_append] at hAt
  split at hAt
  · exact hIdle other c hOther hAt
  · rwa [List.mem_singleton.1 (List.mem_of_getElem? hAt)]

end OthersIdle

/-- One call has got the workers, and nothing is left for the others to join. -/
structure State.Taken (s : State) (taker : Nat) : Prop where
  joinable : s.joinable = []
  others : OthersIdle s.shutdowns taker
  covered : ∃ c, s.shutdowns[taker]? = some c ∧ c.phase ≠ .stopping ∧ s.Covered c

namespace Step

variable {s t : State} {event : Event} {call taker : Nat}

/-- What a call has covered stays covered, since a worker that has left does not come back. -/
theorem covered {c : Shutdown} (h : Step s event t) (hCovered : s.Covered c) : t.Covered c := by
  intro worker hInside
  rw [h.length_workers] at hInside
  exact (hCovered worker hInside).imp_left h.exited

/-- Until some call takes the workers, all of them can be taken. -/
theorem untaken (h : Step s event t) (hNobody : event.taker? = none) (hUntaken : s.Untaken) :
    t.Untaken := by
  have hJoinable := h.length_workers ▸ hUntaken.joinable
  cases h with
  | accept | acceptNotify | leave | wait | take | wakeTake | wakeLeave | wakeWait | finish =>
      exact ⟨hJoinable, hUntaken.stopping⟩
  | beginShutdown =>
      refine ⟨hJoinable, fun c hMem => ?_⟩
      obtain hBefore | hNew := List.mem_append.1 hMem
      · exact hUntaken.stopping c hBefore
      · cases List.mem_singleton.1 hNew
        rfl
  | takeWorkers => cases hNobody
  | join hCall | clear hCall => cases hUntaken.stopping _ (List.mem_of_getElem? hCall)

/-- The first call that asks gets every worker. -/
theorem taken_of_untaken (h : Step s (.takeWorkers call) t) (hUntaken : s.Untaken) :
    t.Taken call := by
  cases h with
  | @takeWorkers _ caller hCall =>
      have hIdle : OthersIdle s.shutdowns call := fun other c _ hAt => by
        rw [Shutdown.unjoined, hUntaken.stopping c (List.mem_of_getElem? hAt)]
      refine ⟨rfl, hIdle.set (absurd rfl), ?_⟩
      obtain ⟨hInside, -⟩ := List.getElem?_eq_some_iff.1 hCall
      refine ⟨_, List.getElem?_set_self hInside, nofun, fun worker hWorker => .inr (.inl ?_)⟩
      show worker ∈ s.joinable
      rw [hUntaken.joinable]
      exact List.mem_range.2 hWorker

/-- A later call gets none, and the first one goes on joining. -/
theorem taken (h : Step s event t) (hTaken : s.Taken taker) : t.Taken taker := by
  obtain ⟨hJoinable, hOthers, c, hTaker, hPhase, hCovered⟩ := hTaken
  have hStays : t.Covered c := h.covered hCovered
  cases h with
  | accept | acceptNotify | leave | wait | take | wakeTake | wakeLeave | wakeWait | finish =>
      exact ⟨hJoinable, hOthers, c, hTaker, hPhase, hStays⟩
  | beginShutdown =>
      refine ⟨hJoinable, hOthers.concat rfl, c, ?_, hPhase, hStays⟩
      rwa [List.getElem?_append_left (List.getElem?_eq_some_iff.1 hTaker).1]
  | @takeWorkers call caller hCall =>
      have hOther : call ≠ taker := by
        rintro rfl
        cases hTaker.symm.trans hCall
        exact hPhase rfl
      refine ⟨rfl, hOthers.set fun _ => hJoinable, c, ?_, hPhase, hStays⟩
      rwa [List.getElem?_set_ne hOther]
  | @join call index caller rest hCall hLeft =>
      have hSame : call = taker := by
        by_contra hOther
        cases hOthers call _ hOther hCall
      subst hSame
      cases hTaker.symm.trans hCall
      obtain ⟨hInside, -⟩ := List.getElem?_eq_some_iff.1 hCall
      exact ⟨hJoinable, hOthers.set (absurd rfl), _, List.getElem?_set_self hInside, nofun,
        hCovered.join hLeft⟩
  | @clear call caller hCall =>
      refine ⟨hJoinable, hOthers.set fun _ => rfl, ?_⟩
      by_cases hSame : call = taker
      · subst hSame
        cases hTaker.symm.trans hCall
        obtain ⟨hInside, -⟩ := List.getElem?_eq_some_iff.1 hCall
        exact ⟨_, List.getElem?_set_self hInside, nofun, hCovered⟩
      · exact ⟨c, by rwa [List.getElem?_set_ne hSame], hPhase, hStays⟩

end Step

theorem taker?_concat (events : List Event) (event : Event) :
    taker? (events ++ [event]) = (taker? events).or event.taker? := by
  simp [taker?, List.findSome?_append]

namespace Reaches

variable {count : Nat} {events : List Event} {s : State}

/-- In every reachable state the workers belong to nobody or to the one call that took them. -/
theorem taken (run : Reaches (.initial count) events s) :
    (taker? events = none → s.Untaken) ∧ ∀ taker, taker? events = some taker → s.Taken taker := by
  induction run with
  | start =>
      refine ⟨fun _ => ⟨?_, fun c hMem => absurd hMem List.not_mem_nil⟩, fun taker hTaker => ?_⟩
      · simp [State.initial]
      · cases hTaker
  | @step events s t event prior last ih =>
      obtain ⟨hUntaken, hTaken⟩ := ih
      have hStep := State.step_of_step? last
      rw [taker?_concat]
      cases hBefore : taker? events with
      | some taker =>
          refine ⟨fun hNobody => ?_, fun other hOther => ?_⟩
          · cases hNobody
          · cases hOther
            exact hStep.taken (hTaken taker hBefore)
      | none =>
          rw [Option.none_or]
          refine ⟨fun hNobody => hStep.untaken hNobody (hUntaken hBefore), fun call hCall => ?_⟩
          cases event with
          | takeWorkers =>
              cases hCall
              exact hStep.taken_of_untaken (hUntaken hBefore)
          | enqueue | lock | finish | beginShutdown | join | clear => cases hCall

end Reaches

end ShaderBackend.Pool
