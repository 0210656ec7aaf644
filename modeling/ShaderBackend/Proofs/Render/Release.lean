import ShaderBackend.Proofs.Render.Ledger

/-! Handles of render passes are given back exactly once, whatever the order in which the pool and the
references go and whatever the device refuses. -/
namespace ShaderBackend.Render

variable {State Handle : Type} {factory : Factory State PassPlan Handle} {threshold : Log.Threshold}

namespace Scene

variable {s t : Scene State Handle}

/-- The books of a pool balance, here and in whatever step comes next. -/
structure ReleasedOnce (factory : Factory State PassPlan Handle) (threshold : Log.Threshold)
    (s : Scene State Handle) : Prop where
  /-- The pool can go whenever it is there, and so can every reference. -/
  answered : ∀ call, (s.step? factory threshold (.call call)).isSome = s.pool.admits call
  /-- What was given back is what the objects without an owner hold. -/
  returned : s.record.destroyed.Perm (s.pool.handlesOf s.pool.unowned)
  /-- What was made was given back or is held by an object with an owner. -/
  balance : s.record.created.Perm (s.record.destroyed ++ s.pool.handlesOf s.pool.living)
  /-- No handle of an object with an owner was given back, unless the device made one twice. -/
  spared : s.record.created.Nodup → ∀ number object, s.pool.objects[number]? = some object →
    s.pool.isOwned number = true → ∀ handle ∈ object.handles, handle ∉ s.record.destroyed
  /-- As objects lose their last owner, their handles are given back once each, and no others. -/
  lastOwner : ∀ event t, s.step? factory threshold event = some t →
    ∃ back, t.record.destroyed = s.record.destroyed ++ back ∧
      back.Perm (t.pool.handlesOf (s.pool.lost t.pool))
  /-- A request that is refused makes nothing and gives nothing back. -/
  refused : ∀ call cause t, s.step? factory threshold (.call call) = some t →
    Refused s t cause →
      t.record.created = s.record.created ∧ t.record.destroyed = s.record.destroyed
  /-- Once everybody is gone, what was made is what was given back. -/
  settled : s.pool.cached = none → (∀ number, some number ∉ s.pool.references) →
    s.record.destroyed.Perm s.record.created

/-- What the device gave out has come back or belongs to an object that lives. -/
theorem Ledger.balance (h : s.Ledger) :
    s.record.created.Perm (s.record.destroyed ++ s.pool.handlesOf s.pool.living) := by
  refine h.created.trans ((PassPool.handlesOf_perm PassPool.numbers_perm).trans ?_)
  rw [PassPool.handlesOf_append]
  exact h.destroyed.symm.append_right _

/-- With handles that differ from each other, none that a living object holds has come back. -/
theorem Ledger.spared (h : s.Ledger) (hFresh : s.record.created.Nodup) {number : Nat}
    {object : Pass Handle} (hObject : s.pool.objects[number]? = some object)
    (hOwned : s.pool.isOwned number = true) {handle : Handle} (hHandle : handle ∈ object.handles) :
    handle ∉ s.record.destroyed := by
  intro hBack
  have hLiving : number ∈ s.pool.living :=
    List.mem_filter.2 ⟨List.mem_range.2 (h.inside number hOwned), hOwned⟩
  have hApart := (List.nodup_append.1 (h.balance.nodup_iff.1 hFresh)).2.2
  exact hApart handle hBack handle (PassPool.mem_handlesOf hLiving hObject hHandle) rfl

/-- Once the pool and all references are gone, all handles have come back. -/
theorem Ledger.settled (h : s.Ledger) (hGone : s.pool.cached = none)
    (hReleased : ∀ number, some number ∉ s.pool.references) :
    s.record.destroyed.Perm s.record.created := by
  have hNobody : s.pool.living = [] := by
    refine List.filter_eq_nil_iff.2 fun number _ hOwned => ?_
    obtain hIn | hIn := PassPool.isOwned_iff.1 hOwned
    · rw [PassPool.owned, hGone] at hIn
      cases hIn
    · exact hReleased number hIn
  have hBalance := h.balance
  rw [hNobody] at hBalance
  simpa [PassPool.handlesOf] using hBalance.symm

/-- Every handle that a run makes is given back once, and not before its object has lost its last
owner. -/
theorem released_once {device : State} {events : List (Event State)}
    (run : (initial device).run? factory threshold events = some s) :
    s.ReleasedOnce factory threshold := by
  have hLedger := Ledger.of_run? run
  exact
    { answered := hLedger.isSome_step?
      returned := hLedger.destroyed
      balance := hLedger.balance
      spared := fun hFresh _ _ hObject hOwned _ hHandle =>
        hLedger.spared hFresh hObject hOwned hHandle
      lastOwner := fun _ _ hStep => (step_of_step? hStep).destroyed hLedger
      refused := fun _ _ _ hStep hRefused => by
        obtain ⟨-, device, -, rfl⟩ := (step_of_step? hStep).refused_eq hRefused
        exact ⟨rfl, rfl⟩
      settled := hLedger.settled }

/-- Passes of the plainest format are asked for, the device refuses one of them, and the references go
before and after the pool. -/
def refusedMeanwhile : List (Event (LedgerDevice PassPlan)) :=
  [.call (.get {}), .call (.handle 0 {}), .call (.get {}),
    .outside { created := 2, refusal := some .outOfMemory },
    .call (.handle 1 { depth := { loadDepth := .clear } }), .call (.release 0), .call .drop,
    .call (.release 1)]

/-- A format is asked for twice, the device refuses once in between, and all is released in the
end. -/
theorem released_once_refusedMeanwhile :
    ∃ s, (initial {}).run? (LedgerDevice.factory PassPlan) none refusedMeanwhile = some s ∧
      s.record.created = [1, 2] ∧ s.record.destroyed.Perm [1, 2] := by
  obtain ⟨s, hRun, hCreated, hGone, hReferences⟩ :
      ∃ s, (initial {}).run? (LedgerDevice.factory PassPlan) none refusedMeanwhile = some s ∧
        s.record.created = [1, 2] ∧ s.pool.cached = none ∧ s.pool.references = [none, none] :=
    ⟨_, rfl, rfl, rfl, rfl⟩
  refine ⟨s, hRun, hCreated, ?_⟩
  rw [← hCreated]
  exact (released_once hRun).settled hGone (by simp [hReferences])

end Scene

end ShaderBackend.Render
