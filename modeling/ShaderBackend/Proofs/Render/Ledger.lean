import ShaderBackend.Proofs.Render.Scene
import ShaderBackend.Proofs.Runs
import Mathlib.Data.List.Nodup

/-! Which handles a device has out. An object passes from its owners to nobody and never back, and its
handles are given back as it does. So the handles that were given back are those of the objects that
nobody owns, and the others are still out. -/
namespace ShaderBackend.Render

variable {State Handle : Type} {factory : Factory State PassPlan Handle} {threshold : Log.Threshold}

/-- An entry that gains some items adds just these to the items of the list. -/
theorem flatMap_set_perm {α β : Type} {f : α → List β} {a b : α} {more : List β} {as : List α}
    {n : Nat} (hAt : as[n]? = some a) (hPerm : (f b).Perm (f a ++ more)) :
    ((as.set n b).flatMap f).Perm (as.flatMap f ++ more) := by
  induction as generalizing n with
  | nil => cases hAt
  | cons first as ih =>
      cases n with
      | zero =>
          cases hAt
          rw [List.set_cons_zero, List.flatMap_cons, List.flatMap_cons, List.append_assoc]
          refine (hPerm.append_right _).trans ?_
          rw [List.append_assoc]
          exact List.perm_append_comm.append_left _
      | succ n =>
          rw [List.set_cons_succ, List.flatMap_cons, List.flatMap_cons, List.append_assoc]
          exact (ih hAt).append_left _

namespace PassPool

variable {pool next : PassPool Handle} {number : Nat}

/-- Numbers of all objects, in the order in which they were made. -/
def numbers (pool : PassPool Handle) : List Nat := List.range pool.objects.length

/-- Numbers of the objects that have an owner. -/
def living (pool : PassPool Handle) : List Nat := pool.numbers.filter (pool.isOwned ·)

/-- Numbers of the objects that nobody owns any more. -/
def unowned (pool : PassPool Handle) : List Nat := pool.numbers.filter (!pool.isOwned ·)

/-- Numbers of the objects that have an owner here and none in a later pool. -/
def lost (pool later : PassPool Handle) : List Nat :=
  pool.numbers.filter fun number => pool.isOwned number && !later.isOwned number

/-- An object is owned by the pool that knows it and by each reference to it. -/
theorem isOwned_iff :
    pool.isOwned number = true ↔ number ∈ pool.owned ∨ some number ∈ pool.references := by
  simp [isOwned]

theorem isOwned_of_referent? {reference : Nat} (hHeld : pool.referent? reference = some number) :
    pool.isOwned number = true :=
  isOwned_iff.2 (.inr (List.mem_of_getElem? (Option.join_eq_some_iff.1 hHeld)))

theorem isOwned_of_known? {format : PassFormat} (hKnown : pool.known? format = some number) :
    pool.isOwned number = true :=
  isOwned_iff.2 (.inl (List.mem_of_find?_eq_some hKnown))

/-- A new reference owns its object and changes nothing for the others. -/
theorem isOwned_hold (other : Nat) :
    (pool.hold number).isOwned other = (pool.isOwned other || decide (other = number)) := by
  simp [isOwned, hold, owned, Bool.or_assoc]

/-- A reference that is gone makes nobody an owner. -/
theorem isOwned_without {reference : Nat} (other : Nat)
    (h : (pool.without reference).isOwned other = true) : pool.isOwned other = true := by
  rw [isOwned_iff] at h ⊢
  refine h.imp_right fun hIn => ?_
  obtain hIn | hNone := List.mem_or_eq_of_mem_set hIn
  · exact hIn
  · cases hNone

/-- Nor does the pool by going. -/
theorem isOwned_gone (other : Nat) (h : pool.gone.isOwned other = true) :
    pool.isOwned other = true :=
  isOwned_iff.2 (.inr ((isOwned_iff.1 h).resolve_left List.not_mem_nil))

/-- Only the object of a reference can lose its owner by the release. -/
theorem isOwned_without_of_ne {reference other : Nat}
    (hHeld : pool.referent? reference = some number) (hOther : other ≠ number)
    (h : pool.isOwned other = true) : (pool.without reference).isOwned other = true := by
  rw [isOwned_iff] at h ⊢
  refine h.imp_right fun hIn => ?_
  obtain ⟨n, hAt⟩ := List.mem_iff_getElem?.1 hIn
  suffices hKept : (pool.references.set reference none)[n]? = some (some other) from
    List.mem_of_getElem? hKept
  rw [List.getElem?_set_ne, hAt]
  rintro rfl
  rw [referent?, hAt, Option.join_some] at hHeld
  exact hOther (Option.some.inj hHeld)

/-- Where every owned object stays owned, none is lost. -/
theorem lost_eq_nil (h : ∀ number, pool.isOwned number = true → next.isOwned number = true) :
    pool.lost next = [] := by
  refine List.filter_eq_nil_iff.2 fun number _ hLost => ?_
  simp only [Bool.and_eq_true, Bool.not_eq_true'] at hLost
  exact absurd (h number hLost.1) (by simp [hLost.2])

theorem isOwned_hold_of_isOwned {other : Nat} (hOwned : pool.isOwned number = true) :
    (pool.hold number).isOwned other = pool.isOwned other := by
  rw [isOwned_hold, Bool.or_eq_left_iff_imp]
  intro hSame
  rwa [of_decide_eq_true hSame]

/-- A new object is owned from the start, by the pool that made it. -/
theorem isOwned_withObject {cached : List Nat} (hAlive : pool.cached = some cached)
    (object : Pass Handle) (other : Nat) :
    ((pool.withObject cached object).hold pool.objects.length).isOwned other =
      (pool.isOwned other || decide (other = pool.objects.length)) := by
  rw [isOwned_hold, Bool.eq_iff_iff]
  simp only [Bool.or_eq_true, decide_eq_true_eq, isOwned_iff, owned, withObject, hAlive,
    Option.getD_some, List.mem_append, List.mem_singleton]
  tauto

/-- Without a reference, nobody but its object can be lost. -/
theorem lost_without_perm {reference : Nat} (hHeld : pool.referent? reference = some number)
    (hInside : number < pool.objects.length) :
    ([number].filter (!(pool.without reference).isOwned ·)).Perm
      (pool.lost (pool.without reference)) := by
  have hOwned := isOwned_of_referent? hHeld
  refine (List.perm_ext_iff_of_nodup ((List.nodup_singleton number).filter _)
    (List.nodup_range.filter _)).2 fun other => ?_
  simp only [List.mem_filter, List.mem_singleton, List.mem_range, Bool.and_eq_true,
    Bool.not_eq_true']
  constructor
  · rintro ⟨rfl, hLost⟩
    exact ⟨hInside, hOwned, hLost⟩
  · rintro ⟨-, hOther, hLost⟩
    refine ⟨?_, hLost⟩
    by_contra hApart
    have hKept := isOwned_without_of_ne hHeld hApart hOther
    exact absurd (hKept.symm.trans hLost) Bool.noConfusion

/-- Without the pool, all its objects can be lost. -/
theorem lost_gone (hAll : pool.cached = some pool.numbers) :
    pool.numbers.filter (!pool.gone.isOwned ·) = pool.lost pool.gone := by
  refine List.filter_congr fun number hIn => ?_
  have hOwned : pool.isOwned number = true := by
    rw [isOwned_iff, owned, hAll]
    exact .inl hIn
  rw [hOwned, Bool.true_and]

theorem handlesOf_append (first second : List Nat) :
    pool.handlesOf (first ++ second) = pool.handlesOf first ++ pool.handlesOf second :=
  List.flatMap_append

/-- The order of the objects does not matter for what they hold. -/
theorem handlesOf_perm {first second : List Nat} (h : first.Perm second) :
    (pool.handlesOf first).Perm (pool.handlesOf second) := h.flatMap_right _

/-- Objects that stay as they are hold what they held. -/
theorem handlesOf_congr {numbers : List Nat}
    (h : ∀ number ∈ numbers, next.objects[number]? = pool.objects[number]?) :
    next.handlesOf numbers = pool.handlesOf numbers := by
  rw [handlesOf, handlesOf, List.flatMap_def, List.flatMap_def]
  refine congrArg List.flatten (List.map_congr_left fun number hIn => ?_)
  rw [h number hIn]

theorem mem_handlesOf {numbers : List Nat} {object : Pass Handle} {handle : Handle}
    (hNumber : number ∈ numbers) (hObject : pool.objects[number]? = some object)
    (hHandle : handle ∈ object.handles) : handle ∈ pool.handlesOf numbers := by
  refine List.mem_flatMap.2 ⟨number, hNumber, ?_⟩
  rwa [hObject]

/-- All objects together hold all handles. -/
theorem handlesOf_numbers : pool.handlesOf pool.numbers = pool.objects.flatMap Pass.handles := by
  rw [handlesOf, numbers, List.flatMap_def, List.flatMap_def]
  refine congrArg List.flatten (List.ext_getElem (by simp) fun n hLeft hRight => ?_)
  simp only [List.length_map] at hRight
  simp [hRight]

/-- Objects have an owner or have none. -/
theorem numbers_perm : pool.numbers.Perm (pool.unowned ++ pool.living) := by
  have h := List.filter_append_perm (!pool.isOwned ·) pool.numbers
  simpa only [Bool.not_not, unowned, living] using h.symm

/-- What can become of the objects of a pool: nobody comes to own an object that nobody owned, and
such an object stays as it is. -/
structure Onward (pool next : PassPool Handle) : Prop where
  /-- Every object stays, perhaps with more passes. -/
  objects : ∀ (number : Nat) (object : Pass Handle), pool.objects[number]? = some object →
    ∃ more, next.objects[number]? = some { object with instances := object.instances ++ more }
  /-- What is made has an owner. -/
  made : ∀ number, pool.objects.length ≤ number → number < next.objects.length →
    next.isOwned number = true
  /-- What has an owner had one before, or is made. -/
  owned : ∀ number, next.isOwned number = true →
    pool.isOwned number = true ∨
      pool.objects.length ≤ number ∧ number < next.objects.length
  kept : ∀ number, number < pool.objects.length → pool.isOwned number = false →
    next.objects[number]? = pool.objects[number]?

namespace Onward

/-- Where the objects stay, it is enough that no owner is new. -/
theorem of_objects (hObjects : next.objects = pool.objects)
    (hFewer : ∀ number, next.isOwned number = true → pool.isOwned number = true) :
    Onward pool next where
  objects := fun number object hObject => ⟨[], by rw [hObjects, hObject, List.append_nil]⟩
  made := fun number hOld hNew => absurd hNew (by rw [hObjects]; omega)
  owned := fun number hOwned => .inl (hFewer number hOwned)
  kept := fun number _ _ => by rw [hObjects]

theorem refl : Onward pool pool := .of_objects rfl fun _ hOwned => hOwned

theorem hold (hOwned : pool.isOwned number = true) : Onward pool (pool.hold number) :=
  .of_objects rfl fun _ hOther => (isOwned_hold_of_isOwned hOwned).symm.trans hOther

/-- A new object is put behind the others and takes nothing from them. -/
theorem withObject {cached : List Nat} (hAlive : pool.cached = some cached) (object : Pass Handle) :
    Onward pool ((pool.withObject cached object).hold pool.objects.length) where
  objects := fun number old hOld => by
    refine ⟨[], ?_⟩
    rw [List.append_nil]
    exact (List.getElem?_append_left (List.getElem?_eq_some_iff.1 hOld).1).trans hOld
  made := fun number hOld hNew => by
    have hLength : number < pool.objects.length + 1 := by
      simpa [PassPool.hold, PassPool.withObject] using hNew
    rw [isOwned_withObject hAlive, Bool.or_eq_true]
    exact .inr (decide_eq_true (by omega))
  owned := fun number hOwned => by
    rw [isOwned_withObject hAlive, Bool.or_eq_true, decide_eq_true_iff] at hOwned
    refine hOwned.imp_right fun hSame => ?_
    simp [hSame, PassPool.hold, PassPool.withObject]
  kept := fun number hInside _ => List.getElem?_append_left hInside

/-- A new instance is added to an object that is owned, so that nothing is lost. -/
theorem withInstance {object : Pass Handle} (hObject : pool.objects[number]? = some object)
    (hOwned : pool.isOwned number = true) (made : Instance Handle) :
    Onward pool (pool.withInstance number object made) where
  objects := fun other old hOld => by
    by_cases hSame : number = other
    · subst hSame
      cases hObject.symm.trans hOld
      exact ⟨[made], List.getElem?_set_self (List.getElem?_eq_some_iff.1 hObject).1⟩
    · refine ⟨[], ?_⟩
      rw [List.append_nil]
      exact (List.getElem?_set_ne hSame).trans hOld
  made := fun other hOld hNew => by
    have hLength : other < pool.objects.length := by simpa [PassPool.withInstance] using hNew
    omega
  owned := fun _ hOther => .inl hOther
  kept := fun other _ hFree => by
    refine List.getElem?_set_ne fun hSame => ?_
    rw [← hSame, hOwned] at hFree
    cases hFree

theorem length_le (h : Onward pool next) : pool.objects.length ≤ next.objects.length := by
  by_contra hShort
  have hInside : next.objects.length < pool.objects.length := by omega
  obtain ⟨more, hNext⟩ := h.objects _ _ (List.getElem?_eq_getElem hInside)
  rw [List.getElem?_eq_none (Nat.le_refl _)] at hNext
  cases hNext

/-- The objects without an owner are those that had none, and those that have lost theirs. -/
theorem unowned_perm (h : Onward pool next) :
    next.unowned.Perm (pool.unowned ++ pool.lost next) := by
  have hOld : next.unowned = pool.numbers.filter (!next.isOwned ·) := by
    obtain ⟨extra, hExtra⟩ := Nat.exists_eq_add_of_le h.length_le
    simp only [unowned, numbers, hExtra, List.range_add, List.filter_append]
    rw [List.append_right_eq_self, List.filter_eq_nil_iff]
    intro number hNumber
    obtain ⟨offset, hOffset, rfl⟩ := List.mem_map.1 hNumber
    have hInside := List.mem_range.1 hOffset
    simp [h.made (pool.objects.length + offset) (by omega) (by omega)]
  have hSplit := List.filter_append_perm (!pool.isOwned ·) (pool.numbers.filter (!next.isOwned ·))
  rw [List.filter_filter, List.filter_filter] at hSplit
  rw [hOld]
  refine hSplit.symm.trans (List.Perm.of_eq ?_)
  congr 1
  · refine List.filter_congr fun number hNumber => ?_
    cases hNext : next.isOwned number with
    | false => simp
    | true =>
        have hInside := List.mem_range.1 hNumber
        have hBefore := (h.owned number hNext).resolve_right fun hMade => by omega
        simp [hBefore]
  · exact List.filter_congr fun number _ => by simp

/-- What becomes unowned by the change adds to what was unowned before. -/
theorem handles_unowned (h : Onward pool next) :
    (next.handlesOf next.unowned).Perm
      (pool.handlesOf pool.unowned ++ next.handlesOf (pool.lost next)) := by
  have hKept : next.handlesOf pool.unowned = pool.handlesOf pool.unowned := by
    refine handlesOf_congr fun number hNumber => ?_
    obtain ⟨hInside, hFree⟩ := List.mem_filter.1 hNumber
    exact h.kept number (List.mem_range.1 hInside) (by simpa using hFree)
  rw [← hKept, ← handlesOf_append]
  exact handlesOf_perm h.unowned_perm

end Onward

end PassPool

namespace Scene

variable {s t : Scene State Handle} {event : Event State}

/-- The pool owns every object until it goes, whoever owns an object owns one that there is, and the
record of the device agrees with what the objects hold. -/
structure Ledger (s : Scene State Handle) : Prop where
  cached : ∀ numbers, s.pool.cached = some numbers → numbers = s.pool.numbers
  inside : ∀ number, s.pool.isOwned number = true → number < s.pool.objects.length
  created : s.record.created.Perm (s.pool.handlesOf s.pool.numbers)
  destroyed : s.record.destroyed.Perm (s.pool.handlesOf s.pool.unowned)

/-- A new pool has made nothing and owes nothing. -/
theorem Ledger.initial (device : State) : (Scene.initial device : Scene State Handle).Ledger where
  cached := fun _ hAlive => (Option.some.inj hAlive).symm
  inside := fun _ hOwned => nomatch hOwned
  created := .refl _
  destroyed := .refl _

/-- A pool that lives knows every object that it made. -/
theorem Ledger.cached_of_alive (h : s.Ledger) {numbers : List Nat}
    (hAlive : s.pool.cached = some numbers) : s.pool.cached = some s.pool.numbers := by
  rw [hAlive, h.cached numbers hAlive]

namespace Step

/-- No call takes an object or an instance away. -/
theorem onward (step : Step factory threshold s event t) : s.pool.Onward t.pool := by
  cases step with
  | found hKnown => exact .hold (PassPool.isOwned_of_known? hKnown)
  | built entries hAlive hNew hMade => exact .withObject hAlive _
  | known hHeld hObject hKnown => exact .refl
  | made entries hHeld hObject hNew hMade =>
      exact .withInstance hObject (PassPool.isOwned_of_referent? hHeld) _
  | refused hRefused => exact .refl
  | shared hHeld => exact .hold (PassPool.isOwned_of_referent? hHeld)
  | released device hHeld => exact .of_objects rfl fun other => PassPool.isOwned_without other
  | dropped device hAlive => exact .of_objects rfl fun other => PassPool.isOwned_gone other
  | outside device => exact .refl

/-- A step gives back the handles of the objects that lose their last owner. -/
theorem destroyed (step : Step factory threshold s event t) (h : s.Ledger) :
    ∃ back, t.record.destroyed = s.record.destroyed ++ back ∧
      back.Perm (t.pool.handlesOf (s.pool.lost t.pool)) := by
  -- Where every owner stays, no object is lost.
  have hNone (hSame : t.record.destroyed = s.record.destroyed)
      (hKept : ∀ number, s.pool.isOwned number = true → t.pool.isOwned number = true) :
      ∃ back, t.record.destroyed = s.record.destroyed ++ back ∧
        back.Perm (t.pool.handlesOf (s.pool.lost t.pool)) := by
    rw [PassPool.lost_eq_nil hKept]
    exact ⟨[], by rw [hSame, List.append_nil], .refl _⟩
  cases step with
  | found hKnown =>
      have hOwned := PassPool.isOwned_of_known? hKnown
      exact hNone rfl fun _ hOther => (PassPool.isOwned_hold_of_isOwned hOwned).trans hOther
  | built entries hAlive hNew hMade =>
      refine hNone rfl fun other hOther => ?_
      exact (PassPool.isOwned_withObject hAlive _ other).trans (by rw [hOther, Bool.true_or])
  | known | made | refused | outside => exact hNone rfl fun _ hOther => hOther
  | shared hHeld =>
      have hOwned := PassPool.isOwned_of_referent? hHeld
      exact hNone rfl fun _ hOther => (PassPool.isOwned_hold_of_isOwned hOwned).trans hOther
  | released device hHeld =>
      have hInside := h.inside _ (PassPool.isOwned_of_referent? hHeld)
      exact ⟨_, rfl, PassPool.handlesOf_perm (PassPool.lost_without_perm hHeld hInside)⟩
  | dropped device hAlive =>
      refine ⟨_, rfl, .of_eq (congrArg s.pool.gone.handlesOf ?_)⟩
      rw [h.cached _ hAlive]
      exact PassPool.lost_gone (h.cached_of_alive hAlive)

/-- What the device gives out in a step is what the objects hold more than before. -/
theorem created (step : Step factory threshold s event t) :
    ∃ given, t.record.created = s.record.created ++ given ∧
      (t.pool.handlesOf t.pool.numbers).Perm (s.pool.handlesOf s.pool.numbers ++ given) := by
  -- Where every object stays as it is, nothing is given out.
  have hNone (hSame : t.record.created = s.record.created)
      (hKept : t.pool.objects = s.pool.objects) :
      ∃ given, t.record.created = s.record.created ++ given ∧
        (t.pool.handlesOf t.pool.numbers).Perm (s.pool.handlesOf s.pool.numbers ++ given) := by
    refine ⟨[], by rw [hSame, List.append_nil], .of_eq ?_⟩
    rw [PassPool.handlesOf_numbers, PassPool.handlesOf_numbers, hKept, List.append_nil]
  cases step with
  | found | known | refused | shared | released | dropped | outside => exact hNone rfl rfl
  | built entries hAlive hNew hMade =>
      refine ⟨[_], rfl, .of_eq ?_⟩
      rw [PassPool.handlesOf_numbers, PassPool.handlesOf_numbers]
      simp [after, PassPool.withObject, PassPool.hold, Pass.handles]
  | made entries hHeld hObject hNew hMade =>
      refine ⟨[_], rfl, ?_⟩
      rw [PassPool.handlesOf_numbers, PassPool.handlesOf_numbers]
      exact flatMap_set_perm hObject (.of_eq (by simp [Pass.handles]))

theorem cached (step : Step factory threshold s event t) (h : s.Ledger) (numbers : List Nat)
    (hAlive : t.pool.cached = some numbers) : numbers = t.pool.numbers := by
  cases step with
  | found | known | refused | shared | released | outside => exact h.cached numbers hAlive
  | built entries hBefore hNew hMade =>
      cases hAlive
      rw [h.cached _ hBefore]
      simp [after, PassPool.numbers, PassPool.withObject, PassPool.hold, List.range_succ]
  | made entries hHeld hObject hNew hMade =>
      rw [h.cached numbers hAlive]
      simp [after, PassPool.numbers, PassPool.withInstance]
  | dropped device hBefore => cases hAlive

/-- Each call gives back what it makes ownerless, and records what it was given. -/
theorem ledger (step : Step factory threshold s event t) (h : s.Ledger) : t.Ledger where
  cached := step.cached h
  inside := fun number hOwned => by
    obtain hBefore | ⟨-, hMade⟩ := step.onward.owned number hOwned
    · exact Nat.lt_of_lt_of_le (h.inside number hBefore) step.onward.length_le
    · exact hMade
  created := by
    obtain ⟨given, hCreated, hHandles⟩ := step.created
    rw [hCreated]
    exact (h.created.append_right given).trans hHandles.symm
  destroyed := by
    obtain ⟨back, hDestroyed, hBack⟩ := step.destroyed h
    rw [hDestroyed]
    exact (h.destroyed.append hBack).trans step.onward.handles_unowned.symm

end Step

/-- Every call that can be made is answered. -/
theorem Ledger.isSome_step? (h : s.Ledger) (call : Call) :
    (s.step? factory threshold (.call call)).isSome = s.pool.admits call := by
  cases call with
  | get | share | release | drop =>
      simp [step?, PassPool.call?, PassPool.admits, PassPool.get]
  | handle reference ops =>
      cases hHeld : s.pool.referent? reference with
      | none => simp [step?, PassPool.call?, PassPool.admits, hHeld]
      | some number =>
          have hInside := h.inside number (PassPool.isOwned_of_referent? hHeld)
          simp [step?, PassPool.call?, PassPool.admits, PassPool.handleFor, hHeld, hInside]

/-- So the balance holds after any run. -/
theorem Ledger.of_run? {device : State} {events : List (Event State)}
    (run : (Scene.initial device).run? factory threshold events = some s) : s.Ledger :=
  foldlM_invariant run (.initial device) fun h hBefore => (step_of_step? h).ledger hBefore

end Scene

end ShaderBackend.Render
