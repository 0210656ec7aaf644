import Mathlib.Data.List.Perm.Basic
import ShaderBackend.Proofs.Shader.Orders

/-! Where modules are that a device has made. Each was destroyed, lies in the slot of its task, or is
held by somebody, and passes from one of these to another. -/
namespace ShaderBackend.Shader

open Pool (Slot Tasks)

theorem filterMap_cons_eq {α β : Type} (f : α → Option β) (a : α) (as : List α) :
    (a :: as).filterMap f = (f a).toList ++ as.filterMap f := by
  cases hMapped : f a with
  | none => rw [List.filterMap_cons_none hMapped, Option.toList_none, List.nil_append]
  | some b => rw [List.filterMap_cons_some hMapped, Option.toList_some, List.singleton_append]

/-- Exchanging one element of a list exchanges what it is mapped to. -/
theorem filterMap_set_perm {α β : Type} {f : α → Option β} {old new : α} {as : List α} {n : Nat}
    (hAt : as[n]? = some old) :
    ((as.set n new).filterMap f ++ (f old).toList).Perm (as.filterMap f ++ (f new).toList) := by
  induction as generalizing n with
  | nil => cases hAt
  | cons first as ih =>
      cases n with
      | zero =>
          cases hAt
          rw [List.set_cons_zero, filterMap_cons_eq, filterMap_cons_eq, List.append_assoc]
          exact List.perm_append_comm.trans (List.perm_append_comm.append_right _)
      | succ n =>
          rw [List.set_cons_succ, filterMap_cons_eq, filterMap_cons_eq, List.append_assoc,
            List.append_assoc]
          exact (ih hAt).append_left _

variable {State Handle : Type} {factory : Factory State ModuleRequest Handle}

/-- Handles of the modules that lie in slots. -/
def undelivered (slots : List (Option (Slot (ModuleResult Handle)))) : List Handle :=
  slots.filterMap fun entry => (entry.bind (·.value)).bind handleOf?

/-- The handles that a device gave out were given back, or belong to modules that lie in slots or are
held. -/
def Balanced (d : ModuleTrace State Handle) (slots : List (Option (Slot (ModuleResult Handle))))
    (held : List Handle) : Prop :=
  d.created.Perm (d.destroyed ++ (undelivered slots ++ held))

section Slots

variable {slots : List (Option (Slot (ModuleResult Handle)))} {task : Nat}

theorem undelivered_set {slot : Slot (ModuleResult Handle)} (hSlot : (slots[task]?).join = some slot)
    (new : Slot (ModuleResult Handle)) :
    (undelivered (slots.set task (some new)) ++ (slot.value.bind handleOf?).toList).Perm
      (undelivered slots ++ (new.value.bind handleOf?).toList) :=
  filterMap_set_perm (Option.join_eq_some_iff.1 hSlot)

/-- A slot loses the end of its task, and keeps its module. -/
theorem undelivered_modify_close (slots : List (Option (Slot (ModuleResult Handle)))) (task : Nat) :
    undelivered (slots.modify task (·.map Slot.close)) = undelivered slots := by
  rw [undelivered, undelivered]
  induction slots generalizing task with
  | nil => rw [List.modify_nil]
  | cons entry slots ih =>
      cases task with
      | zero =>
          rw [List.modify_zero_cons, filterMap_cons_eq, filterMap_cons_eq]
          cases entry <;> rfl
      | succ task => rw [List.modify_succ_cons, filterMap_cons_eq, filterMap_cons_eq, ih]

theorem undelivered_closeAll (slots : List (Option (Slot (ModuleResult Handle)))) (tasks : List Nat) :
    undelivered (tasks.foldl (fun slots task => slots.modify task (·.map Slot.close)) slots) =
      undelivered slots := by
  induction tasks generalizing slots with
  | nil => rfl
  | cons task rest ih => rw [List.foldl_cons, ih, undelivered_modify_close]

end Slots

namespace Balanced

variable {shop : Shop State Handle} {slots : List (Option (Slot (ModuleResult Handle)))}
  {held : List Handle} {task : Nat} {slot : Slot (ModuleResult Handle)}

/-- A result that is released was held by whoever releases it. -/
theorem release {result : Option (ModuleResult Handle)}
    (h : Balanced shop.device slots (held ++ (result.bind handleOf?).toList)) :
    Balanced (Tasks.releaseTo (releaseModule factory.traced) result shop).device slots held := by
  obtain _ | cause | made := result
  · simpa [Tasks.releaseTo] using h
  · simpa [Tasks.releaseTo, releaseModule, handleOf?] using h
  · rw [Balanced, Option.bind_some, handleOf?, Option.toList_some] at h
    show (Traced.created (Traced.after ..)).Perm
      (Traced.destroyed (Traced.after ..) ++ (undelivered slots ++ held))
    rw [Traced.created_destroy, Traced.destroyed_destroy, List.append_assoc]
    refine h.trans (List.Perm.append_left _ ?_)
    rw [← List.append_assoc]
    exact List.perm_append_comm

/-- The work of a task leaves a module in its hands, if the device has made one. -/
theorem run {order : Order} {worker : Nat} {pool : Pool.State} {result : Option (ModuleResult Handle)}
    {after : Shop State Handle} (h : Balanced shop.device slots held)
    (hMade : (order.job factory).run worker pool shop = (result, after)) :
    Balanced after.device slots (held ++ (result.bind handleOf?).toList) := by
  rw [Order.run_job] at hMade
  have hCreates := createModule_creates factory order.shader order.mapping order.options shop.device
  cases hMade
  generalize order.shader.createModule .. = creation at hCreates ⊢
  cases hCreates with
  | faulty | aborted | refused => simpa [Balanced, received?, handleOf?] using h
  | @made code handle =>
      have hMore := h.append_right [handle]
      simpa [Balanced, received?, handleOf?] using hMore

/-- Whoever exchanges a slot for another one gives what is in that and gets what was in the first. -/
theorem exchange {d : ModuleTrace State Handle} {new : Slot (ModuleResult Handle)}
    (h : Balanced d slots (held ++ (new.value.bind handleOf?).toList))
    (hSlot : (slots[task]?).join = some slot) :
    Balanced d (slots.set task (some new)) (held ++ (slot.value.bind handleOf?).toList) := by
  have hSet := (undelivered_set hSlot new).append_right held
  rw [List.append_assoc, List.append_assoc] at hSet
  have hGiven : (undelivered slots ++ (held ++ (new.value.bind handleOf?).toList)).Perm
      (undelivered slots ++ ((new.value.bind handleOf?).toList ++ held)) :=
    List.perm_append_comm.append_left _
  have hGot := (hGiven.trans hSet.symm).trans (List.perm_append_comm.append_left _)
  exact h.trans (hGot.append_left _)

section Tasks

variable {t : Tasks (Shop State Handle) (ModuleResult Handle)}

/-- A task leaves its result in an empty slot, or releases it. -/
theorem leave {result : Option (ModuleResult Handle)}
    (h : Balanced t.env.device t.slots (held ++ (result.bind handleOf?).toList))
    (hEmpty : ∀ slot, t.slot? task = some slot → slot.value = none) :
    Balanced (t.leave (releaseModule factory.traced) task result).env.device
      (t.leave (releaseModule factory.traced) task result).slots held := by
  unfold Tasks.leave
  split
  · rename_i slot value hSlot
    have hNone := hEmpty slot hSlot
    have hExchanged (new : Slot (ModuleResult Handle)) {rest : List Handle}
        (hNew : Balanced t.env.device t.slots (rest ++ (new.value.bind handleOf?).toList)) :
        Balanced t.env.device (t.slots.set task (some new)) rest := by
      simpa [hNone] using exchange hNew hSlot
    cases hWaits : slot.hasWaiter with
    | true =>
        rw [Slot.leave, if_pos hWaits]
        exact hExchanged { slot with value := some value } h
    | false =>
        rw [Slot.leave, if_neg (by simp [hWaits])]
        have hBack : Balanced t.env.device (t.slots.set task (some slot))
            (held ++ ((some value).bind handleOf?).toList) :=
          hExchanged slot (by simpa [hNone] using h)
        exact hBack.release
  · simpa using h
  · exact h.release

/-- A waiter takes what is in a slot. -/
theorem poll (h : Balanced t.env.device t.slots held) (hSlot : t.slot? task = some slot) :
    Balanced t.env.device (t.slots.set task (some slot.poll.2))
      (held ++ (slot.value.bind handleOf?).toList) :=
  exchange (by simpa [Slot.value_poll] using h) hSlot

/-- A waiter goes, and what is in its slot is released. -/
theorem forget (h : Balanced t.env.device t.slots held) (task : Nat) :
    Balanced (t.forget (releaseModule factory.traced) task).env.device
      (t.forget (releaseModule factory.traced) task).slots held := by
  rw [Tasks.forget]
  split
  · rename_i slot hSlot
    have hTaken : Balanced t.env.device (t.slots.set task (some slot.forget.1))
        (held ++ (slot.value.bind handleOf?).toList) :=
      exchange (by simpa [Slot.forget] using h) hSlot
    exact hTaken.release
  · exact h

end Tasks

end Balanced

end ShaderBackend.Shader
