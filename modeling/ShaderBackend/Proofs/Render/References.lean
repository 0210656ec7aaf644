import ShaderBackend.Proofs.Render.Slots

/-! References and attachments of a render pass. Each defined slot refers to the attachment that has
its own format and operations, whatever slots are left out in front of it, and each attachment is
referred to from one place. -/
namespace ShaderBackend.Render

/-- Where a subpass refers to an attachment from. -/
inductive Referrer where
  | color (slot : Nat)
  | depth
  deriving DecidableEq, Repr

/-- The reference in this place, if there is one. -/
def PassPlan.reference? (p : PassPlan) : Referrer → Option AttachmentReference
  | .color slot => (p.colorRefs[slot]?).join
  | .depth => p.depthRef

/-- A place refers to the attachment with this number. -/
def PassPlan.RefersTo (p : PassPlan) (place : Referrer) (number : Nat) : Prop :=
  ∃ r, p.reference? place = some r ∧ r.attachment.toNat = number

/-- What an attachment takes from a color slot and from the operations of this slot. -/
structure AttachmentDescription.CarriesColor (a : AttachmentDescription) (samples : SampleCount)
    (slot : AttachmentFormat) (ops : ColorOps) : Prop where
  format : a.format = slot.format
  samples : a.samples = samples
  load : a.load = ops.load
  initialLayout : a.initialLayout = ops.loadLayout
  finalLayout : a.finalLayout = ops.storeLayout

/-- The same for depth, whose stencil is loaded apart. -/
structure AttachmentDescription.CarriesDepth (a : AttachmentDescription) (samples : SampleCount)
    (slot : AttachmentFormat) (ops : DepthOps) : Prop where
  format : a.format = slot.format
  samples : a.samples = samples
  load : a.load = ops.loadDepth
  stencilLoad : a.stencilLoad = ops.loadStencil
  initialLayout : a.initialLayout = ops.loadLayout
  finalLayout : a.finalLayout = ops.storeLayout

/-- The references of a plan fit its attachments and the slots of a format. -/
structure PassPlan.LinedUp (p : PassPlan) (f : PassFormat) (ops : PassOps) : Prop where
  slots : p.colorRefs.length = colorSlots
  /-- A defined slot counts the defined slots in front of it and refers to its own attachment. -/
  color : ∀ (slot : Nat) (hSlot : slot < colorSlots), f.color[slot].format ≠ .undefined → ∃ r a,
    p.colorRefs[slot]? = some (some r) ∧ r.attachment.toNat = f.rank slot ∧
      r.layout = f.color[slot].layout ∧ p.attachments[f.rank slot]? = some a ∧
      a.CarriesColor f.samples f.color[slot] ops.color[slot]
  unused : ∀ (slot : Nat) (hSlot : slot < colorSlots), f.color[slot].format = .undefined →
    p.colorRefs[slot]? = some none
  /-- Depth refers to the attachment behind the colors. -/
  depth : f.depth.format ≠ .undefined → ∃ r a,
    p.depthRef = some r ∧ r.attachment.toNat = f.colorCount ∧ r.layout = f.depth.layout ∧
      p.attachments[f.colorCount]? = some a ∧ a.CarriesDepth f.samples f.depth ops.depth
  depthless : f.depth.format = .undefined → p.depthRef = none
  /-- There are no other attachments. -/
  length : p.attachments.length =
    f.colorCount + if f.depth.format = .undefined then 0 else 1
  inside : ∀ place number, p.RefersTo place number → number < p.attachments.length
  once : ∀ number < p.attachments.length, ∃! place, p.RefersTo place number

namespace Format

variable {format : Format}

theorem isDefined_iff : format.isDefined = true ↔ format ≠ .undefined := decide_eq_true_iff

theorem isDefined_eq_false_iff : format.isDefined = false ↔ format = .undefined := by
  rw [← Bool.not_eq_true, isDefined_iff, not_not]

end Format

theorem length_numberSlots (next : UInt32) (slots : List AttachmentFormat) :
    (numberSlots next slots).length = slots.length := by
  induction slots generalizing next with
  | nil => rfl
  | cons slot slots ih =>
      rw [numberSlots]
      split <;> rw [List.length_cons, List.length_cons, ih]

namespace PassFormat

variable {f : PassFormat} {slot other : Nat}

/-- A defined slot is counted by every slot behind it. -/
theorem rank_lt_rank (hSlot : f.hasColor slot = true) (hBefore : slot < other) :
    f.rank slot < f.rank other := by
  obtain ⟨color, hColor, hDefined⟩ := exists_color_of_hasColor hSlot
  rw [← getElem?_color] at hColor
  have hNext : f.rank (slot + 1) = f.rank slot + 1 := by
    rw [rank, List.take_add_one, hColor, Option.toList_some, definedCount, List.countP_append,
      List.countP_singleton, if_pos hDefined, rank, definedCount]
  have hOther : f.rank (slot + 1) ≤ f.rank other :=
    (List.take_sublist_take_left (Nat.succ_le_of_lt hBefore)).countP_le
  omega

/-- Two defined slots do not count to the same number. -/
theorem eq_of_rank_eq (hSlot : f.hasColor slot = true) (hOther : f.hasColor other = true)
    (hSame : f.rank slot = f.rank other) : slot = other := by
  obtain hBefore | hEqual | hBehind := Nat.lt_trichotomy slot other
  · exact absurd hSame (Nat.ne_of_lt (rank_lt_rank hSlot hBefore))
  · exact hEqual
  · exact absurd hSame.symm (Nat.ne_of_lt (rank_lt_rank hOther hBehind))

/-- Ranks of defined slots are small enough to be written as 32-bit numbers. -/
theorem toNat_rank (hSlot : f.hasColor slot = true) :
    (UInt32.ofNat (f.rank slot)).toNat = f.rank slot :=
  toNat_ofNat_of_le (Nat.le_of_lt (rank_lt hSlot))

end PassFormat

section Plan

variable (f : PassFormat) (ops : PassOps) {slot number : Nat}

/-- A colour slot names the attachment whose number is the rank of the slot among the defined
ones. -/
theorem refersTo_color_iff : (PassPlan.build f ops).RefersTo (.color slot) number ↔
    f.hasColor slot = true ∧ f.rank slot = number := by
  rw [PassPlan.RefersTo, PassPlan.reference?, getElem?_colorRefs]
  cases hColor : f.color[slot]? with
  | none => simp [PassFormat.hasColor, hColor]
  | some color =>
      rw [PassFormat.hasColor_eq hColor]
      cases hDefined : color.format.isDefined with
      | false => simp [hDefined]
      | true => simp [hDefined, PassFormat.toNat_rank ((PassFormat.hasColor_eq hColor).trans hDefined)]

/-- The depth attachment comes behind all colours. -/
theorem refersTo_depth_iff : (PassPlan.build f ops).RefersTo .depth number ↔
    f.hasDepth = true ∧ f.colorCount = number := by
  have hCount : (UInt32.ofNat f.colorCount).toNat = f.colorCount :=
    PassFormat.toNat_ofNat_of_le (Nat.le_refl _)
  rw [PassPlan.RefersTo, PassPlan.reference?, PassPlan.build]
  cases f.hasDepth with
  | false => simp
  | true => simp [hCount]

/-- The defined slots count through the color attachments. -/
theorem exists_refersTo_color (hNumber : number < f.colorCount) :
    ∃ slot, (PassPlan.build f ops).RefersTo (.color slot) number := by
  rw [← List.mem_range, ← reduceOption_colorRefs f ops] at hNumber
  obtain ⟨r, hRef, hAttachment⟩ := List.mem_map.1 hNumber
  obtain ⟨slot, hAt⟩ := List.mem_iff_getElem?.1 (List.reduceOption_mem_iff.1 hRef)
  exact ⟨slot, r, by rw [PassPlan.reference?, hAt, Option.join_some], hAttachment⟩

theorem lt_length_of_refersTo {place : Referrer}
    (h : (PassPlan.build f ops).RefersTo place number) :
    number < (PassPlan.build f ops).attachments.length := by
  rw [length_attachments]
  cases place with
  | color slot =>
      obtain ⟨hSlot, rfl⟩ := (refersTo_color_iff f ops).1 h
      exact Nat.lt_add_right _ (PassFormat.rank_lt hSlot)
  | depth =>
      obtain ⟨hDepth, rfl⟩ := (refersTo_depth_iff f ops).1 h
      simp [hDepth]

/-- No attachment is referred to from two places. -/
theorem refersTo_unique {first second : Referrer}
    (hFirst : (PassPlan.build f ops).RefersTo first number)
    (hSecond : (PassPlan.build f ops).RefersTo second number) : first = second := by
  cases first with
  | depth =>
      obtain ⟨-, rfl⟩ := (refersTo_depth_iff f ops).1 hFirst
      cases second with
      | depth => rfl
      | color other =>
          obtain ⟨hOther, hNumber⟩ := (refersTo_color_iff f ops).1 hSecond
          exact absurd hNumber (Nat.ne_of_lt (PassFormat.rank_lt hOther))
  | color slot =>
      obtain ⟨hSlot, rfl⟩ := (refersTo_color_iff f ops).1 hFirst
      cases second with
      | depth =>
          obtain ⟨-, hNumber⟩ := (refersTo_depth_iff f ops).1 hSecond
          exact absurd hNumber.symm (Nat.ne_of_lt (PassFormat.rank_lt hSlot))
      | color other =>
          obtain ⟨hOther, hNumber⟩ := (refersTo_color_iff f ops).1 hSecond
          rw [PassFormat.eq_of_rank_eq hSlot hOther hNumber.symm]

/-- Every attachment is referred to, a color from its slot and the last one from depth if there is
depth. -/
theorem exists_refersTo (hNumber : number < (PassPlan.build f ops).attachments.length) :
    ∃ place, (PassPlan.build f ops).RefersTo place number := by
  rw [length_attachments] at hNumber
  by_cases hColor : number < f.colorCount
  · obtain ⟨slot, hRefers⟩ := exists_refersTo_color f ops hColor
    exact ⟨.color slot, hRefers⟩
  · refine ⟨.depth, (refersTo_depth_iff f ops).2 ?_⟩
    cases hDepth : f.hasDepth with
    | false =>
        rw [hDepth, Bool.toNat_false, Nat.add_zero] at hNumber
        exact absurd hNumber hColor
    | true =>
        rw [hDepth, Bool.toNat_true] at hNumber
        exact ⟨rfl, by omega⟩

end Plan

/-- For every pattern of defined slots the references of a pass and its attachments line up. -/
theorem linedUp_build (f : PassFormat) (ops : PassOps) :
    (PassPlan.build f ops).LinedUp f ops where
  slots := by
    rw [PassPlan.build, length_numberSlots]
    exact f.color.length_toList
  color slot hSlot hDefined := by
    have hColor : f.color[slot]? = some f.color[slot] := Vector.getElem?_eq_getElem hSlot
    have hOps : ops.color[slot]? = some ops.color[slot] := Vector.getElem?_eq_getElem hSlot
    have hIsDefined := Format.isDefined_iff.2 hDefined
    have hHasColor := (PassFormat.hasColor_eq hColor).trans hIsDefined
    refine ⟨⟨UInt32.ofNat (f.rank slot), f.color[slot].layout⟩, _, ?_,
      PassFormat.toNat_rank hHasColor, rfl, getElem?_attachments hColor hOps hIsDefined,
      ⟨rfl, rfl, rfl, rfl, rfl⟩⟩
    rw [getElem?_colorRefs, hColor, Option.map_some, if_pos hIsDefined]
  unused slot hSlot hUndefined := by
    rw [getElem?_colorRefs, Vector.getElem?_eq_getElem hSlot, Option.map_some,
      Format.isDefined_eq_false_iff.2 hUndefined]
    rfl
  depth hDefined := by
    have hDepth : f.hasDepth = true := Format.isDefined_iff.2 hDefined
    exact ⟨⟨UInt32.ofNat f.colorCount, f.depth.layout⟩, _, if_pos hDepth,
      PassFormat.toNat_ofNat_of_le (Nat.le_refl _), rfl, getElem?_attachments_colorCount hDepth,
      ⟨rfl, rfl, rfl, rfl, rfl, rfl⟩⟩
  depthless hUndefined := by
    have hDepth : f.hasDepth = false := Format.isDefined_eq_false_iff.2 hUndefined
    exact if_neg (Bool.eq_false_iff.1 hDepth)
  length := by
    rw [length_attachments, PassFormat.hasDepth]
    by_cases hUndefined : f.depth.format = .undefined
    · rw [if_pos hUndefined, Format.isDefined_eq_false_iff.2 hUndefined, Bool.toNat_false]
    · rw [if_neg hUndefined, Format.isDefined_iff.2 hUndefined, Bool.toNat_true]
  inside place number hRefers := lt_length_of_refersTo f ops hRefers
  once number hNumber := by
    obtain ⟨place, hRefers⟩ := exists_refersTo f ops hNumber
    exact ⟨place, hRefers, fun other hOther => refersTo_unique f ops hOther hRefers⟩

end ShaderBackend.Render
