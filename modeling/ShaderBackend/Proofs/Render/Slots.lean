import Mathlib.Data.List.ReduceOption
import ShaderBackend.Render.Plan

/-! Color slots of a render pass and the attachments for them. The defined slots are counted off from
the first, so that the number of an attachment is the number of defined slots in front of its own. -/
namespace ShaderBackend.Render

/-- Number of defined slots. -/
def definedCount (slots : List AttachmentFormat) : Nat := slots.countP (·.format.isDefined)

@[simp]
theorem definedCount_nil : definedCount [] = 0 := rfl

/-- A slot counts if it has a format. -/
theorem definedCount_cons (slot : AttachmentFormat) (slots : List AttachmentFormat) :
    definedCount (slot :: slots) = definedCount slots + slot.format.isDefined.toNat := by
  rw [definedCount, List.countP_cons, definedCount]
  cases slot.format.isDefined <;> rfl

theorem definedCount_le_length (slots : List AttachmentFormat) : definedCount slots ≤ slots.length :=
  List.countP_le_length

/-- What stands in a list behind those elements that are kept is found among them by their count. -/
theorem getElem?_filter_countP_take {α : Type} {p : α → Bool} {as : List α} {index : Nat} {a : α}
    (hAt : as[index]? = some a) (hKept : p a = true) :
    (as.filter p)[(as.take index).countP p]? = some a := by
  induction as generalizing index with
  | nil => cases hAt
  | cons head as ih =>
      cases index with
      | zero =>
          cases hAt
          simp [hKept]
      | succ index =>
          have hRest := ih hAt
          cases hHead : p head <;> simp [hHead, hRest]

/-- A slot refers to the attachment that it is counted off as, and an undefined slot to none. -/
theorem getElem?_numberSlots (next : Nat) (slots : List AttachmentFormat) (index : Nat) :
    (numberSlots (UInt32.ofNat next) slots)[index]? = slots[index]?.map fun slot =>
      if slot.format.isDefined then
        some ⟨UInt32.ofNat (next + definedCount (slots.take index)), slot.layout⟩
      else none := by
  induction slots generalizing next index with
  | nil => rfl
  | cons slot slots ih =>
      cases hDefined : slot.format.isDefined with
      | false =>
          cases index with
          | zero => simp [numberSlots, hDefined]
          | succ index => simp [numberSlots, hDefined, ih, definedCount_cons]
      | true =>
          have hNext : UInt32.ofNat next + 1 = UInt32.ofNat (next + 1) := (UInt32.ofNat_add ..).symm
          cases index with
          | zero => simp [numberSlots, hDefined]
          | succ index =>
              rw [numberSlots, if_pos hDefined, hNext, List.getElem?_cons_succ,
                List.getElem?_cons_succ, ih, List.take_succ_cons, definedCount_cons, hDefined,
                Bool.toNat_true, Nat.add_right_comm, ← Nat.add_assoc]

/-- The references that slots make are to the attachments from `next` on, one after the other. -/
theorem reduceOption_numberSlots (next : Nat) (slots : List AttachmentFormat) :
    (numberSlots (UInt32.ofNat next) slots).reduceOption.map (·.attachment) =
      (List.range' next (definedCount slots)).map UInt32.ofNat := by
  induction slots generalizing next with
  | nil => rfl
  | cons slot slots ih =>
      have hNext : UInt32.ofNat next + 1 = UInt32.ofNat (next + 1) := (UInt32.ofNat_add ..).symm
      cases hDefined : slot.format.isDefined with
      | false =>
          rw [numberSlots, if_neg (by simp [hDefined]), List.reduceOption_cons_of_none, ih,
            definedCount_cons, hDefined]
          rfl
      | true =>
          rw [numberSlots, if_pos hDefined, List.reduceOption_cons_of_some, List.map_cons, hNext, ih,
            definedCount_cons, hDefined, Bool.toNat_true, List.range'_succ, List.map_cons]

namespace PassFormat

variable {f : PassFormat} {slot : Nat} {color : AttachmentFormat}

/-- Number of defined color slots in front of this one. -/
def rank (f : PassFormat) (slot : Nat) : Nat := definedCount (f.color.toList.take slot)

/-- There are at most as many color attachments as there are slots. -/
theorem colorCount_le (f : PassFormat) : f.colorCount ≤ colorSlots :=
  Nat.le_trans (definedCount_le_length f.color.toList) (Nat.le_of_eq f.color.length_toList)

/-- There are too few slots for a number of an attachment to wrap around. -/
theorem toNat_ofNat_of_le {number : Nat} (hNumber : number ≤ f.colorCount) :
    (UInt32.ofNat number).toNat = number := by
  have hCount := f.colorCount_le
  rw [colorSlots] at hCount
  rw [UInt32.toNat_ofNat', Nat.mod_eq_of_lt (by omega)]

theorem getElem?_color (f : PassFormat) (slot : Nat) : f.color.toList[slot]? = f.color[slot]? := by
  simp

theorem hasColor_eq (hColor : f.color[slot]? = some color) :
    f.hasColor slot = color.format.isDefined := by
  rw [hasColor, hColor]
  rfl

/-- A slot with a color has a format. -/
theorem exists_color_of_hasColor (hSlot : f.hasColor slot = true) :
    ∃ color, f.color[slot]? = some color ∧ color.format.isDefined = true := by
  rw [hasColor] at hSlot
  cases hColor : f.color[slot]? with
  | none =>
      rw [hColor] at hSlot
      cases hSlot
  | some color =>
      rw [hColor] at hSlot
      exact ⟨color, rfl, hSlot⟩

/-- A slot with a format is among those that count. -/
theorem rank_lt (hSlot : f.hasColor slot = true) : f.rank slot < f.colorCount := by
  obtain ⟨color, hColor, hDefined⟩ := exists_color_of_hasColor hSlot
  rw [← getElem?_color] at hColor
  have hKept := getElem?_filter_countP_take (p := fun color => color.format.isDefined) hColor hDefined
  rw [colorCount, List.countP_eq_length_filter]
  exact (List.getElem?_eq_some_iff.1 hKept).1

end PassFormat

section Plan

variable {f : PassFormat} {ops : PassOps} {slot : Nat} {color : AttachmentFormat}

/-- Each slot refers to the attachment of its rank. -/
theorem getElem?_colorRefs (f : PassFormat) (ops : PassOps) (slot : Nat) :
    (PassPlan.build f ops).colorRefs[slot]? = f.color[slot]?.map fun color =>
      if color.format.isDefined then some ⟨UInt32.ofNat (f.rank slot), color.layout⟩ else none := by
  have hNumbered := getElem?_numberSlots 0 f.color.toList slot
  simp only [Nat.zero_add, f.getElem?_color] at hNumbered
  exact hNumbered

/-- The slots refer to the color attachments one after the other. -/
theorem reduceOption_colorRefs (f : PassFormat) (ops : PassOps) :
    (PassPlan.build f ops).colorRefs.reduceOption.map (·.attachment.toNat) =
      List.range f.colorCount := by
  have hNumbered := reduceOption_numberSlots 0 f.color.toList
  have hSmall : ∀ number ∈ List.range f.colorCount, (UInt32.ofNat number).toNat = number :=
    fun number hNumber => PassFormat.toNat_ofNat_of_le (Nat.le_of_lt (List.mem_range.1 hNumber))
  have hToNat := congrArg (List.map UInt32.toNat) hNumbered
  rw [List.map_map, List.map_map, ← List.range_eq_range'] at hToNat
  refine hToNat.trans ?_
  exact (List.map_congr_left hSmall).trans (List.map_id _)

theorem countP_zip (f : PassFormat) (ops : PassOps) (count : Nat) :
    ((f.color.toList.zip ops.color.toList).take count).countP (·.1.format.isDefined) =
      definedCount (f.color.toList.take count) := by
  have hColors : ((f.color.toList.zip ops.color.toList).take count).map Prod.fst =
      f.color.toList.take count := by
    rw [List.map_take, List.map_fst_zip (by simp)]
  rw [definedCount, ← hColors, List.countP_map]
  rfl

/-- There is one color attachment for each slot with a format. -/
theorem length_colorAttachments (f : PassFormat) (ops : PassOps) :
    (colorAttachments f ops).length = f.colorCount := by
  have hCount := countP_zip f ops colorSlots
  rw [List.take_of_length_le (by simp), List.take_of_length_le (by simp)] at hCount
  rw [colorAttachments, List.length_map, ← List.countP_eq_length_filter, hCount]
  rfl

/-- The attachment of a slot stands where the defined slots in front of it end. -/
theorem getElem?_colorAttachments {colorOps : ColorOps} (hColor : f.color[slot]? = some color)
    (hOps : ops.color[slot]? = some colorOps) (hDefined : color.format.isDefined = true) :
    (colorAttachments f ops)[f.rank slot]? = some (colorAttachment f.samples color colorOps) := by
  have hZip : (f.color.toList.zip ops.color.toList)[slot]? = some (color, colorOps) := by
    rw [List.getElem?_zip_eq_some]
    exact ⟨(f.getElem?_color slot).trans hColor, by simpa using hOps⟩
  have hKept := getElem?_filter_countP_take (p := fun pair => pair.1.format.isDefined) hZip hDefined
  rw [countP_zip] at hKept
  rw [colorAttachments, List.getElem?_map, PassFormat.rank, hKept]
  rfl

/-- Colors come first, and depth behind them. -/
theorem length_attachments (f : PassFormat) (ops : PassOps) :
    (PassPlan.build f ops).attachments.length = f.colorCount + f.hasDepth.toNat := by
  rw [PassPlan.build, List.length_append, length_colorAttachments]
  cases f.hasDepth <;> rfl

/-- The attachment of a slot stands at its rank, with the format and the ops of the slot. -/
theorem getElem?_attachments {colorOps : ColorOps} (hColor : f.color[slot]? = some color)
    (hOps : ops.color[slot]? = some colorOps) (hDefined : color.format.isDefined = true) :
    (PassPlan.build f ops).attachments[f.rank slot]? =
      some (colorAttachment f.samples color colorOps) := by
  have hInside : f.rank slot < (colorAttachments f ops).length := by
    rw [length_colorAttachments]
    exact PassFormat.rank_lt ((PassFormat.hasColor_eq hColor).trans hDefined)
  exact (List.getElem?_append_left hInside).trans (getElem?_colorAttachments hColor hOps hDefined)

/-- The depth attachment stands behind those of all slots. -/
theorem getElem?_attachments_colorCount (hDepth : f.hasDepth = true) :
    (PassPlan.build f ops).attachments[f.colorCount]? =
      some (depthAttachment f.samples f.depth ops.depth) := by
  rw [PassPlan.build, hDepth, if_pos rfl, ← length_colorAttachments f ops]
  exact List.getElem?_concat_length

end Plan

end ShaderBackend.Render
