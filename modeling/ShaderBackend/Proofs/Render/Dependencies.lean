import Mathlib.Data.Nat.Bitwise
import ShaderBackend.Proofs.Render.Slots

/-! What a render pass waits for, and what waits for it. There are up to four dependencies in a fixed
order, each for a condition of its own on the format, the operations and the barrier. The accesses of
a pass to its attachments are given bit by bit, whatever other bits the caller has set. -/
namespace ShaderBackend.Render

/-- Two bit sets have a bit in common. -/
def Meets (a b : UInt32) : Prop :=
  ∃ bit, a.toNat.testBit bit = true ∧ b.toNat.testBit bit = true

section Bits

variable {a b c : UInt32}

theorem ne_zero_iff : a ≠ 0 ↔ ∃ bit, a.toNat.testBit bit = true := by
  rw [← not_iff_not, not_not, not_exists]
  simp only [Bool.not_eq_true]
  constructor
  · rintro rfl bit
    exact Nat.zero_testBit bit
  · intro hClear
    exact UInt32.toNat_inj.1 (Nat.zero_of_testBit_eq_false hClear)

/-- The test of the program finds a common bit. -/
theorem intersects_iff : intersects a b = true ↔ Meets a b := by
  rw [intersects, bne_iff_ne, ne_zero_iff, Meets]
  simp only [UInt32.toNat_and, Nat.testBit_and, Bool.and_eq_true]

instance : DecidableRel Meets := fun _ _ => decidable_of_iff _ intersects_iff

theorem meets_or_right : Meets a (b ||| c) ↔ Meets a b ∨ Meets a c := by
  simp only [Meets, UInt32.toNat_or, Nat.testBit_or, Bool.or_eq_true, and_or_left, exists_or]

theorem meets_or_left : Meets (a ||| b) c ↔ Meets a c ∨ Meets b c := by
  simp only [Meets, UInt32.toNat_or, Nat.testBit_or, Bool.or_eq_true, or_and_right, exists_or]

/-- A set that is added under a condition has bits only where the condition holds. -/
theorem meets_bitsIf {condition : Bool} :
    Meets (bitsIf condition a) b ↔ condition = true ∧ Meets a b := by
  cases condition with
  | false => simp [bitsIf, Meets]
  | true => simp [bitsIf]

theorem testBit_bitsIf {condition : Bool} {bit : Nat} :
    (bitsIf condition a).toNat.testBit bit = true ↔
      condition = true ∧ a.toNat.testBit bit = true := by
  cases condition <;> simp [bitsIf]

end Bits

/-- Which formats have depth, which have stencil, and which have color. A defined format has color
exactly if it has neither of the others. -/
theorem Format.meets_aspects_iff (f : Format) :
    (Meets ImageAspects.depth f.aspects ↔
      f = .d16Unorm ∨ f = .d32Float ∨ f = .d24UnormS8Uint ∨ f = .d32FloatS8Uint) ∧
    (Meets ImageAspects.stencil f.aspects ↔
      f = .s8Uint ∨ f = .d24UnormS8Uint ∨ f = .d32FloatS8Uint) ∧
    (Meets ImageAspects.color f.aspects ↔ f ≠ .undefined ∧
      ¬ Meets ImageAspects.depth f.aspects ∧ ¬ Meets ImageAspects.stencil f.aspects) := by
  cases f <;> decide

/-- Some slot has an attachment. -/
def PassFormat.HasAttachment (f : PassFormat) : Prop :=
  f.hasDepth = true ∨ ∃ slot, f.hasColor slot = true

/-- An aspect that the depth format has is loaded. -/
def LoadsDepth (f : PassFormat) (ops : PassOps) : Prop :=
  ops.depth.loadDepth = .load ∧ Meets ImageAspects.depth f.depth.format.aspects ∨
    ops.depth.loadStencil = .load ∧ Meets ImageAspects.stencil f.depth.format.aspects

/-- A defined color slot is loaded. -/
def LoadsColor (f : PassFormat) (ops : PassOps) : Prop :=
  ∃ slot colorOps, f.hasColor slot = true ∧ ops.color[slot]? = some colorOps ∧
    colorOps.load = .load

/-- The accesses to attachments, each with the stages that make it. -/
def attachmentAccesses : List (AccessFlags × PipelineStages) :=
  [(AccessFlags.depthStencilAttachmentRead,
      PipelineStages.earlyFragmentTests ||| PipelineStages.lateFragmentTests),
    (AccessFlags.depthStencilAttachmentWrite,
      PipelineStages.earlyFragmentTests ||| PipelineStages.lateFragmentTests),
    (AccessFlags.shaderRead, PipelineStages.fragmentShader),
    (AccessFlags.colorAttachmentWrite, PipelineStages.colorAttachmentOutput),
    (AccessFlags.colorAttachmentRead, PipelineStages.colorAttachmentOutput)]

/-- The dependency of a pass on what came before it. -/
structure SubpassDependency.AwaitsAttachments (d : SubpassDependency) (f : PassFormat)
    (ops : PassOps) : Prop where
  srcSubpass : d.srcSubpass = subpassExternal
  dstSubpass : d.dstSubpass = 0
  stages : d.srcStages = d.dstStages
  srcAccess : d.srcAccess = 0
  flags : d.flags = 0
  depthRead : Meets d.dstAccess AccessFlags.depthStencilAttachmentRead ↔ LoadsDepth f ops
  depthWrite : Meets d.dstAccess AccessFlags.depthStencilAttachmentWrite ↔
    f.hasDepth = true ∧ f.depth.layout ≠ .depthStencilReadOnly
  shaderRead : Meets d.dstAccess AccessFlags.shaderRead ↔
    f.hasDepth = true ∧ f.depth.layout ≠ .depthStencilAttachment
  colorWrite : Meets d.dstAccess AccessFlags.colorAttachmentWrite ↔ ∃ slot, f.hasColor slot = true
  colorRead : Meets d.dstAccess AccessFlags.colorAttachmentRead ↔ LoadsColor f ops
  /-- No access is there without a stage that makes it. -/
  backed : ∀ bit, d.dstAccess.toNat.testBit bit = true → ∃ entry ∈ attachmentAccesses,
    entry.1.toNat.testBit bit = true ∧ Meets d.dstStages entry.2

/-- The dependencies of a pass by their reasons. -/
structure DependencyParts where
  render : Option SubpassDependency
  counter : Option SubpassDependency
  feedback : Option SubpassDependency
  caller : Option SubpassDependency

def DependencyParts.toList (p : DependencyParts) : List SubpassDependency :=
  p.render.toList ++ p.counter.toList ++ p.feedback.toList ++ p.caller.toList

/-- Each dependency is there exactly if there is a reason for it. -/
structure DependencyParts.Required (p : DependencyParts) (f : PassFormat) (ops : PassOps) : Prop where
  render_iff : p.render.isSome = true ↔ f.HasAttachment
  render : ∀ d, p.render = some d → d.AwaitsAttachments f ops
  counter_iff : p.counter.isSome = true ↔
    Meets ops.barrier.srcStages PipelineStages.transformFeedback ∨
      Meets ops.barrier.srcStages PipelineStages.allGraphics ∨
      Meets ops.barrier.srcStages PipelineStages.allCommands
  counter : ∀ d, p.counter = some d → d =
    { srcSubpass := 0, dstSubpass := 0
      srcStages := PipelineStages.transformFeedback, dstStages := PipelineStages.drawIndirect
      srcAccess := AccessFlags.transformFeedbackCounterWrite
      dstAccess := AccessFlags.transformFeedbackCounterRead
      flags := 0 }
  feedback_iff : p.feedback.isSome = true ↔
    Meets ops.barrier.srcStages PipelineStages.fragmentShader ∨
      Meets ops.barrier.srcStages PipelineStages.allGraphics ∨
      Meets ops.barrier.srcStages PipelineStages.allCommands
  feedback : ∀ d, p.feedback = some d → d =
    { srcSubpass := 0, dstSubpass := 0
      srcStages := PipelineStages.colorAttachmentOutput, dstStages := PipelineStages.fragmentShader
      srcAccess := AccessFlags.colorAttachmentWrite, dstAccess := AccessFlags.shaderRead
      flags := DependencyFlags.byRegion }
  caller_iff : p.caller.isSome = true ↔ ops.barrier.srcStages ≠ 0 ∧ ops.barrier.dstStages ≠ 0
  caller : ∀ d, p.caller = some d → d =
    { srcSubpass := 0, dstSubpass := subpassExternal
      srcStages := ops.barrier.srcStages, dstStages := ops.barrier.dstStages
      srcAccess := ops.barrier.srcAccess, dstAccess := ops.barrier.dstAccess
      flags := 0 }

section Conditions

variable {f : PassFormat} {ops : PassOps}

/-- A slot without an attachment has no aspects to load. -/
theorem hasDepth_of_meets_aspects {aspects : ImageAspects}
    (h : Meets aspects f.depth.format.aspects) : f.hasDepth = true := by
  rw [PassFormat.hasDepth, Format.isDefined, decide_eq_true_iff]
  rintro hUndefined
  rw [hUndefined] at h
  obtain ⟨bit, -, hBit⟩ := h
  exact Bool.false_ne_true ((Nat.zero_testBit bit).symm.trans hBit)

/-- The program masks what is loaded by the aspects of the format. -/
theorem meets_loadedAspects_iff :
    f.hasDepth = true ∧ intersects (loadedAspects ops.depth) f.depth.format.aspects = true ↔
      LoadsDepth f ops := by
  rw [intersects_iff, loadedAspects, meets_or_left, meets_bitsIf, meets_bitsIf,
    decide_eq_true_iff, decide_eq_true_iff]
  refine and_iff_right_of_imp fun hLoads => ?_
  obtain ⟨-, hMeets⟩ | ⟨-, hMeets⟩ := hLoads
  · exact hasDepth_of_meets_aspects hMeets
  · exact hasDepth_of_meets_aspects hMeets

/-- One slot that loads its old color is enough. -/
theorem loadsColor_iff : loadsColor f ops = true ↔ LoadsColor f ops := by
  rw [loadsColor, List.any_eq_true]
  constructor
  · rintro ⟨⟨color, colorOps⟩, hMem, hLoads⟩
    obtain ⟨slot, hAt⟩ := List.mem_iff_getElem?.1 hMem
    obtain ⟨hColor, hOps⟩ := List.getElem?_zip_eq_some.1 hAt
    rw [f.getElem?_color] at hColor
    rw [Bool.and_eq_true, decide_eq_true_iff] at hLoads
    exact ⟨slot, colorOps, (PassFormat.hasColor_eq hColor).trans hLoads.1, by simpa using hOps,
      hLoads.2⟩
  · rintro ⟨slot, colorOps, hSlot, hOps, hLoad⟩
    obtain ⟨color, hColor, hDefined⟩ := PassFormat.exists_color_of_hasColor hSlot
    rw [← f.getElem?_color] at hColor
    refine ⟨(color, colorOps), List.mem_iff_getElem?.2 ⟨slot, ?_⟩, by simp [hDefined, hLoad]⟩
    exact List.getElem?_zip_eq_some.2 ⟨hColor, by simpa using hOps⟩

theorem colorCount_ne_zero_iff : f.colorCount ≠ 0 ↔ ∃ slot, f.hasColor slot = true := by
  rw [← Nat.pos_iff_ne_zero, PassFormat.colorCount, List.countP_pos_iff]
  constructor
  · rintro ⟨color, hMem, hDefined⟩
    obtain ⟨slot, hColor⟩ := List.mem_iff_getElem?.1 hMem
    rw [f.getElem?_color] at hColor
    exact ⟨slot, (PassFormat.hasColor_eq hColor).trans hDefined⟩
  · rintro ⟨slot, hSlot⟩
    obtain ⟨color, hColor, hDefined⟩ := PassFormat.exists_color_of_hasColor hSlot
    rw [← f.getElem?_color] at hColor
    exact ⟨color, List.mem_of_getElem? hColor, hDefined⟩

end Conditions

section Render

variable (f : PassFormat) (ops : PassOps)

/-- The accesses of a pass, each with its reason. -/
theorem meets_renderAccess_iff {access : AccessFlags} : Meets (renderAccess f ops) access ↔
    LoadsDepth f ops ∧ Meets AccessFlags.depthStencilAttachmentRead access ∨
    (f.hasDepth = true ∧ f.depth.layout ≠ .depthStencilReadOnly) ∧
      Meets AccessFlags.depthStencilAttachmentWrite access ∨
    (f.hasDepth = true ∧ f.depth.layout ≠ .depthStencilAttachment) ∧
      Meets AccessFlags.shaderRead access ∨
    (∃ slot, f.hasColor slot = true) ∧ Meets AccessFlags.colorAttachmentWrite access ∨
    LoadsColor f ops ∧ Meets AccessFlags.colorAttachmentRead access := by
  simp only [renderAccess, meets_or_left, meets_bitsIf, meets_loadedAspects_iff, samplesDepth,
    Bool.and_eq_true, decide_eq_true_iff, colorCount_ne_zero_iff, loadsColor_iff, or_assoc]

/-- The stages of a pass, each with its reason. -/
theorem meets_renderStages_iff {stages : PipelineStages} : Meets (renderStages f) stages ↔
    f.hasDepth = true ∧
      Meets (PipelineStages.earlyFragmentTests ||| PipelineStages.lateFragmentTests) stages ∨
    (f.hasDepth = true ∧ f.depth.layout ≠ .depthStencilAttachment) ∧
      Meets PipelineStages.fragmentShader stages ∨
    (∃ slot, f.hasColor slot = true) ∧ Meets PipelineStages.colorAttachmentOutput stages := by
  simp only [renderStages, meets_or_left, meets_bitsIf, samplesDepth, Bool.and_eq_true,
    decide_eq_true_iff, colorCount_ne_zero_iff, or_assoc]

/-- A pass has a stage exactly if it has an attachment. -/
theorem renderStages_ne_zero_iff : renderStages f ≠ 0 ↔ f.HasAttachment := by
  have hStages : ∀ depth sampled color : Bool,
      bitsIf depth (PipelineStages.earlyFragmentTests ||| PipelineStages.lateFragmentTests) |||
        bitsIf (depth && sampled) PipelineStages.fragmentShader |||
        bitsIf color PipelineStages.colorAttachmentOutput ≠ 0 ↔ depth = true ∨ color = true := by
    decide
  rw [renderStages, samplesDepth, hStages, decide_eq_true_iff, colorCount_ne_zero_iff,
    PassFormat.HasAttachment]

/-- Each access of a pass comes with a reason for a stage that makes it. -/
theorem exists_stage_of_testBit_renderAccess {bit : Nat}
    (hBit : (renderAccess f ops).toNat.testBit bit = true) : ∃ entry ∈ attachmentAccesses,
      entry.1.toNat.testBit bit = true ∧ Meets (renderStages f) entry.2 := by
  simp only [renderAccess, UInt32.toNat_or, Nat.testBit_or, Bool.or_eq_true, testBit_bitsIf,
    samplesDepth, Bool.and_eq_true, decide_eq_true_iff, colorCount_ne_zero_iff, loadsColor_iff]
    at hBit
  simp only [meets_renderStages_iff, attachmentAccesses]
  obtain (((⟨⟨hDepth, -⟩, hRead⟩ | ⟨⟨hDepth, -⟩, hWrite⟩) | ⟨hSampled, hRead⟩) | ⟨hColor, hWrite⟩) |
    ⟨⟨slot, colorOps, hSlot, -⟩, hRead⟩ := hBit
  · exact ⟨_, .head _, hRead, .inl ⟨hDepth, by decide⟩⟩
  · exact ⟨_, .tail _ (.head _), hWrite, .inl ⟨hDepth, by decide⟩⟩
  · exact ⟨_, .tail _ (.tail _ (.head _)), hRead, .inr (.inl ⟨hSampled, by decide⟩)⟩
  · exact ⟨_, .tail _ (.tail _ (.tail _ (.head _))), hWrite, .inr (.inr ⟨hColor, by decide⟩)⟩
  · exact ⟨_, .tail _ (.tail _ (.tail _ (.tail _ (.head _)))), hRead,
      .inr (.inr ⟨⟨slot, hSlot⟩, by decide⟩)⟩

/-- What is waited for is what the attachments read and write. -/
theorem awaitsAttachments_renderDependency :
    (renderDependency f ops).AwaitsAttachments f ops where
  srcSubpass := rfl
  dstSubpass := rfl
  stages := rfl
  srcAccess := rfl
  flags := rfl
  depthRead := (meets_renderAccess_iff f ops).trans (by simp +decide)
  depthWrite := (meets_renderAccess_iff f ops).trans (by simp +decide)
  shaderRead := (meets_renderAccess_iff f ops).trans (by simp +decide)
  colorWrite := (meets_renderAccess_iff f ops).trans (by simp +decide)
  colorRead := (meets_renderAccess_iff f ops).trans (by simp +decide)
  backed _ hBit := exists_stage_of_testBit_renderAccess f ops hBit

end Render

section Parts

variable (f : PassFormat) (ops : PassOps)

/-- A dependency that is there under a condition. -/
def dependencyIf (condition : Bool) (d : SubpassDependency) : Option SubpassDependency :=
  if condition then some d else none

theorem isSome_dependencyIf {condition : Bool} {d : SubpassDependency} :
    (dependencyIf condition d).isSome = true ↔ condition = true := by
  cases condition <;> simp [dependencyIf]

theorem eq_of_dependencyIf {condition : Bool} {d other : SubpassDependency}
    (h : dependencyIf condition d = some other) : other = d := by
  cases condition with
  | false => cases h
  | true => exact (Option.some.inj h).symm

theorem toList_dependencyIf {condition : Bool} {d : SubpassDependency} :
    (dependencyIf condition d).toList = if condition then [d] else [] := by
  cases condition <;> rfl

/-- The dependencies of a pass with the conditions that the plan puts on them. -/
def dependencyParts : DependencyParts where
  render := dependencyIf (renderStages f ≠ 0) (renderDependency f ops)
  counter := dependencyIf
    (intersects ops.barrier.srcStages (PipelineStages.transformFeedback ||| wholePipeline))
    counterDependency
  feedback := dependencyIf
    (intersects ops.barrier.srcStages (PipelineStages.fragmentShader ||| wholePipeline))
    feedbackDependency
  caller := dependencyIf (ops.barrier.srcStages ≠ 0 && ops.barrier.dstStages ≠ 0)
    (callerDependency ops.barrier)

/-- The list holds the dependencies that are needed, in this order. -/
theorem dependencies_eq :
    (PassPlan.build f ops).dependencies = (dependencyParts f ops).toList := by
  simp only [PassPlan.build, dependencies, DependencyParts.toList, dependencyParts, toList_dependencyIf,
    decide_eq_true_iff]

/-- A barrier meets a stage also where it names the whole pipeline. -/
theorem intersects_wholePipeline_iff {stages stage : PipelineStages} :
    intersects stages (stage ||| wholePipeline) = true ↔ Meets stages stage ∨
      Meets stages PipelineStages.allGraphics ∨ Meets stages PipelineStages.allCommands := by
  rw [intersects_iff, wholePipeline, meets_or_right, meets_or_right]

/-- A pass has exactly the dependencies for which there is a reason, each at most once and in this
order: on what came before, between indirect draws, between regions, and for the caller. -/
theorem dependencies_required : ∃ parts : DependencyParts,
    (PassPlan.build f ops).dependencies = parts.toList ∧ parts.Required f ops := by
  refine ⟨dependencyParts f ops, dependencies_eq f ops, ?_⟩
  constructor
  case render_iff =>
    rw [dependencyParts, isSome_dependencyIf, decide_eq_true_iff, renderStages_ne_zero_iff]
  case render =>
    intro d hRender
    rw [eq_of_dependencyIf hRender]
    exact awaitsAttachments_renderDependency f ops
  case counter_iff => exact isSome_dependencyIf.trans intersects_wholePipeline_iff
  case counter => exact fun d hCounter => eq_of_dependencyIf hCounter
  case feedback_iff => exact isSome_dependencyIf.trans intersects_wholePipeline_iff
  case feedback => exact fun d hFeedback => eq_of_dependencyIf hFeedback
  case caller_iff =>
    rw [dependencyParts, isSome_dependencyIf, Bool.and_eq_true, decide_eq_true_iff,
      decide_eq_true_iff]
  case caller => exact fun d hCaller => eq_of_dependencyIf hCaller

end Parts

end ShaderBackend.Render
