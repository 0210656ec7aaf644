import ShaderBackend.Render.Operations
/-!
Description of a render pass with one subpass. Attachments are numbered without gaps, colors in the
order of their slots and depth last; references keep the slots. Dependencies say what the pass waits
for and what waits for it.
-/
namespace ShaderBackend.Render

/-- The subpass number that stands for everything outside the pass. -/
def subpassExternal : UInt32 := 0xffffffff

structure AttachmentDescription where
  format : Format
  samples : SampleCount
  load : LoadOp
  store : StoreOp
  stencilLoad : LoadOp
  stencilStore : StoreOp
  initialLayout : ImageLayout
  finalLayout : ImageLayout
  deriving DecidableEq, Repr

/-- An attachment by its number, and its layout during the pass. -/
structure AttachmentReference where
  attachment : UInt32
  layout : ImageLayout
  deriving DecidableEq, Repr

structure SubpassDependency where
  srcSubpass : UInt32
  dstSubpass : UInt32
  srcStages : PipelineStages
  dstStages : PipelineStages
  srcAccess : AccessFlags
  dstAccess : AccessFlags
  flags : DependencyFlags
  deriving DecidableEq, Repr

/-- The numbers in the order of their fields. -/
def SubpassDependency.toList (d : SubpassDependency) : List UInt32 :=
  [d.srcSubpass, d.dstSubpass, d.srcStages, d.dstStages, d.srcAccess, d.dstAccess, d.flags]

/-- What a render pass consists of. -/
structure PassPlan where
  attachments : List AttachmentDescription
  /-- One entry per color slot. -/
  colorRefs : List (Option AttachmentReference)
  depthRef : Option AttachmentReference
  dependencies : List SubpassDependency
  deriving DecidableEq, Repr

/-- A color attachment is always stored; it has no stencil. -/
def colorAttachment (samples : SampleCount) (slot : AttachmentFormat) (ops : ColorOps) :
    AttachmentDescription where
  format := slot.format
  samples := samples
  load := ops.load
  store := .store
  stencilLoad := .dontCare
  stencilStore := .dontCare
  initialLayout := ops.loadLayout
  finalLayout := ops.storeLayout

/-- Depth and stencil are always stored. -/
def depthAttachment (samples : SampleCount) (slot : AttachmentFormat) (ops : DepthOps) :
    AttachmentDescription where
  format := slot.format
  samples := samples
  load := ops.loadDepth
  store := .store
  stencilLoad := ops.loadStencil
  stencilStore := .store
  initialLayout := ops.loadLayout
  finalLayout := ops.storeLayout

/-- Numbers the defined slots one after the other, starting with `next`. -/
def numberSlots : UInt32 → List AttachmentFormat → List (Option AttachmentReference)
  | _, [] => []
  | next, slot :: rest =>
    if slot.format.isDefined then some ⟨next, slot.layout⟩ :: numberSlots (next + 1) rest
    else none :: numberSlots next rest

/-- Attachments of the defined color slots. -/
def colorAttachments (f : PassFormat) (ops : PassOps) : List AttachmentDescription :=
  ((f.color.toList.zip ops.color.toList).filter (·.1.format.isDefined)).map fun (slot, slotOps) =>
    colorAttachment f.samples slot slotOps

/-- Keeps a bit set under a condition. -/
def bitsIf (condition : Bool) (bits : UInt32) : UInt32 := if condition then bits else 0

/-- Aspects that are loaded. -/
def loadedAspects (ops : DepthOps) : ImageAspects :=
  bitsIf (ops.loadDepth = .load) ImageAspects.depth
    ||| bitsIf (ops.loadStencil = .load) ImageAspects.stencil

/-- Depth that is not in the plain attachment layout may be sampled during the pass. -/
def samplesDepth (f : PassFormat) : Bool :=
  f.hasDepth && f.depth.layout ≠ .depthStencilAttachment

/-- Whether some defined color slot is loaded. -/
def loadsColor (f : PassFormat) (ops : PassOps) : Bool :=
  (f.color.toList.zip ops.color.toList).any fun (slot, slotOps) =>
    slot.format.isDefined && slotOps.load = .load

/-- Stages in which the pass touches its attachments. -/
def renderStages (f : PassFormat) : PipelineStages :=
  bitsIf f.hasDepth (PipelineStages.earlyFragmentTests ||| PipelineStages.lateFragmentTests)
    ||| bitsIf (samplesDepth f) PipelineStages.fragmentShader
    ||| bitsIf (f.colorCount ≠ 0) PipelineStages.colorAttachmentOutput

/-- Accesses that the pass makes to its attachments. -/
def renderAccess (f : PassFormat) (ops : PassOps) : AccessFlags :=
  bitsIf (f.hasDepth && intersects (loadedAspects ops.depth) f.depth.format.aspects)
      AccessFlags.depthStencilAttachmentRead
    ||| bitsIf (f.hasDepth && f.depth.layout ≠ .depthStencilReadOnly)
      AccessFlags.depthStencilAttachmentWrite
    ||| bitsIf (samplesDepth f) AccessFlags.shaderRead
    ||| bitsIf (f.colorCount ≠ 0) AccessFlags.colorAttachmentWrite
    ||| bitsIf (loadsColor f ops) AccessFlags.colorAttachmentRead

/-- Attachments are touched only after what came before the pass. -/
def renderDependency (f : PassFormat) (ops : PassOps) : SubpassDependency where
  srcSubpass := subpassExternal
  dstSubpass := 0
  srcStages := renderStages f
  dstStages := renderStages f
  srcAccess := 0
  dstAccess := renderAccess f ops
  flags := 0

/-- Counters of transform feedback are read by indirect draws of the same pass. -/
def counterDependency : SubpassDependency where
  srcSubpass := 0
  dstSubpass := 0
  srcStages := PipelineStages.transformFeedback
  dstStages := PipelineStages.drawIndirect
  srcAccess := AccessFlags.transformFeedbackCounterWrite
  dstAccess := AccessFlags.transformFeedbackCounterRead
  flags := 0

/-- Colors written in a region are read by shaders in the same region. -/
def feedbackDependency : SubpassDependency where
  srcSubpass := 0
  dstSubpass := 0
  srcStages := PipelineStages.colorAttachmentOutput
  dstStages := PipelineStages.fragmentShader
  srcAccess := AccessFlags.colorAttachmentWrite
  dstAccess := AccessFlags.shaderRead
  flags := DependencyFlags.byRegion

/-- What the caller named waits for the pass. -/
def callerDependency (b : Barrier) : SubpassDependency where
  srcSubpass := 0
  dstSubpass := subpassExternal
  srcStages := b.srcStages
  dstStages := b.dstStages
  srcAccess := b.srcAccess
  dstAccess := b.dstAccess
  flags := 0

/-- Stages that include every other graphics stage. -/
def wholePipeline : PipelineStages := PipelineStages.allGraphics ||| PipelineStages.allCommands

/-- The dependencies of a pass, at most four. -/
def dependencies (f : PassFormat) (ops : PassOps) : List SubpassDependency :=
  (if renderStages f ≠ 0 then [renderDependency f ops] else []) ++
  (if intersects ops.barrier.srcStages (PipelineStages.transformFeedback ||| wholePipeline) then
    [counterDependency] else []) ++
  (if intersects ops.barrier.srcStages (PipelineStages.fragmentShader ||| wholePipeline) then
    [feedbackDependency] else []) ++
  (if ops.barrier.srcStages ≠ 0 && ops.barrier.dstStages ≠ 0 then
    [callerDependency ops.barrier] else [])

namespace PassPlan

def build (f : PassFormat) (ops : PassOps) : PassPlan where
  attachments := colorAttachments f ops ++
    (if f.hasDepth then [depthAttachment f.samples f.depth ops.depth] else [])
  colorRefs := numberSlots 0 f.color.toList
  depthRef :=
    if f.hasDepth then some ⟨UInt32.ofNat f.colorCount, f.depth.layout⟩ else none
  dependencies := Render.dependencies f ops

/-- Number of color slots with an attachment. -/
def colorCount (plan : PassPlan) : Nat := plan.colorRefs.countP (·.isSome)

end PassPlan
end ShaderBackend.Render
