import ShaderBackend.Render.Plan
import ShaderBackend.Vulkan.Numbers
/-!
A render pass in the numbers of Vulkan. Every color slot has a reference; one without an attachment
refers to a number that stands for none, and such references at the end are left out of the subpass.
-/
namespace ShaderBackend.Vulkan

open Render

/-- The attachment number that stands for none. -/
def attachmentUnused : UInt32 := 0xffffffff

/-- The subpass number that stands for everything outside the pass. -/
def subpassOutside : UInt32 := 0xffffffff

structure AttachmentNumbers where
  flags : UInt32 := 0
  format : UInt32
  samples : UInt32
  loadOp : UInt32
  storeOp : UInt32
  stencilLoadOp : UInt32
  stencilStoreOp : UInt32
  initialLayout : UInt32
  finalLayout : UInt32
  deriving DecidableEq, Repr

structure ReferenceNumbers where
  attachment : UInt32
  layout : UInt32
  deriving DecidableEq, Repr

structure DependencyNumbers where
  srcSubpass : UInt32
  dstSubpass : UInt32
  srcStageMask : UInt32
  dstStageMask : UInt32
  srcAccessMask : UInt32
  dstAccessMask : UInt32
  dependencyFlags : UInt32
  deriving DecidableEq, Repr

/-- The numbers in the order of their fields. -/
def AttachmentNumbers.toList (a : AttachmentNumbers) : List UInt32 :=
  [a.flags, a.format, a.samples, a.loadOp, a.storeOp, a.stencilLoadOp, a.stencilStoreOp,
    a.initialLayout, a.finalLayout]

def ReferenceNumbers.toList (r : ReferenceNumbers) : List UInt32 := [r.attachment, r.layout]

def DependencyNumbers.toList (d : DependencyNumbers) : List UInt32 :=
  [d.srcSubpass, d.dstSubpass, d.srcStageMask, d.dstStageMask, d.srcAccessMask, d.dstAccessMask,
    d.dependencyFlags]

def AttachmentNumbers.ofDescription (a : AttachmentDescription) : AttachmentNumbers where
  format := formatNumber a.format
  samples := sampleCountNumber a.samples
  loadOp := loadOpNumber a.load
  storeOp := storeOpNumber a.store
  stencilLoadOp := loadOpNumber a.stencilLoad
  stencilStoreOp := storeOpNumber a.stencilStore
  initialLayout := layoutNumber a.initialLayout
  finalLayout := layoutNumber a.finalLayout

def ReferenceNumbers.ofReference (r : AttachmentReference) : ReferenceNumbers :=
  ⟨r.attachment, layoutNumber r.layout⟩

/-- The reference of a slot without an attachment. -/
def ReferenceNumbers.unused : ReferenceNumbers := ⟨attachmentUnused, layoutNumber .undefined⟩

def subpassNumber (subpass : UInt32) : UInt32 :=
  if subpass = subpassExternal then subpassOutside else subpass

def DependencyNumbers.ofDependency (d : SubpassDependency) : DependencyNumbers where
  srcSubpass := subpassNumber d.srcSubpass
  dstSubpass := subpassNumber d.dstSubpass
  srcStageMask := d.srcStages
  dstStageMask := d.dstStages
  srcAccessMask := d.srcAccess
  dstAccessMask := d.dstAccess
  dependencyFlags := d.flags

structure PassDescription where
  attachments : List AttachmentNumbers
  /-- One reference per color slot. -/
  colorRefs : List ReferenceNumbers
  depthRef : Option ReferenceNumbers
  dependencies : List DependencyNumbers
  deriving DecidableEq, Repr

namespace PassDescription

def ofPlan (plan : PassPlan) : PassDescription where
  attachments := plan.attachments.map .ofDescription
  colorRefs := plan.colorRefs.map fun r => (r.map .ofReference).getD .unused
  depthRef := plan.depthRef.map .ofReference
  dependencies := plan.dependencies.map .ofDependency

/-- The color references up to the last slot with an attachment. -/
def trimmedColorRefs (d : PassDescription) : List ReferenceNumbers :=
  (d.colorRefs.reverse.dropWhile (·.attachment = attachmentUnused)).reverse

end PassDescription
end ShaderBackend.Vulkan
