import ShaderBackend.Render.Flags
import ShaderBackend.Shader.Stage
/-!
Resource slots of all shaders of a pipeline. The order of first registration decides the binding id
of a slot. Later registrations widen the stages and accesses of the binding and nothing else.
-/
namespace ShaderBackend.Shader

inductive DescriptorType where
  | sampler
  | combinedImageSampler
  | sampledImage
  | storageImage
  | uniformTexelBuffer
  | storageTexelBuffer
  | uniformBuffer
  | storageBuffer
  | uniformBufferDynamic
  | storageBufferDynamic
  deriving DecidableEq, Repr

namespace DescriptorType

def all : List DescriptorType :=
  [sampler, combinedImageSampler, sampledImage, storageImage, uniformTexelBuffer,
   storageTexelBuffer, uniformBuffer, storageBuffer, uniformBufferDynamic, storageBufferDynamic]

/-- The name as diagnostics show it. -/
def title : DescriptorType → String
  | sampler => "Sampler"
  | combinedImageSampler => "CombinedImageSampler"
  | sampledImage => "SampledImage"
  | storageImage => "StorageImage"
  | uniformTexelBuffer => "UniformTexelBuffer"
  | storageTexelBuffer => "StorageTexelBuffer"
  | uniformBuffer => "UniformBuffer"
  | storageBuffer => "StorageBuffer"
  | uniformBufferDynamic => "UniformBufferDynamic"
  | storageBufferDynamic => "StorageBufferDynamic"

end DescriptorType

/-- Shape of the view that an image slot expects. -/
inductive ImageViewType where
  | image1D
  | image2D
  | image3D
  | cube
  | image1DArray
  | image2DArray
  | cubeArray
  deriving DecidableEq, Repr

namespace ImageViewType

def all : List ImageViewType :=
  [image1D, image2D, image3D, cube, image1DArray, image2DArray, cubeArray]

/-- The name as diagnostics show it. -/
def title : ImageViewType → String
  | image1D => "Image1D"
  | image2D => "Image2D"
  | image3D => "Image3D"
  | cube => "Cube"
  | image1DArray => "Image1DArray"
  | image2DArray => "Image2DArray"
  | cubeArray => "CubeArray"

end ImageViewType

/-- A slot as one shader declares it. -/
structure ResourceSlot where
  slot : UInt32
  descriptorType : DescriptorType
  /-- Only image slots have one. -/
  viewType : Option ImageViewType := none
  access : Render.AccessFlags := Render.AccessFlags.shaderRead
  deriving DecidableEq, Repr

/-- A slot with the stages and accesses of every shader that declares it. -/
structure DescriptorBinding where
  slot : UInt32
  descriptorType : DescriptorType
  viewType : Option ImageViewType
  stages : StageSet
  access : Render.AccessFlags
  deriving DecidableEq, Repr

/-- A range of push constants in bytes, and the stages that read it. -/
structure PushConstRange where
  offset : UInt32
  size : UInt32
  stages : StageSet
  deriving DecidableEq, Repr

/-- The sum, or the last number if the sum is above it. -/
def clampedAdd (a b : UInt32) : UInt32 :=
  if a.toNat + b.toNat < UInt32.size then a + b else 0xffffffff

namespace PushConstRange

/-- End of the range, at most the end of the address space. -/
def stop (r : PushConstRange) : UInt32 := clampedAdd r.offset r.size

/-- The least range that holds both, up to the end of the address space. -/
def hull (r s : PushConstRange) : PushConstRange where
  offset := min r.offset s.offset
  size := max r.stop s.stop - min r.offset s.offset
  stages := r.stages ||| s.stages

end PushConstRange

structure DescriptorMapping where
  /-- The bindings in the order of their ids. -/
  bindings : List DescriptorBinding := []
  pushConst : Option PushConstRange := none
  deriving DecidableEq, Repr

namespace DescriptorMapping

/-- Adds a declaration to the bindings: to the one of its slot, or as a new one at the end. -/
def merge (stage : Stage) (slot : ResourceSlot) : List DescriptorBinding → List DescriptorBinding
  | [] => [{ slot := slot.slot, descriptorType := slot.descriptorType, viewType := slot.viewType,
             stages := stage.flag, access := slot.access }]
  | binding :: rest =>
    if binding.slot = slot.slot then
      { binding with stages := binding.stages ||| stage.flag
                     access := binding.access ||| slot.access } :: rest
    else binding :: merge stage slot rest

def declare (m : DescriptorMapping) (stage : Stage) (slot : ResourceSlot) : DescriptorMapping :=
  { m with bindings := merge stage slot m.bindings }

/-- Widens the push constant range; the first range is kept as it is given. -/
def declarePushConst (m : DescriptorMapping) (stage : Stage) (offset size : UInt32) :
    DescriptorMapping :=
  let range : PushConstRange := { offset, size, stages := stage.flag }
  { m with pushConst := some (match m.pushConst with
      | none => range
      | some known => known.hull range) }

/-- Binding id of a slot, `none` if no shader declared it. -/
def idOf? (m : DescriptorMapping) (slot : UInt32) : Option UInt32 :=
  (m.bindings.findIdx? (·.slot = slot)).map UInt32.ofNat

def count (m : DescriptorMapping) : UInt32 := UInt32.ofNat m.bindings.length

end DescriptorMapping
end ShaderBackend.Shader
