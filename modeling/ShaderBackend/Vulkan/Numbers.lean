import ShaderBackend.Render.Operations
import ShaderBackend.Shader.DescriptorMapping
/-!
The numbers that Vulkan gives to formats, layouts, operations and descriptors. Bit sets need no
table: they have Vulkan's bits already.
-/
namespace ShaderBackend.Vulkan

open Render Shader

def formatNumber : Format → UInt32
  | .undefined => 0
  | .r8Unorm => 9
  | .r8g8Unorm => 16
  | .r8g8b8a8Srgb => 43
  | .r8g8b8a8Unorm => 37
  | .b8g8r8a8Srgb => 50
  | .b8g8r8a8Unorm => 44
  | .a2b10g10r10Unorm => 64
  | .b10g11r11Ufloat => 122
  | .r16g16b16a16Sfloat => 97
  | .r32Sfloat => 100
  | .r32g32Sfloat => 103
  | .r32g32b32a32Sfloat => 109
  | .r32Uint => 98
  | .d16Unorm => 124
  | .d32Float => 126
  | .s8Uint => 127
  | .d24UnormS8Uint => 129
  | .d32FloatS8Uint => 130

def layoutNumber : ImageLayout → UInt32
  | .undefined => 0
  | .general => 1
  | .colorAttachment => 2
  | .depthStencilAttachment => 3
  | .depthStencilReadOnly => 4
  | .shaderReadOnly => 5
  | .transferSrc => 6
  | .transferDst => 7
  | .presentSrc => 1000001002

def sampleCountNumber (s : SampleCount) : UInt32 := s.count

def loadOpNumber : LoadOp → UInt32
  | .load => 0
  | .clear => 1
  | .dontCare => 2

def storeOpNumber : StoreOp → UInt32
  | .store => 0
  | .dontCare => 1

def descriptorTypeNumber : DescriptorType → UInt32
  | .sampler => 0
  | .combinedImageSampler => 1
  | .sampledImage => 2
  | .storageImage => 3
  | .uniformTexelBuffer => 4
  | .storageTexelBuffer => 5
  | .uniformBuffer => 6
  | .storageBuffer => 7
  | .uniformBufferDynamic => 8
  | .storageBufferDynamic => 9

def imageViewTypeNumber : ImageViewType → UInt32
  | .image1D => 0
  | .image2D => 1
  | .image3D => 2
  | .cube => 3
  | .image1DArray => 4
  | .image2DArray => 5
  | .cubeArray => 6

/-- The bit of a stage. -/
def stageNumber : Stage → UInt32
  | .vertex => 0x01
  | .tessControl => 0x02
  | .tessEval => 0x04
  | .geometry => 0x08
  | .fragment => 0x10
  | .compute => 0x20

/-- How a stage of a pipeline names its module. -/
structure StageInfo where
  stage : UInt32
  handle : UInt64
  /-- Name of the entry point. -/
  entryPoint : String
  deriving DecidableEq, Repr

/-- Every module starts at its main entry point. -/
def StageInfo.ofStage (handle : UInt64) (stage : Stage) : StageInfo :=
  ⟨stageNumber stage, handle, "main"⟩

end ShaderBackend.Vulkan
