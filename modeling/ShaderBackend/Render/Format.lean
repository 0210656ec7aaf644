import ShaderBackend.Render.Flags
/-! Attachment formats and layouts, and the format of a render pass. -/
namespace ShaderBackend.Render

/-- Number of color slots of a render pass. -/
def colorSlots : Nat := 8

/-- Pixel format of an attachment; `undefined` means that the slot has no attachment. -/
inductive Format where
  | undefined
  | r8Unorm
  | r8g8Unorm
  | r8g8b8a8Srgb
  | r8g8b8a8Unorm
  | b8g8r8a8Srgb
  | b8g8r8a8Unorm
  | a2b10g10r10Unorm
  | b10g11r11Ufloat
  | r16g16b16a16Sfloat
  | r32Sfloat
  | r32g32Sfloat
  | r32g32b32a32Sfloat
  | r32Uint
  | d16Unorm
  | d32Float
  | s8Uint
  | d24UnormS8Uint
  | d32FloatS8Uint
  deriving DecidableEq, Repr

namespace Format

/-- All formats in the order of their declaration. -/
def all : List Format :=
  [undefined, r8Unorm, r8g8Unorm, r8g8b8a8Srgb, r8g8b8a8Unorm, b8g8r8a8Srgb, b8g8r8a8Unorm,
   a2b10g10r10Unorm, b10g11r11Ufloat, r16g16b16a16Sfloat, r32Sfloat, r32g32Sfloat,
   r32g32b32a32Sfloat, r32Uint, d16Unorm, d32Float, s8Uint, d24UnormS8Uint, d32FloatS8Uint]

/-- The name by components, widths and numeric type. -/
def name : Format → String
  | undefined => "UNDEFINED"
  | r8Unorm => "R8_UNORM"
  | r8g8Unorm => "R8G8_UNORM"
  | r8g8b8a8Srgb => "R8G8B8A8_SRGB"
  | r8g8b8a8Unorm => "R8G8B8A8_UNORM"
  | b8g8r8a8Srgb => "B8G8R8A8_SRGB"
  | b8g8r8a8Unorm => "B8G8R8A8_UNORM"
  | a2b10g10r10Unorm => "A2B10G10R10_UNORM"
  | b10g11r11Ufloat => "B10G11R11_UFLOAT"
  | r16g16b16a16Sfloat => "R16G16B16A16_SFLOAT"
  | r32Sfloat => "R32_SFLOAT"
  | r32g32Sfloat => "R32G32_SFLOAT"
  | r32g32b32a32Sfloat => "R32G32B32A32_SFLOAT"
  | r32Uint => "R32_UINT"
  | d16Unorm => "D16_UNORM"
  | d32Float => "D32_FLOAT"
  | s8Uint => "S8_UINT"
  | d24UnormS8Uint => "D24_UNORM_S8_UINT"
  | d32FloatS8Uint => "D32_FLOAT_S8_UINT"

/-- The aspects of an image in this format. -/
def aspects : Format → ImageAspects
  | undefined => 0
  | d16Unorm | d32Float => ImageAspects.depth
  | s8Uint => ImageAspects.stencil
  | d24UnormS8Uint | d32FloatS8Uint => ImageAspects.depth ||| ImageAspects.stencil
  | _ => ImageAspects.color

def isDefined (f : Format) : Bool := f ≠ undefined

def isDepthStencil (f : Format) : Bool :=
  intersects f.aspects (ImageAspects.depth ||| ImageAspects.stencil)

end Format

/-- How the memory of an image is arranged. -/
inductive ImageLayout where
  /-- The contents may be discarded. -/
  | undefined
  | general
  | colorAttachment
  | depthStencilAttachment
  | depthStencilReadOnly
  | shaderReadOnly
  | transferSrc
  | transferDst
  | presentSrc
  deriving DecidableEq, Repr

namespace ImageLayout

def all : List ImageLayout :=
  [undefined, general, colorAttachment, depthStencilAttachment, depthStencilReadOnly,
   shaderReadOnly, transferSrc, transferDst, presentSrc]

/-- The name as diagnostics show it. -/
def title : ImageLayout → String
  | undefined => "Undefined"
  | general => "General"
  | colorAttachment => "ColorAttachment"
  | depthStencilAttachment => "DepthStencilAttachment"
  | depthStencilReadOnly => "DepthStencilReadOnly"
  | shaderReadOnly => "ShaderReadOnly"
  | transferSrc => "TransferSrc"
  | transferDst => "TransferDst"
  | presentSrc => "PresentSrc"

end ImageLayout

/-- Samples per pixel of every attachment of a pass. -/
inductive SampleCount where
  | s1
  | s2
  | s4
  | s8
  | s16
  | s32
  | s64
  deriving DecidableEq, Repr

namespace SampleCount

def all : List SampleCount := [s1, s2, s4, s8, s16, s32, s64]

def count : SampleCount → UInt32
  | s1 => 1
  | s2 => 2
  | s4 => 4
  | s8 => 8
  | s16 => 16
  | s32 => 32
  | s64 => 64

/-- The name as diagnostics show it. -/
def title (s : SampleCount) : String := s!"S{s.count}"

end SampleCount

/-- Format and layout of one slot. -/
structure AttachmentFormat where
  format : Format := .undefined
  layout : ImageLayout := .undefined
  deriving DecidableEq, Repr

/-- What makes two render passes compatible. The order of the color slots matters. -/
structure PassFormat where
  samples : SampleCount := .s1
  depth : AttachmentFormat := {}
  color : Vector AttachmentFormat colorSlots := Vector.replicate colorSlots {}
  deriving DecidableEq, Repr

namespace PassFormat

/-- Whether a slot has an attachment. There is none past the last slot. -/
def hasColor (f : PassFormat) (slot : Nat) : Bool :=
  (f.color[slot]?.map (·.format.isDefined)).getD false

def hasDepth (f : PassFormat) : Bool := f.depth.format.isDefined

/-- Number of color slots with an attachment. -/
def colorCount (f : PassFormat) : Nat := f.color.toList.countP (·.format.isDefined)

end PassFormat
end ShaderBackend.Render
