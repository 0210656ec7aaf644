import ShaderBackend.OrderedMap
import ShaderBackend.Spirv.Numbers
import ShaderBackend.Spirv.Code
/-!
What one reading of a template finds out about it: the operands that specialization may change, and
the traits that its modes and capabilities declare.
-/
namespace ShaderBackend.Spirv

/-- What an operand that may change stands for. -/
inductive SiteKind where
  /-- The literal of a binding decoration. -/
  | bindingId
  /-- The literal of a specialization constant decoration. -/
  | specConstantId
  /-- The location literal of the second blend output. -/
  | outputLocation1
  /-- The index literal of the same output. -/
  | outputIndex1
  deriving DecidableEq, Repr

namespace SiteKind

def all : List SiteKind :=
  [bindingId, specConstantId, outputLocation1, outputIndex1]

/-- The name as diagnostics show it. -/
def title : SiteKind → String
  | bindingId => "BindingId"
  | specConstantId => "SpecConstantId"
  | outputLocation1 => "OutputLocation1"
  | outputIndex1 => "OutputIndex1"

end SiteKind

/-- One operand that may change, by its offset. -/
structure Site where
  kind : SiteKind
  offset : Nat
  deriving DecidableEq, Repr

/-- Traits of a shader that its modes and capabilities declare. -/
structure Traits where
  exportsStencilRef : Bool := false
  hasTransformFeedback : Bool := false
  hasSampleRateShading : Bool := false
  exportsViewportIndex : Bool := false
  deriving DecidableEq, Repr

/-- The traits as a bit set, the first in the lowest bit. -/
def Traits.bits (t : Traits) : UInt32 :=
  t.exportsStencilRef.toUInt32 ||| (t.hasTransformFeedback.toUInt32 <<< 1)
    ||| (t.hasSampleRateShading.toUInt32 <<< 2) ||| (t.exportsViewportIndex.toUInt32 <<< 3)

structure Survey where
  sites : List Site
  traits : Traits
  deriving DecidableEq, Repr

namespace Instruction

/-- Whether the instruction decorates some id with this decoration. -/
def decorates (ins : Instruction) (decoration : UInt32) : Bool :=
  ins.is Op.decorate && ins.arg 2 == decoration

/-- Offset of the literal of a decoration: the word after target and decoration. -/
def decorationLiteral (ins : Instruction) : Nat := ins.offset + 3

/-- The site in a binding or specialization constant decoration. -/
def site? (ins : Instruction) : Option Site :=
  if ins.decorates Decoration.binding then some ⟨.bindingId, ins.decorationLiteral⟩
  else if ins.decorates Decoration.specId then some ⟨.specConstantId, ins.decorationLiteral⟩
  else none

/-- Target and literal offset of a decoration with location one. -/
def locationOne? (ins : Instruction) : Option (UInt32 × Nat) :=
  if ins.decorates Decoration.location && ins.arg 3 == 1 then
    some (ins.arg 1, ins.decorationLiteral)
  else none

/-- Target and literal offset of an index decoration. -/
def blendIndex? (ins : Instruction) : Option (UInt32 × Nat) :=
  if ins.decorates Decoration.index then some (ins.arg 1, ins.decorationLiteral) else none

def declaresMode (mode : UInt32) (ins : Instruction) : Bool :=
  ins.is Op.executionMode && ins.arg 2 == mode

def declaresCapability (capability : UInt32) (ins : Instruction) : Bool :=
  ins.is Op.capability && ins.arg 1 == capability

end Instruction

/-- Literals of the output at location one that takes part in dual-source blending: of the ids
with both decorations, the one whose location comes first, with its last decorations. Inputs can
stand at location one too, but only an output has an index. -/
def secondBlendOutput? (stream : List Instruction) : Option (Nat × Nat) :=
  let locations := OrderedMap.ofList (stream.filterMap Instruction.locationOne?)
  let indices := OrderedMap.ofList (stream.filterMap Instruction.blendIndex?)
  locations.entries.findSome? fun (id, location) =>
    (indices.get? id).map fun index => (location, index)

def Traits.ofInstructions (stream : List Instruction) : Traits where
  exportsStencilRef := stream.any (·.declaresMode ExecutionMode.stencilRefReplacing)
  hasTransformFeedback := stream.any (·.declaresMode ExecutionMode.transformFeedback)
  hasSampleRateShading := stream.any (·.declaresCapability Capability.sampleRateShading)
  exportsViewportIndex := stream.any (·.declaresCapability Capability.shaderViewportIndexLayer)

namespace Survey

/-- Reads a template once. The two sites of the second blend output come last. -/
def ofCode (code : Code) : Survey where
  sites := code.instructions.filterMap Instruction.site? ++
    match secondBlendOutput? code.instructions with
    | some (location, index) => [⟨.outputLocation1, location⟩, ⟨.outputIndex1, index⟩]
    | none => []
  traits := .ofInstructions code.instructions

/-- Offsets of all binding and specialization constant ids, in stream order. -/
def slotOffsets (s : Survey) : List Nat :=
  (s.sites.filter fun site => site.kind = .bindingId || site.kind = .specConstantId).map (·.offset)

/-- Offset of the first site of a kind. -/
def offset? (s : Survey) (kind : SiteKind) : Option Nat :=
  (s.sites.find? (·.kind = kind)).map (·.offset)

end Survey
end ShaderBackend.Spirv
