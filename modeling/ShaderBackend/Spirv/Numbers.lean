/-!
The numbers of the SPIR-V instructions, decorations, storage classes, execution modes and
capabilities that specialization looks at.
-/
namespace ShaderBackend.Spirv

namespace Op
def entryPoint : UInt32 := 15
def executionMode : UInt32 := 16
def capability : UInt32 := 17
def typeInt : UInt32 := 21
def typeFloat : UInt32 := 22
def typeVector : UInt32 := 23
def typeArray : UInt32 := 28
def typePointer : UInt32 := 32
def constant : UInt32 := 43
def constantComposite : UInt32 := 44
def declareVariable : UInt32 := 59
def accessChain : UInt32 := 65
def inBoundsAccessChain : UInt32 := 66
def decorate : UInt32 := 71
end Op

namespace Decoration
def specId : UInt32 := 1
def location : UInt32 := 30
def index : UInt32 := 32
def binding : UInt32 := 33
end Decoration

namespace Storage
def input : UInt32 := 1
def privateClass : UInt32 := 6
end Storage

namespace ExecutionMode
def transformFeedback : UInt32 := 11
def stencilRefReplacing : UInt32 := 5027
end ExecutionMode

namespace Capability
def sampleRateShading : UInt32 := 35
def shaderViewportIndexLayer : UInt32 := 5254
end Capability

end ShaderBackend.Spirv
