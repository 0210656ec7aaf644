/-!
Bit sets of pipeline stages, memory accesses, image aspects and dependencies. The bits are those of
Vulkan; bits that have no name here are kept.
-/
namespace ShaderBackend.Render

abbrev PipelineStages := UInt32

namespace PipelineStages
def drawIndirect : PipelineStages := 0x00000002
def fragmentShader : PipelineStages := 0x00000080
def earlyFragmentTests : PipelineStages := 0x00000100
def lateFragmentTests : PipelineStages := 0x00000200
def colorAttachmentOutput : PipelineStages := 0x00000400
def allGraphics : PipelineStages := 0x00008000
def allCommands : PipelineStages := 0x00010000
def transformFeedback : PipelineStages := 0x01000000
end PipelineStages

abbrev AccessFlags := UInt32

namespace AccessFlags
def shaderRead : AccessFlags := 0x00000020
def colorAttachmentRead : AccessFlags := 0x00000080
def colorAttachmentWrite : AccessFlags := 0x00000100
def depthStencilAttachmentRead : AccessFlags := 0x00000200
def depthStencilAttachmentWrite : AccessFlags := 0x00000400
def transformFeedbackCounterRead : AccessFlags := 0x04000000
def transformFeedbackCounterWrite : AccessFlags := 0x08000000
end AccessFlags

abbrev ImageAspects := UInt32

namespace ImageAspects
def color : ImageAspects := 1
def depth : ImageAspects := 2
def stencil : ImageAspects := 4
end ImageAspects

abbrev DependencyFlags := UInt32

namespace DependencyFlags
def byRegion : DependencyFlags := 1
end DependencyFlags

/-- Whether two bit sets share a bit. -/
def intersects (a b : UInt32) : Bool := a &&& b != 0

end ShaderBackend.Render
