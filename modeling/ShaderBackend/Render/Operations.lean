import ShaderBackend.Render.Format
/-!
What may differ between compatible render passes: how attachments are loaded, their layouts before
and after, and what has to wait for the pass.
-/
namespace ShaderBackend.Render

inductive LoadOp where
  | load
  | clear
  | dontCare
  deriving DecidableEq, Repr

namespace LoadOp

def all : List LoadOp := [load, clear, dontCare]

/-- The name as diagnostics show it. -/
def title : LoadOp → String
  | load => "Load"
  | clear => "Clear"
  | dontCare => "DontCare"

end LoadOp

inductive StoreOp where
  | store
  | dontCare
  deriving DecidableEq, Repr

namespace StoreOp

def all : List StoreOp := [store, dontCare]

/-- The name as diagnostics show it. -/
def title : StoreOp → String
  | store => "Store"
  | dontCare => "DontCare"

end StoreOp

/-- Load operation of a color attachment, and its layouts before and after the pass. -/
structure ColorOps where
  load : LoadOp := .load
  loadLayout : ImageLayout := .undefined
  storeLayout : ImageLayout := .undefined
  deriving DecidableEq, Repr

/-- The same for depth and stencil, which are loaded apart. -/
structure DepthOps where
  loadDepth : LoadOp := .load
  loadStencil : LoadOp := .load
  loadLayout : ImageLayout := .undefined
  storeLayout : ImageLayout := .undefined
  deriving DecidableEq, Repr

/-- What the caller synchronizes with after the pass. -/
structure Barrier where
  srcStages : PipelineStages := 0
  srcAccess : AccessFlags := 0
  dstStages : PipelineStages := 0
  dstAccess : AccessFlags := 0
  deriving DecidableEq, Repr

/-- The bit sets in the order of their fields. -/
def Barrier.toList (b : Barrier) : List UInt32 :=
  [b.srcStages, b.srcAccess, b.dstStages, b.dstAccess]

structure PassOps where
  barrier : Barrier := {}
  depth : DepthOps := {}
  color : Vector ColorOps colorSlots := Vector.replicate colorSlots {}
  deriving DecidableEq, Repr

/-- Operations that keep contents and layout of every attachment. -/
def PassOps.compatible (f : PassFormat) : PassOps where
  depth :=
    if f.hasDepth then { loadLayout := f.depth.layout, storeLayout := f.depth.layout } else {}
  color := f.color.map fun slot =>
    if slot.format.isDefined then { loadLayout := slot.layout, storeLayout := slot.layout } else {}

end ShaderBackend.Render
