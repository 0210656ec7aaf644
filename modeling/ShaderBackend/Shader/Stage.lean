/-! Pipeline stages and sets of them. -/
namespace ShaderBackend.Shader

inductive Stage where
  | vertex
  | tessControl
  | tessEval
  | geometry
  | fragment
  | compute
  deriving DecidableEq, Repr

/-- A set of stages, one bit each. Bits that belong to no stage are kept. -/
abbrev StageSet := UInt32

namespace Stage

/-- All stages in pipeline order. -/
def all : List Stage := [vertex, tessControl, tessEval, geometry, fragment, compute]

def flag : Stage → StageSet
  | vertex => 0x01
  | tessControl => 0x02
  | tessEval => 0x04
  | geometry => 0x08
  | fragment => 0x10
  | compute => 0x20

def name : Stage → String
  | vertex => "vertex"
  | tessControl => "tess_control"
  | tessEval => "tess_eval"
  | geometry => "geometry"
  | fragment => "fragment"
  | compute => "compute"

/-- The name as diagnostics show it. -/
def title : Stage → String
  | vertex => "Vertex"
  | tessControl => "TessControl"
  | tessEval => "TessEval"
  | geometry => "Geometry"
  | fragment => "Fragment"
  | compute => "Compute"

end Stage

namespace StageSet

def ofStages (stages : List Stage) : StageSet :=
  stages.foldl (fun set stage => set ||| stage.flag) 0

/-- Every stage but compute. -/
def allGraphics : StageSet := 0x1f

def contains (set other : StageSet) : Bool := set &&& other == other

end StageSet
end ShaderBackend.Shader
