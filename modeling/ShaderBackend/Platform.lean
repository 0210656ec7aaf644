/-! What the worker pool asks of the machine: a core count, and a priority for its threads. -/
namespace ShaderBackend

/-- Scheduling priority of the worker threads. -/
inductive ThreadPriority where
  | lowest
  | low
  | normal
  deriving DecidableEq, Repr

namespace ThreadPriority

def all : List ThreadPriority := [lowest, low, normal]

/-- The name used in configuration. -/
def name : ThreadPriority → String
  | lowest => "lowest"
  | low => "low"
  | normal => "normal"

/-- The name with a capital, as diagnostics show it. -/
def title : ThreadPriority → String
  | lowest => "Lowest"
  | low => "Low"
  | normal => "Normal"

/-- Names are matched exactly. -/
def ofName? (name : String) : Option ThreadPriority := all.find? (·.name == name)

end ThreadPriority

/-- A machine as the pool sees it. -/
structure Platform where
  coreCount : UInt32
  /-- Whether a priority is in effect after a thread asked for it. -/
  applies : ThreadPriority → Bool

/-- Portable threads have the normal priority and no other. -/
def Platform.portable (coreCount : UInt32) : Platform := ⟨coreCount, (· = .normal)⟩

end ShaderBackend
