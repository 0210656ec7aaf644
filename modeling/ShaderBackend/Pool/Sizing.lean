import ShaderBackend.Checked
import ShaderBackend.Platform
/-! How many workers a pool has when nobody says. -/
namespace ShaderBackend.Pool

/-- Most workers that are derived from the cores. -/
def maxDerivedWorkers : UInt32 := 32

/-- Five sevenths of all cores but one, at least one and at most the limit. A machine has at least
one core. The product is formed before it is divided, and has to fit in 32 bits. -/
def derivedWorkers (cores : UInt32) : Except Failure UInt32 := do
  let spare ← orAbort (difference32? (max cores 1) 1)
  let product ← orAbort (product32? spare 5)
  return min (max (product / 7) 1) maxDerivedWorkers

/-- The number asked for, or the derived one if it is zero. -/
def workerCount (requested : UInt32) (platform : Platform) : Except Failure UInt32 :=
  if 0 < requested then .ok requested else derivedWorkers platform.coreCount

/-- Name of a worker thread. -/
def workerName (index : Nat) : String := s!"shader-bridge-worker-{index}"

end ShaderBackend.Pool
