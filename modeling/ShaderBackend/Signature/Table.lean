import ShaderBackend.Log.Entry
import ShaderBackend.Signature.Entry
/-! The elements of one signature in the order of their chunk, and the lookups on them. -/
namespace ShaderBackend.Signature

structure Table where
  entries : List Entry
  deriving DecidableEq, Repr

/-- Equality up to the case of ASCII letters. -/
def sameLetters (s t : String) : Bool := s.toList.map Char.toLower = t.toList.map Char.toLower

namespace Table

def length (t : Table) : Nat := t.entries.length

def isEmpty (t : Table) : Bool := t.entries.isEmpty

/-- First element in a register. -/
def findRegister? (t : Table) (register : UInt32) : Option Entry :=
  t.entries.find? (·.register = register)

/-- First element with this semantic and stream. Names are compared without regard to case. -/
def find? (t : Table) (name : String) (index stream : UInt32) : Option Entry :=
  t.entries.find? fun e =>
    e.semanticIndex = index && e.stream = stream && sameLetters e.semanticName name

/-- All components of a register that some element uses. -/
def componentsIn (t : Table) (register : UInt32) : Components :=
  (t.entries.filter (·.register = register)).foldl (fun mask e => mask.union e.mask) .empty

/-- The register after `r`; the last has none and counts as its own successor. -/
def nextRegister (r : UInt32) : UInt32 := if r = 0xffffffff then r else r + 1

/-- One more than the highest register, zero for an empty table. -/
def registerBound (t : Table) : UInt32 :=
  t.entries.foldl (fun count e => max count (nextRegister e.register)) 0

/-- One debug entry per element. -/
def debugEntries (t : Table) (threshold : Log.Threshold) : List Log.Entry :=
  t.entries.flatMap fun e => threshold.note .debug "bridge::dxbc" ("SGN entry: " ++ e.render)

end Table
end ShaderBackend.Signature
