import ShaderBackend.Signature.Table
/-!
What a stage reads and writes, as sets of registers. The inputs that the stage before never writes
are the ones to remove.
-/
namespace ShaderBackend.Shader

/-- Registers from here on are not tracked. -/
def registerLimit : UInt32 := 32

structure Interface where
  /-- Bit `n` is set if input register `n` is read. -/
  inputs : UInt32 := 0
  /-- Bit `n` is set if output register `n` is written. -/
  outputs : UInt32 := 0
  /-- Offset of the push constant block in bytes. -/
  pushConstOffset : UInt32 := 0
  /-- Its size in bytes, zero if there is none. -/
  pushConstSize : UInt32 := 0
  deriving DecidableEq, Repr

/-- The tracked registers that hold a value of the user. -/
def registerSet (table : Signature.Table) : UInt32 :=
  (table.entries.filter fun e => e.systemValue = 0 && e.register < registerLimit).foldl
    (fun set e => set ||| ((1 : UInt32) <<< e.register)) 0

namespace Interface

/-- The numbers in the order of their fields. -/
def toList (i : Interface) : List UInt32 :=
  [i.inputs, i.outputs, i.pushConstOffset, i.pushConstSize]

def ofSignatures (inputs outputs : Signature.Table) : Interface where
  inputs := registerSet inputs
  outputs := registerSet outputs

def withPushConstants (i : Interface) (offset size : UInt32) : Interface :=
  { i with pushConstOffset := offset, pushConstSize := size }

/-- Inputs of the consumer that the producer never writes. -/
def unwrittenInputs (producer consumer : Interface) : UInt32 :=
  consumer.inputs &&& ~~~producer.outputs

end Interface
end ShaderBackend.Shader
