import ShaderBackend.Spirv.Survey
import ShaderBackend.Spirv.TypeTable
/-!
The search for the input variable at a location. It reads the stream once, records the types on
its way, and stops at the variable, so that it knows exactly what may be named there.
-/
namespace ShaderBackend.Spirv

/-- The declaration of an input variable. -/
structure InputVariable where
  /-- Offset of the declaration. -/
  offset : Nat
  /-- Its pointer type. -/
  typeId : UInt32
  id : UInt32
  deriving DecidableEq, Repr

/-- What has been read so far. -/
structure InputScan where
  types : TypeTable := {}
  /-- First words of the constants. -/
  constants : OrderedMap UInt32 UInt32 := {}
  /-- Ids decorated with the location. -/
  candidates : List UInt32 := []
  deriving DecidableEq, Repr

namespace InputScan

/-- Whether the instruction declares an input variable with the location. -/
def finds (scan : InputScan) (ins : Instruction) : Bool :=
  ins.is Op.declareVariable && ins.arg 3 == Storage.input && scan.candidates.contains (ins.arg 2)

def recordType (scan : InputScan) (id : UInt32) (shape : TypeShape) : InputScan :=
  { scan with types := scan.types.insert id shape }

/-- Records what an instruction declares. An array counts only if its length is already known. -/
def record (location : UInt32) (scan : InputScan) (ins : Instruction) : InputScan :=
  if ins.is Op.decorate then
    if ins.arg 2 == Decoration.location && ins.arg 3 == location then
      { scan with candidates := scan.candidates ++ [ins.arg 1] }
    else scan
  else if ins.is Op.constant then
    { scan with constants := scan.constants.insert (ins.arg 2) (ins.arg 3) }
  else if ins.is Op.typeFloat || ins.is Op.typeInt then
    scan.recordType (ins.arg 1) (.scalar (ins.arg 2))
  else if ins.is Op.typeVector then
    scan.recordType (ins.arg 1) (.vector (ins.arg 2) (ins.arg 3))
  else if ins.is Op.typeArray then
    match scan.constants.get? (ins.arg 3) with
    | some length => scan.recordType (ins.arg 1) (.array (ins.arg 2) length)
    | none => scan
  else if ins.is Op.typePointer then
    scan.recordType (ins.arg 1) (.pointer (ins.arg 3) (ins.arg 2))
  else scan

/-- Reads up to the variable, or to the end if there is none. -/
def run (location : UInt32) (scan : InputScan) :
    List Instruction → TypeTable × Option InputVariable
  | [] => (scan.types, none)
  | ins :: rest =>
    if scan.finds ins then (scan.types, some ⟨ins.offset, ins.arg 1, ins.arg 2⟩)
    else run location (scan.record location ins) rest

end InputScan

/-- The first input variable decorated with the location before its declaration, and the types
declared before it. -/
def findInput (code : Code) (location : UInt32) : TypeTable × Option InputVariable :=
  InputScan.run location {} code.instructions

end ShaderBackend.Spirv
