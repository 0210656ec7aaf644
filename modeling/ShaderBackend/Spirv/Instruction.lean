/-!
Instructions as pieces of a word stream. The first word of an instruction holds its length in
the high half and its opcode in the low half. Reading stops at a length of zero and at an
instruction that runs past the end.
-/
namespace ShaderBackend.Spirv

/-- One instruction where it stands: the words, opening word included, and their offset. -/
structure Instruction where
  offset : Nat
  words : List UInt32
  deriving DecidableEq, Repr

/-- The opening word. Lengths keep their low sixteen bits, opcodes too. -/
def openingWord (opcode length : UInt32) : UInt32 := (length <<< 16) ||| (opcode &&& 0xffff)

/-- Words of an instruction built from its opcode and operands. -/
def encode (opcode : UInt32) (operands : List UInt32) : List UInt32 :=
  openingWord opcode (UInt32.ofNat (operands.length + 1)) :: operands

/-- Length that an opening word announces. -/
def announcedLength (opening : UInt32) : Nat := (opening >>> 16).toNat

namespace Instruction

/-- Word `index`, zero where the instruction has none. -/
def arg (ins : Instruction) (index : Nat) : UInt32 := ins.words.getD index 0

def opcode (ins : Instruction) : UInt32 := ins.arg 0 &&& 0xffff

/-- Number of words, opening word included. -/
def length (ins : Instruction) : Nat := ins.words.length

def operands (ins : Instruction) : List UInt32 := ins.words.drop 1

/-- Offset of the first word after the instruction. -/
def stop (ins : Instruction) : Nat := ins.offset + ins.words.length

def is (ins : Instruction) (opcode : UInt32) : Bool := ins.opcode == opcode

end Instruction

/-- The instructions of a stream whose first word stands at `offset`. -/
def instructionsFrom (offset : Nat) (stream : List UInt32) : List Instruction :=
  match stream with
  | [] => []
  | opening :: rest =>
    if _h : announcedLength opening = 0 then []
    else
      let words := (opening :: rest).take (announcedLength opening)
      if words.length < announcedLength opening then []
      else ⟨offset, words⟩ ::
        instructionsFrom (offset + announcedLength opening)
          ((opening :: rest).drop (announcedLength opening))
termination_by stream.length
decreasing_by
  simp only [List.length_drop, List.length_cons]
  omega

end ShaderBackend.Spirv
