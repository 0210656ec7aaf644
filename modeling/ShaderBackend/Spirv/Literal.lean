import ShaderBackend.Text.Utf8
import ShaderBackend.Spirv.Bytes
import ShaderBackend.Spirv.Instruction
/-!
Literal strings among the operands: UTF-8 bytes, a zero byte, and zero bytes up to the end of
the word.
-/
namespace ShaderBackend.Spirv

/-- Words of a string literal. -/
def literal (s : String) : List UInt32 :=
  let bytes := Text.utf8 s ++ [0]
  wordsOfBytes (bytes ++ List.replicate ((4 - bytes.length % 4) % 4) 0)

/-- Number of words that a string literal takes. -/
def literalLength (s : String) : UInt32 := (UInt32.ofNat s.utf8ByteSize + 4) / 4

/-- Number of words up to the first that holds a zero byte, that word included; all words if
none does. -/
def terminatedLength : List UInt32 → Nat
  | [] => 0
  | w :: rest => if (bytesOfWord w).contains 0 then 1 else terminatedLength rest + 1

namespace Instruction

/-- Number of words of the literal that starts at word `index`. -/
def literalLength (ins : Instruction) (index : Nat) : Nat :=
  terminatedLength (ins.words.drop index)

/-- Text of the literal that starts at word `index`. -/
def literalText (ins : Instruction) (index : Nat) : String :=
  let words := (ins.words.drop index).take (ins.literalLength index)
  String.ofList (Text.decodeLossy ((bytesOfWords words).takeWhile (· ≠ 0)))

end Instruction
end ShaderBackend.Spirv
