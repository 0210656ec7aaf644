/-! Words as four bytes each, the least significant byte first. -/
namespace ShaderBackend.Spirv

def bytesOfWord (w : UInt32) : List UInt8 :=
  [w.toUInt8, (w >>> 8).toUInt8, (w >>> 16).toUInt8, (w >>> 24).toUInt8]

def wordOfBytes (a b c d : UInt8) : UInt32 :=
  a.toUInt32 ||| (b.toUInt32 <<< 8) ||| (c.toUInt32 <<< 16) ||| (d.toUInt32 <<< 24)

def bytesOfWords (words : List UInt32) : List UInt8 := words.flatMap bytesOfWord

/-- Whole words of a byte list; up to three bytes left over at its end are dropped. -/
def wordsOfBytes : List UInt8 → List UInt32
  | a :: b :: c :: d :: rest => wordOfBytes a b c d :: wordsOfBytes rest
  | _ => []

end ShaderBackend.Spirv
