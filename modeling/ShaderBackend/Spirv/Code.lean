import ShaderBackend.Checked
import ShaderBackend.Text.Hex
import ShaderBackend.Spirv.Literal
/-!
Word streams of SPIR-V. A headed stream begins with the five words of a module header; a bare
stream is a run of instructions meant to be spliced into a module. Offsets count words from the
start of the stream, header included.
-/
namespace ShaderBackend.Spirv

/-- Whether a stream begins with a module header. -/
inductive Layout where
  | bare
  | headed
  deriving DecidableEq, Repr

namespace Header
def magic : UInt32 := 0x07230203
def version : UInt32 := 0x00010000
/-- Number of words of a header. -/
def length : Nat := 5
/-- Header word that holds the bound of the result ids. -/
def boundOffset : Nat := 3
end Header

/-- Offset of the first instruction. -/
def Layout.start : Layout → Nat
  | .bare => 0
  | .headed => Header.length

structure Code where
  layout : Layout
  words : List UInt32
  deriving DecidableEq, Repr

/-- Why words or bytes are not a module. -/
inductive LoadError where
  /-- Fewer words than a header has. -/
  | shorterThanHeader (words : Nat)
  | badMagic (word : UInt32)
  /-- The bytes do not divide into words. -/
  | unalignedSize (bytes : Nat)
  deriving DecidableEq, Repr

def LoadError.message : LoadError → String
  | .shorterThanHeader words =>
    s!"SPIR-V module has {words} words, header alone needs {Header.length}"
  | .badMagic word => s!"bad SPIR-V magic 0x{Text.hexPadded 8 word.toNat}"
  | .unalignedSize bytes => s!"SPIR-V code size {bytes} is not a multiple of 4"

def LoadError.fault (e : LoadError) : Fault := .invalidResource e.message

namespace Code

/-- A bare stream without instructions. -/
def fragment : Code := ⟨.bare, []⟩

/-- A module without instructions. -/
def emptyModule (bound : UInt32) : Code :=
  ⟨.headed, [Header.magic, Header.version, 0, bound, 0]⟩

/-- A module from its words. Only the length and the first word are checked. -/
def ofWords (words : List UInt32) : Except LoadError Code :=
  if words.length < Header.length then .error (.shorterThanHeader words.length)
  else if words.headD 0 ≠ Header.magic then .error (.badMagic (words.headD 0))
  else .ok ⟨.headed, words⟩

/-- A module from its binary form. -/
def ofBytes (bytes : List UInt8) : Except LoadError Code :=
  if bytes.length % 4 ≠ 0 then .error (.unalignedSize bytes.length)
  else ofWords (wordsOfBytes bytes)

/-- The binary form. -/
def store (code : Code) : List UInt8 := bytesOfWords code.words

/-- Number of words. -/
def length (code : Code) : Nat := code.words.length

def isEmpty (code : Code) : Bool := code.words.isEmpty

/-- Number of bytes of the binary form. -/
def size (code : Code) : Nat := code.length * 4

def instructions (code : Code) : List Instruction :=
  instructionsFrom code.layout.start (code.words.drop code.layout.start)

def word? (code : Code) (offset : Nat) : Option UInt32 := code.words[offset]?

/-- Writes one word; `none` outside the stream. -/
def setWord? (code : Code) (offset : Nat) (value : UInt32) : Option Code :=
  if offset < code.length then some { code with words := code.words.set offset value } else none

/-- The id bound, zero for a bare stream; `none` if the header has been cut off. -/
def bound? (code : Code) : Option UInt32 :=
  match code.layout with
  | .bare => some 0
  | .headed => code.word? Header.boundOffset

/-- Takes the id bound as a fresh id and raises the bound by one; `none` if the next bound does not
fit its word. A bare stream has no bound to take from. -/
def allocate? (code : Code) : Option (UInt32 × Code) :=
  match code.layout with
  | .bare => none
  | .headed => do
    let id ← code.word? Header.boundOffset
    let next ← sum32? id 1
    let code ← code.setWord? Header.boundOffset next
    return (id, code)

def append (code : Code) (words : List UInt32) : Code := { code with words := code.words ++ words }

/-- Removes the words from `first` up to but without `last`. -/
def erase (code : Code) (first last : Nat) : Code :=
  { code with words := code.words.take first ++ code.words.drop last }

/-- The same, `none` unless `first ≤ last` and both lie in the stream. -/
def erase? (code : Code) (first last : Nat) : Option Code :=
  if first ≤ last ∧ last ≤ code.length then some (code.erase first last) else none

/-- Puts words in front of the word at `offset`. -/
def insert (code : Code) (offset : Nat) (words : List UInt32) : Code :=
  { code with words := code.words.take offset ++ words ++ code.words.drop offset }

/-- The same, `none` if `offset` is past the end. -/
def insert? (code : Code) (offset : Nat) (words : List UInt32) : Option Code :=
  if offset ≤ code.length then some (code.insert offset words) else none

/-- Changes the length in the opening word at `offset` and keeps the opcode. -/
def setLength (code : Code) (offset : Nat) (length : UInt32) : Code :=
  { code with words := code.words.modify offset fun opening => openingWord opening length }

/-- The same, `none` outside the stream. -/
def setLength? (code : Code) (offset : Nat) (length : UInt32) : Option Code :=
  if offset < code.length then some (code.setLength offset length) else none

end Code
end ShaderBackend.Spirv
