import ShaderBackend.Text.Hex
import ShaderBackend.Text.Utf8
/-!
Tags of signature chunks. The tag decides which words an element has: a stream word in front, a
precision word behind, or neither.
-/
namespace ShaderBackend.Signature

/-- Four bytes that name the kind of a chunk. -/
structure Tag where
  a : UInt8
  b : UInt8
  c : UInt8
  d : UInt8
  deriving DecidableEq, Repr

namespace Tag

def isgn : Tag := ⟨0x49, 0x53, 0x47, 0x4e⟩
def osgn : Tag := ⟨0x4f, 0x53, 0x47, 0x4e⟩
def pcsg : Tag := ⟨0x50, 0x43, 0x53, 0x47⟩
def isg1 : Tag := ⟨0x49, 0x53, 0x47, 0x31⟩
def osg1 : Tag := ⟨0x4f, 0x53, 0x47, 0x31⟩
def psg1 : Tag := ⟨0x50, 0x53, 0x47, 0x31⟩
def osg5 : Tag := ⟨0x4f, 0x53, 0x47, 0x35⟩

/-- The tags of signature chunks. -/
def known : List Tag := [isgn, osgn, pcsg, isg1, osg1, psg1, osg5]

def bytes (tag : Tag) : List UInt8 := [tag.a, tag.b, tag.c, tag.d]

/-- Elements begin with a stream word. -/
def hasStream (tag : Tag) : Bool := tag = isg1 || tag = osg1 || tag = psg1 || tag = osg5

/-- Elements end with a precision word. -/
def hasPrecision (tag : Tag) : Bool := tag = isg1 || tag = osg1 || tag = psg1

/-- Whether the bytes of the tag spell the text. -/
def spells (tag : Tag) (s : String) : Bool := tag.bytes = Text.utf8 s

/-- One byte of a tag: itself if it is a visible ASCII character, else its number. -/
def showByte (b : UInt8) : String :=
  if 0x21 ≤ b && b ≤ 0x7e then String.singleton (Char.ofNat b.toNat)
  else "\\x" ++ Text.hexPadded 2 b.toNat

def render (tag : Tag) : String := String.join (tag.bytes.map showByte)

/-- The diagnostic form. -/
def diagnostic (tag : Tag) : String := "DxbcTag(" ++ tag.render ++ ")"

end Tag
end ShaderBackend.Signature
