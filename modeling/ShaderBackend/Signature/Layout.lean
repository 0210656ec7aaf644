import ShaderBackend.Signature.Entry
import ShaderBackend.Signature.Tag
import ShaderBackend.Spirv.Bytes
/-!
Signature chunks as they are laid out: a count, a reserved word, the records, and then the names in
the order of their records. A record finds its name by its distance from the start of the chunk.
-/
namespace ShaderBackend.Signature

/-- Index of a component type; `ComponentType.ofIndex?` leads back. -/
def ComponentType.index : ComponentType → UInt32
  | unknown => 0
  | uint32 => 1
  | sint32 => 2
  | float32 => 3

theorem ComponentType.ofIndex?_index (type : ComponentType) :
    ofIndex? type.index = some type := by cases type <;> rfl

/-- Number of words of a record. -/
def Tag.recordLength (tag : Tag) : Nat := 6 + tag.hasStream.toNat + tag.hasPrecision.toNat

/-- One record with everything that a chunk can hold for it. -/
structure Record where
  semanticName : String
  semanticIndex : UInt32
  systemValue : UInt32
  componentType : ComponentType
  register : UInt32
  /-- Only the low four bits stand for components. -/
  mask : UInt32
  /-- Left out where the tag has no stream word. -/
  stream : UInt32
  /-- Left out where the tag has no precision word. -/
  precision : UInt32
  deriving DecidableEq, Repr

namespace Record

/-- The element that a record stands for. -/
def entry (tag : Tag) (record : Record) : Entry where
  semanticName := record.semanticName
  semanticIndex := record.semanticIndex
  systemValue := record.systemValue
  componentType := record.componentType
  register := record.register
  mask := .ofNat record.mask.toNat
  stream := if tag.hasStream then record.stream else 0

/-- The words of a record whose name stands at `nameOffset`. -/
def words (tag : Tag) (nameOffset : UInt32) (record : Record) : List UInt32 :=
  (if tag.hasStream then [record.stream] else []) ++
    [nameOffset, record.semanticIndex, record.systemValue, record.componentType.index,
      record.register, record.mask] ++
    (if tag.hasPrecision then [record.precision] else [])

theorem length_words (tag : Tag) (nameOffset : UInt32) (record : Record) :
    (record.words tag nameOffset).length = tag.recordLength := by
  cases hs : tag.hasStream <;> cases hp : tag.hasPrecision <;>
    simp [words, Tag.recordLength, hs, hp]

/-- The name and the zero byte that ends it. -/
def name (record : Record) : List UInt8 := Text.utf8 record.semanticName ++ [0]

end Record

/-- The words of records whose names stand one after the other from `nameOffset` on. -/
def recordWords (tag : Tag) : Nat → List Record → List UInt32
  | _, [] => []
  | nameOffset, record :: rest =>
    record.words tag (UInt32.ofNat nameOffset) ++
      recordWords tag (nameOffset + record.name.length) rest

theorem length_recordWords (tag : Tag) (nameOffset : Nat) (records : List Record) :
    (recordWords tag nameOffset records).length = records.length * tag.recordLength := by
  induction records generalizing nameOffset with
  | nil => simp [recordWords]
  | cons record rest ih =>
      simp [recordWords, Record.length_words, ih, Nat.add_mul, Nat.add_comm]

/-- Offset of the first name of a chunk with this many records. -/
def namesOffset (tag : Tag) (count : Nat) : Nat := 4 * (2 + count * tag.recordLength)

/-- The bytes of a chunk. -/
def chunk (tag : Tag) (reserved : UInt32) (records : List Record) : List UInt8 :=
  Spirv.bytesOfWords (UInt32.ofNat records.length :: reserved ::
      recordWords tag (namesOffset tag records.length) records) ++
    records.flatMap Record.name

end ShaderBackend.Signature
