import ShaderBackend.Fault
import ShaderBackend.Signature.Cursor
import ShaderBackend.Signature.Table
import ShaderBackend.Signature.Tag
/-!
Signature chunks. A chunk is a count, a reserved word and one record per element, all in words.
A record has six words: name offset, semantic index, system value, component type, register and
mask. The tag may add a stream word in front and a precision word behind. Names are strings
elsewhere in the chunk.
-/
namespace ShaderBackend.Signature

/-- Part of a chunk that is being read. -/
inductive Part where
  | elementCount
  | reservedWord
  | entry (index : Nat)
  deriving DecidableEq, Repr

def Part.name : Part → String
  | .elementCount => "element count"
  | .reservedWord => "reserved word"
  | .entry index => s!"entry {index}"

/-- Why a record is not an element. -/
inductive RecordError where
  | unreadable (cause : ReadError)
  | componentTypeOutOfRange (index : UInt32)
  deriving DecidableEq, Repr

def RecordError.message : RecordError → String
  | .unreadable cause => cause.message
  | .componentTypeOutOfRange index => s!"component type index {index} is out of range"

/-- Why a chunk is not a signature. -/
inductive ChunkError where
  | inPart (tag : Tag) (part : Part) (cause : RecordError)
  /-- The count announces more elements than the bytes can hold. -/
  | tooManyElements (tag : Tag) (count : UInt32) (remaining : Nat)
  deriving DecidableEq, Repr

def ChunkError.message : ChunkError → String
  | .inPart tag part cause => s!"{tag.render} {part.name}: {cause.message}"
  | .tooManyElements tag count remaining =>
    s!"{tag.render}: {count} elements do not fit in {remaining} remaining bytes"

def ChunkError.fault (e : ChunkError) : Fault := .decode e.message

/-- Reads with the cause of a failure named as one of a record. -/
def reading {α : Type} (result : Except ReadError α) : Except RecordError α :=
  result.mapError .unreadable

/-- Reads one record. -/
def readRecord (tag : Tag) (r : Cursor) : Except RecordError (Entry × Cursor) := do
  let (stream, r) ← if tag.hasStream then reading r.word else pure (0, r)
  let (nameOffset, r) ← reading r.word
  let names ← reading (r.seek nameOffset.toNat)
  let (semanticName, _) ← reading names.string
  let (semanticIndex, r) ← reading r.word
  let (systemValue, r) ← reading r.word
  let (typeIndex, r) ← reading r.word
  let componentType ← match ComponentType.ofIndex? typeIndex with
    | some type => pure type
    | none => throw (.componentTypeOutOfRange typeIndex)
  let (register, r) ← reading r.word
  let (mask, r) ← reading r.word
  let r ← if tag.hasPrecision then (·.2) <$> reading r.word else pure r
  return ({ semanticName, semanticIndex, systemValue, componentType, register,
            mask := .ofNat mask.toNat, stream }, r)

/-- Reads `count` records, the first of which has number `index`. -/
def readRecords (tag : Tag) : Nat → Nat → Cursor → Except ChunkError (List Entry)
  | 0, _, _ => .ok []
  | count + 1, index, r => do
    let (entry, r) ← (readRecord tag r).mapError (.inPart tag (.entry index))
    let entries ← readRecords tag count (index + 1) r
    return entry :: entries

/-- Bytes of the shortest record. -/
def shortestRecord : Nat := 24

/-- Reads the chunk at the cursor. Either all elements are read or none. -/
def Table.parse (r : Cursor) (tag : Tag) : Except ChunkError Table := do
  let (count, r) ← (reading r.word).mapError (.inPart tag .elementCount)
  let r ← (reading (r.skip 4)).mapError (.inPart tag .reservedWord)
  if r.remaining < count.toNat * shortestRecord then
    throw (.tooManyElements tag count r.remaining)
  let entries ← readRecords tag count.toNat 0 r
  return ⟨entries⟩

end ShaderBackend.Signature
