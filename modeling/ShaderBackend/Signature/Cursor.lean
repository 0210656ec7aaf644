import ShaderBackend.Fault
import ShaderBackend.Text.Utf8
import ShaderBackend.Spirv.Bytes
/-!
A cursor over the bytes of one chunk. Every offset counts from the start of the chunk, so a second
cursor can follow an offset found inside it. An operation that fails leaves the cursor where it was.
-/
namespace ShaderBackend.Signature

/-- Why bytes cannot be read. -/
inductive ReadError where
  | wordBeyondEnd (position length : Nat)
  | skipBeyondEnd (count position length : Nat)
  | offsetBeyondEnd (offset length : Nat)
  /-- No zero byte ends the string. -/
  | unterminatedString (position : Nat)
  /-- The bytes of the string are not UTF-8. -/
  | malformedString (position : Nat)
  /-- The end of a word is no number of 64 bits. -/
  | endOverflow
  deriving DecidableEq, Repr

def ReadError.message : ReadError → String
  | .wordBeyondEnd position length =>
    s!"need 4 bytes at {position}..{position + 4}, chunk length is {length}"
  | .skipBeyondEnd count position length =>
    s!"cannot skip {count} bytes at {position}, chunk length is {length}"
  | .offsetBeyondEnd offset length => s!"offset {offset} is outside chunk length {length}"
  | .unterminatedString position =>
    s!"string at offset {position} runs past the end of the chunk"
  | .malformedString position => s!"string at offset {position} is not valid UTF-8"
  | .endOverflow => "read offset overflows"

def ReadError.fault (e : ReadError) : Fault := .decode e.message

structure Cursor where
  data : List UInt8
  position : Nat := 0
  deriving DecidableEq, Repr

namespace Cursor

def length (r : Cursor) : Nat := r.data.length

def isEmpty (r : Cursor) : Bool := r.data.isEmpty

/-- Number of bytes after the cursor. -/
def remaining (r : Cursor) : Nat := r.data.length - r.position

/-- The bytes after the cursor. -/
def rest (r : Cursor) : List UInt8 := r.data.drop r.position

/-- Reads four bytes as one word, the least significant byte first. -/
def word (r : Cursor) : Except ReadError (UInt32 × Cursor) :=
  match r.rest with
  | a :: b :: c :: d :: _ =>
    .ok (Spirv.wordOfBytes a b c d, { r with position := r.position + 4 })
  | _ => .error (.wordBeyondEnd r.position r.length)

/-- Passes over `count` bytes. -/
def skip (r : Cursor) (count : Nat) : Except ReadError Cursor :=
  if r.position + count ≤ r.length then .ok { r with position := r.position + count }
  else .error (.skipBeyondEnd count r.position r.length)

/-- A second cursor over the same bytes. It may stand at the very end. -/
def seek (r : Cursor) (offset : Nat) : Except ReadError Cursor :=
  if r.length < offset then .error (.offsetBeyondEnd offset r.length)
  else .ok { r with position := offset }

/-- Reads the text before the next zero byte and passes over both. -/
def string (r : Cursor) : Except ReadError (String × Cursor) :=
  let bytes := r.rest.takeWhile (· ≠ 0)
  if bytes.length = r.rest.length then .error (.unterminatedString r.position)
  else
    match Text.decode? bytes with
    | none => .error (.malformedString r.position)
    | some s => .ok (s, { r with position := r.position + bytes.length + 1 })

end Cursor
end ShaderBackend.Signature
