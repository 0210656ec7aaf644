import ShaderBackend.Checked
import ShaderBackend.Signature.Cursor
/-!
A stack of cursors over the bytes of one chunk, and what can be asked of the topmost. Positions and
lengths are numbers of 64 bits. In the checked operations each sum is checked, and so is each range
that is cut out of the bytes; they give `none` where a check fails that nothing in the program catches.
-/
namespace ShaderBackend.Signature

/-- The bytes from `start` up to `stop`; `none` if they are not all there. -/
def slice? (bytes : List UInt8) (start stop : Nat) : Option (List UInt8) :=
  if start ≤ stop ∧ stop ≤ bytes.length then some ((bytes.drop start).take (stop - start)) else none

namespace Cursor

/-- Reads one word. A position without room for the end of a word is caught, and so is a range past
the end; that the range has four bytes is not. -/
def word? (r : Cursor) : Option (Except ReadError (UInt32 × Cursor)) :=
  match sum64? r.position 4 with
  | none => some (.error .endOverflow)
  | some stop =>
    match slice? r.data r.position stop with
    | none => some (.error (.wordBeyondEnd r.position r.length))
    | some bytes => do
      let value := Spirv.wordOfBytes (← bytes[0]?) (← bytes[1]?) (← bytes[2]?) (← bytes[3]?)
      return .ok (value, { r with position := stop })

/-- Passes over `count` bytes. Every sum that takes too much is caught. -/
def skip? (r : Cursor) (count : Nat) : Option (Except ReadError Cursor) :=
  match (sum64? r.position count).filter (· ≤ r.length) with
  | some stop => some (.ok { r with position := stop })
  | none => some (.error (.skipBeyondEnd count r.position r.length))

/-- Reads the text before the next zero byte and passes over both. -/
def string? (r : Cursor) : Option (Except ReadError (String × Cursor)) := do
  let tail ← slice? r.data (min r.position r.length) r.length
  match tail.findIdx? (· = 0) with
  | none => return .error (.unterminatedString r.position)
  | some count =>
    match Text.decode? (← slice? tail 0 count) with
    | none => return .error (.malformedString r.position)
    | some text =>
      let stop ← sum64? r.position (← sum64? count 1)
      return .ok (text, { r with position := stop })

end Cursor

/-- What can be asked of a stack of cursors. -/
inductive Request where
  | word
  | skip (count : Nat)
  | string
  /-- A further cursor at an offset, on top of the others. -/
  | seek (offset : Nat)
  /-- Gives up the topmost cursor, unless it is the only one. -/
  | pop
  deriving DecidableEq, Repr

inductive Reply where
  | word (value : UInt32)
  | text (value : String)
  | done
  | failed (cause : ReadError)
  deriving DecidableEq, Repr

/-- A stack of cursors, which is never empty. -/
structure Readers where
  top : Cursor
  below : List Cursor := []
  deriving DecidableEq, Repr

namespace Readers

/-- One cursor before the first byte. -/
def start (data : List UInt8) : Readers := { top := { data } }

def all (s : Readers) : List Cursor := s.top :: s.below

def replaceTop (s : Readers) (top : Cursor) : Readers := { s with top }

def push (s : Readers) (top : Cursor) : Readers := { top, below := s.all }

def pop (s : Readers) : Readers :=
  match s.below with
  | [] => s
  | top :: below => { top, below }

/-- Goes on with what was read. A failure is told and changes nothing. -/
def settle {α : Type} (s : Readers) (next : α → Reply × Readers) :
    Except ReadError α → Reply × Readers
  | .ok value => next value
  | .error cause => (.failed cause, s)

def ask (s : Readers) : Request → Reply × Readers
  | .word => s.settle (fun (value, top) => (.word value, s.replaceTop top)) s.top.word
  | .skip count => s.settle (fun top => (.done, s.replaceTop top)) (s.top.skip count)
  | .string => s.settle (fun (text, top) => (.text text, s.replaceTop top)) s.top.string
  | .seek offset => s.settle (fun top => (.done, s.push top)) (s.top.seek offset)
  | .pop => (.done, s.pop)

/-- The same with the checked operations. -/
def ask? (s : Readers) : Request → Option (Reply × Readers)
  | .word => s.top.word?.map (s.settle fun (value, top) => (.word value, s.replaceTop top))
  | .skip count => (s.top.skip? count).map (s.settle fun top => (.done, s.replaceTop top))
  | .string => s.top.string?.map (s.settle fun (text, top) => (.text text, s.replaceTop top))
  | .seek offset => some (s.settle (fun top => (.done, s.push top)) (s.top.seek offset))
  | .pop => some (.done, s.pop)

end Readers
end ShaderBackend.Signature
