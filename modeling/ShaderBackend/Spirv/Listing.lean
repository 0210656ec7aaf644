import ShaderBackend.Spirv.Elimination
/-!
Removal of an input on a list of instructions, where nothing has an offset and each instruction is
changed on its own. This says what the removal does to a module; the edits of the word stream have
to come to the same.
-/
namespace ShaderBackend.Spirv

/-- The instructions of a stream in order, each as its words. -/
abbrev Listing := List (List UInt32)

def Code.listing (code : Code) : Listing := code.instructions.map (·.words)

/-- An instruction that is read apart from its place. -/
def unplaced (words : List UInt32) : Instruction := ⟨0, words⟩

/-- The words with the length in the opening word set to their number. -/
def relength : List UInt32 → List UInt32
  | [] => []
  | opening :: operands => encode opening operands

/-- An entry point without the first mention of `id` among its interface ids, which follow the
literal name at word three. Any other instruction stays as it is. -/
def withoutInterface (id : UInt32) (words : List UInt32) : List UInt32 :=
  let first := 3 + (unplaced words).literalLength 3
  if (unplaced words).is Op.entryPoint && (words.drop first).contains id then
    relength (words.take first ++ (words.drop first).erase id)
  else words

/-- Whether an instruction gives `id` a location. -/
def locates (id : UInt32) (words : List UInt32) : Bool :=
  (unplaced words).decorates Decoration.location && (unplaced words).arg 1 == id

/-- Depth that an instruction reaches below a variable if it is an access chain that starts there.
`depths` gives the depths of the results of earlier chains. -/
def depthBelow? (id : UInt32) (depths : UInt32 → Option Nat) (words : List UInt32) : Option Nat :=
  let base := (unplaced words).arg 3
  if (unplaced words).isAccessChain then
    (if base = id then some 0 else depths base).map (· + (words.length - 4))
  else none

namespace Listing

/-- Puts instructions in the place of the one with number `index`. -/
def replace (listing : Listing) (index : Nat) (instructions : Listing) : Listing :=
  listing.take index ++ instructions ++ listing.drop (index + 1)

/-- Gives the access chains below a variable the private pointers of their depths; `none` if one
leads below the last level. -/
def retype? (levels : List PrivateLevel) (id : UInt32) (depths : UInt32 → Option Nat) :
    Listing → Option Listing
  | [] => some []
  | words :: rest =>
    match depthBelow? id depths words with
    | none => (retype? levels id depths rest).map (words :: ·)
    | some depth => do
      let level ← levels[depth]?
      let result := (unplaced words).arg 2
      let rest ← retype? levels id (fun i => if i = result then some depth else depths i) rest
      return words.set 1 level.pointer :: rest

/-- Removes the input that instruction `index` declares: instructions take its place, entry points
no longer list it, its first location goes, and access chains below it get private pointers. -/
def removeInput? (listing : Listing) (levels : List PrivateLevel) (id : UInt32) (index : Nat)
    (instructions : Listing) : Option Listing :=
  retype? levels id (fun _ => none)
    (((listing.replace index instructions).map (withoutInterface id)).eraseP (locates id))

end Listing
end ShaderBackend.Spirv
