import ShaderBackend.Spirv.InputScan
/-!
Removal of an input that no earlier stage writes. The input variable becomes a private variable
that starts at zero: the pointer types it lacks and its zero constants are declared in front of
it, entry points no longer list it, its location is dropped, and every access chain that starts at
it gets the private pointer type of its depth.
-/
namespace ShaderBackend.Spirv

/-- Why a template cannot be specialized. -/
inductive PatchError where
  /-- A binding or specialization constant names a slot that no shader has declared. -/
  | unboundSlot (slot : UInt32)
  /-- An access chain leads below the last level of the type it starts from. -/
  | chainTooDeep (result : UInt32) (depth : Nat) (input : UInt32) (levels : Nat)
  /-- An operand to be changed lies behind the last word. -/
  | outsideCode (offset : Nat)
  /-- An access chain lacks its result type, result or base. -/
  | truncatedAccessChain (offset : Nat)
  /-- A sum of 32 bits or an edit leaves its bounds. -/
  | outOfBounds
  deriving DecidableEq, Repr

namespace PatchError

/-- How the error ends a computation: two of the causes are reported, the others abort. -/
def failure : PatchError → Failure
  | unboundSlot slot => .fault (.patch s!"resource slot {slot} has no binding")
  | chainTooDeep result depth input levels => .fault (.patch
      (s!"access chain %{result} reaches depth {depth} of input %{input}, "
        ++ s!"whose type has {levels} levels"))
  | outsideCode _ => .abort
  | truncatedAccessChain _ => .abort
  | outOfBounds => .abort

end PatchError

def Code.readWord (code : Code) (offset : Nat) : Except PatchError UInt32 :=
  match code.word? offset with
  | some w => .ok w
  | none => .error (.outsideCode offset)

def Code.writeWord (code : Code) (offset : Nat) (value : UInt32) : Except PatchError Code :=
  match code.setWord? offset value with
  | some code => .ok code
  | none => .error (.outsideCode offset)

/-- Declarations of the new pointer types, outermost first. -/
def pointerDeclarations (levels : List PrivateLevel) : List (List UInt32) :=
  (levels.filter (·.isNew)).map fun level =>
    encode Op.typePointer [level.pointer, Storage.privateClass, level.pointee]

/-- Zero constants of levels given innermost first. The innermost is a plain constant, every
other repeats the constant below it once per element. Ids come from `ids`, starting with number
`used`; `inner` is the constant of the level below, if there is one. Gives the constants and the id
of the outermost. -/
def zeroConstants (ids : Nat → UInt32) : Nat → Option UInt32 → List PrivateLevel →
    List (List UInt32) × UInt32
  | _, inner, [] => ([], inner.getD 0)
  | used, inner, level :: outer =>
    let own := match inner with
      | none => encode Op.constant [level.pointee, ids used, 0]
      | some element => encode Op.constantComposite
          (level.pointee :: ids used :: List.replicate level.size.toNat element)
    let (constants, id) := zeroConstants ids (used + 1) (some (ids used)) outer
    (own :: constants, id)

/-- The instructions that take the place of the input variable: pointer types, zero constants and
the private variable, which keeps the id. -/
def replacement (ids : Nat → UInt32) (levels : List PrivateLevel) (id : UInt32) :
    List (List UInt32) :=
  let (constants, initializer) := zeroConstants ids (newPointers levels) none levels.reverse
  pointerDeclarations levels ++ constants ++
    [encode Op.declareVariable
      [(levels.head?.map (·.pointer)).getD 0, id, Storage.privateClass, initializer]]

/-- Number of ids that a replacement takes. -/
def freshIds (levels : List PrivateLevel) : Nat := newPointers levels + levels.length

/-- Puts instructions where the four words of the variable were. -/
def replaceVariable (code : Code) (offset : Nat) (instructions : List (List UInt32)) : Code :=
  (code.erase offset (offset + 4)).insert offset instructions.flatten

/-- Position of `id` among the interface ids of an entry point, counted in words from its start.
The interface ids follow the literal name at word three. -/
def interfacePosition? (id : UInt32) (ins : Instruction) : Option Nat :=
  let first := 3 + ins.literalLength 3
  ((ins.words.drop first).findIdx? (· == id)).map (first + ·)

/-- Takes the word at `position` out of an instruction and lowers its length. -/
def removeOperand (code : Code) (ins : Instruction) (position : Nat) : Code :=
  (code.setLength ins.offset (UInt32.ofNat (ins.length - 1))).erase
    (ins.offset + position) (ins.offset + position + 1)

/-- Drops `id` once from every entry point that lists it. The edits go from back to front, so that
the offsets of those still to come stay right. -/
def unlistInput (code : Code) (id : UInt32) : Code :=
  let edits := (code.instructions.filter (·.is Op.entryPoint)).filterMap fun ins =>
    (interfacePosition? id ins).map (ins, ·)
  edits.foldr (fun edit code => removeOperand code edit.1 edit.2) code

/-- Drops the first location decoration of `id`. -/
def dropLocation (code : Code) (id : UInt32) : Code :=
  match code.instructions.find? fun ins =>
      ins.decorates Decoration.location && ins.arg 1 == id with
  | some ins => code.erase ins.offset ins.stop
  | none => code

/-- An access chain: where it stands, what it defines, where it starts and how many indices it
follows. -/
structure AccessChain where
  offset : Nat
  result : UInt32
  base : UInt32
  indices : Nat
  deriving DecidableEq, Repr

def Instruction.isAccessChain (ins : Instruction) : Bool :=
  ins.is Op.accessChain || ins.is Op.inBoundsAccessChain

/-- Reads an access chain; it has at least opening word, result type, result and base. -/
def AccessChain.read (ins : Instruction) : Except PatchError AccessChain :=
  if ins.length < 4 then .error (.truncatedAccessChain ins.offset)
  else .ok ⟨ins.offset, ins.arg 2, ins.arg 3, ins.length - 4⟩

/-- Depth that an access chain reaches below the variable, given the depths of the results of
earlier chains; `none` if it does not start at the variable. -/
def AccessChain.depth? (variableId : UInt32) (depths : OrderedMap UInt32 Nat)
    (chain : AccessChain) : Option Nat :=
  if chain.base = variableId then some chain.indices
  else (depths.get? chain.base).map (· + chain.indices)

/-- Gives every access chain below the variable the private pointer of its depth. -/
def retype (levels : List PrivateLevel) (variableId : UInt32) :
    OrderedMap UInt32 Nat → List AccessChain → Code → Except PatchError Code
  | _, [], code => .ok code
  | depths, chain :: rest, code =>
    match chain.depth? variableId depths with
    | none => retype levels variableId depths rest code
    | some depth =>
      match levels[depth]? with
      | none => .error (.chainTooDeep chain.result depth variableId levels.length)
      | some level =>
        retype levels variableId (depths.insert chain.result depth) rest
          { code with words := code.words.set (chain.offset + 1) level.pointer }

/-- Gives the access chains of a module below the variable their new types. -/
def retypeAccessChains (levels : List PrivateLevel) (variableId : UInt32) (code : Code) :
    Except PatchError Code := do
  let chains ← (code.instructions.filter (·.isAccessChain)).mapM AccessChain.read
  retype levels variableId {} chains code

/-- The id bound of a headed stream; zero if there is none. -/
def Code.bound (code : Code) : UInt32 := code.bound?.getD 0

/-- Writes the id bound into the header. -/
def Code.setBound (code : Code) (bound : UInt32) : Code :=
  { code with words := code.words.set Header.boundOffset bound }

/-- The levels of the pointee of a variable. There are none if its type is not a recorded
pointer or if the pointee is not recorded. -/
def inputLevels (types : TypeTable) (ids : Nat → UInt32) (input : InputVariable) :
    List PrivateLevel :=
  match types.get? input.typeId with
  | some (.pointer pointee _) => types.privateLevels ids pointee
  | _ => []

/-- Removes the input at a location. `none` if no input stands there or its type is not recorded:
then there is nothing to change. Nothing here looks whether numbers and offsets stay in their bounds. A
removal that does ends in the same way where they do. -/
def eliminate (code : Code) (location : UInt32) : Except PatchError (Option Code) :=
  match findInput code location with
  | (_, none) => .ok none
  | (types, some input) =>
    let ids := fun k => code.bound + UInt32.ofNat k
    let levels := inputLevels types ids input
    if levels.isEmpty then .ok none
    else
      let code := code.setBound (ids (freshIds levels))
      let code := replaceVariable code input.offset (replacement ids levels input.id)
      let code := unlistInput code input.id
      let code := dropLocation code input.id
      (retypeAccessChains levels input.id code).map some

end ShaderBackend.Spirv
