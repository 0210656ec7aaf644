import ShaderBackend.Spirv.Elimination
/-!
Removal of an input with every step checked that can leave its bounds: the sums of 32 bits, the
differences of lengths and the offsets into the stream. Where a check fails, the removal ends in an
error that aborts.
-/
namespace ShaderBackend.Spirv

/-- Takes as many fresh ids. -/
def Code.takeIds? : Nat → Code → Option Code
  | 0, code => some code
  | count + 1, code => do takeIds? count (← code.allocate?).2

/-- Zero constant of a level with the id `own`. A constant that repeats the constant `inner` has two
operands besides. -/
def zeroConstant? (own : UInt32) (level : PrivateLevel) : Option UInt32 → Option (List UInt32)
  | none => some (encode Op.constant [level.pointee, own, 0])
  | some inner => do
    let length ← sum32? 3 level.size
    return openingWord Op.constantComposite length :: level.pointee :: own ::
      List.replicate level.size.toNat inner

/-- Zero constants of levels given innermost first, and the id of the outermost. -/
def zeroConstants? (ids : Nat → UInt32) : Nat → Option UInt32 → List PrivateLevel →
    Option (List (List UInt32) × UInt32)
  | _, inner, [] => some ([], inner.getD 0)
  | used, inner, level :: outer => do
    let own ← zeroConstant? (ids used) level inner
    let (constants, id) ← zeroConstants? ids (used + 1) (some (ids used)) outer
    return (own :: constants, id)

/-- The instructions that take the place of the input variable. -/
def replacement? (ids : Nat → UInt32) (levels : List PrivateLevel) (id : UInt32) :
    Option (List (List UInt32)) := do
  let (constants, initializer) ← zeroConstants? ids (newPointers levels) none levels.reverse
  let outermost ← levels.head?
  return pointerDeclarations levels ++ constants ++
    [encode Op.declareVariable [outermost.pointer, id, Storage.privateClass, initializer]]

def replaceVariable? (code : Code) (offset : Nat) (instructions : List (List UInt32)) :
    Option Code := do
  (← code.erase? offset (offset + 4)).insert? offset instructions.flatten

def removeOperand? (code : Code) (ins : Instruction) (position : Nat) : Option Code := do
  let length ← difference? ins.length 1
  let code ← code.setLength? ins.offset (UInt32.ofNat length)
  code.erase? (ins.offset + position) (ins.offset + position + 1)

/-- Drops `id` once from every entry point that lists it, from back to front. -/
def unlistInput? (code : Code) (id : UInt32) : Option Code :=
  let edits := (code.instructions.filter (·.is Op.entryPoint)).filterMap fun ins =>
    (interfacePosition? id ins).map (ins, ·)
  edits.foldrM (fun edit code => removeOperand? code edit.1 edit.2) code

/-- Drops the first location decoration of `id`. -/
def dropLocation? (code : Code) (id : UInt32) : Option Code :=
  match code.instructions.find? fun ins =>
      ins.decorates Decoration.location && ins.arg 1 == id with
  | some ins => code.erase? ins.offset ins.stop
  | none => some code

/-- All edits in front of the access chains. -/
def privatize? (code : Code) (ids : Nat → UInt32) (levels : List PrivateLevel)
    (input : InputVariable) : Option Code := do
  let code ← code.takeIds? (freshIds levels)
  let code ← replaceVariable? code input.offset (← replacement? ids levels input.id)
  dropLocation? (← unlistInput? code input.id) input.id

/-- Gives every access chain below the variable the private pointer of its depth. -/
def retypeChecked (levels : List PrivateLevel) (variableId : UInt32) :
    OrderedMap UInt32 Nat → List AccessChain → Code → Except PatchError Code
  | _, [], code => .ok code
  | depths, chain :: rest, code =>
    match chain.depth? variableId depths with
    | none => retypeChecked levels variableId depths rest code
    | some depth =>
      match levels[depth]? with
      | none => .error (.chainTooDeep chain.result depth variableId levels.length)
      | some level => do
        let code ← code.writeWord (chain.offset + 1) level.pointer
        retypeChecked levels variableId (depths.insert chain.result depth) rest code

/-- The same for the access chains of a module. All of them are read before the first is changed, and
reading one takes four from its length. -/
def retypeChainsChecked (levels : List PrivateLevel) (variableId : UInt32) (code : Code) :
    Except PatchError Code := do
  let chains ← (code.instructions.filter (·.isAccessChain)).mapM AccessChain.read
  retypeChecked levels variableId {} chains code

/-- What a check gives, or the error that ends a removal. -/
def inBounds {α : Type} : Option α → Except PatchError α
  | some value => .ok value
  | none => .error .outOfBounds

/-- Removes the input at a location within the bounds of all numbers and offsets. `none` if no input
stands there or its type is not recorded. -/
def eliminateWithin (code : Code) (location : UInt32) : Except PatchError (Option Code) :=
  match findInput code location with
  | (_, none) => .ok none
  | (types, some input) =>
    let ids := fun k => code.bound + UInt32.ofNat k
    let levels := inputLevels types ids input
    if levels.isEmpty then .ok none
    else do
      let code ← inBounds (privatize? code ids levels input)
      (retypeChainsChecked levels input.id code).map some

/-- The same as a caller sees it, to whom an error is a fault or an abort. -/
def eliminateChecked (code : Code) (location : UInt32) : Except Failure (Option Code) :=
  (eliminateWithin code location).mapError PatchError.failure

end ShaderBackend.Spirv
