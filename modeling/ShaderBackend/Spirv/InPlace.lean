import ShaderBackend.Spirv.Specialization
/-!
Specialization as work on one buffer. Fresh ids are taken from the header one at a time, for the
pointer types while the levels of the type are walked and for the zero constants after that. An
error leaves the buffer as it is by then, so a caller that needs the old words keeps a copy.
-/
namespace ShaderBackend.Spirv

/-- Work on a buffer that may end in an error. -/
abbrev Work := EStateM PatchError Code

namespace Work

variable {α : Type}

/-- What work comes to if a buffer that an error leaves behind is thrown away. -/
def outcome (work : Work α) (code : Code) : Except PatchError (α × Code) :=
  match work code with
  | .ok value after => .ok (value, after)
  | .error error _ => .error error

/-- What a check gives. One that fails ends the work. -/
def check (checked : Option α) : Work α := MonadExcept.ofExcept (inBounds checked)

/-- Changes the buffer by a checked edit. -/
def edit (change : Code → Option Code) : Work Unit := do
  set (← check (change (← get)))

/-- Takes the id bound of the buffer as a fresh id. -/
def takeId : Work UInt32 := do
  let (id, code) ← check (← get).allocate?
  set code
  return id

/-- The private pointer to a type, and whether its id had to be taken. -/
def takePointer (types : TypeTable) (pointee : UInt32) : Work (UInt32 × Bool) :=
  match types.pointerTo? pointee Storage.privateClass with
  | some pointer => return (pointer, false)
  | none => return (← takeId, true)

/-- Walks from a type to its component types for at most `depth` levels. -/
def takeLevels (types : TypeTable) : Nat → UInt32 → Work (List PrivateLevel)
  | 0, _ => return []
  | depth + 1, current =>
    match types.get? current with
    | none => return []
    | some shape => do
      let (pointer, isNew) ← takePointer types current
      let below ← takeLevels types depth shape.base
      return ⟨pointer, current, shape.kind, shape.size, isNew⟩ :: below

/-- Zero constants of levels given innermost first, each with an id taken for it. `inner` is the
constant of the level below, if there is one. Gives the constants and the id of the outermost. -/
def takeConstants : Option UInt32 → List PrivateLevel → Work (List (List UInt32) × UInt32)
  | inner, [] => return ([], inner.getD 0)
  | inner, level :: outer => do
    let id ← takeId
    let own ← check (zeroConstant? id level inner)
    let (constants, outermost) ← takeConstants (some id) outer
    return (own :: constants, outermost)

/-- Writes the new type of one access chain after the other. A chain that is too deep leaves those
in front of it written. -/
def retypeChains (levels : List PrivateLevel) (variableId : UInt32) :
    OrderedMap UInt32 Nat → List AccessChain → Work Unit
  | _, [] => return ()
  | depths, chain :: rest =>
    match chain.depth? variableId depths with
    | none => retypeChains levels variableId depths rest
    | some depth =>
      match levels[depth]? with
      | none => throw (.chainTooDeep chain.result depth variableId levels.length)
      | some level => do
        set (← MonadExcept.ofExcept ((← get).writeWord (chain.offset + 1) level.pointer))
        retypeChains levels variableId (depths.insert chain.result depth) rest

/-- Reads all access chains of the buffer before it writes the first. -/
def readChains : Work (List AccessChain) := do
  MonadExcept.ofExcept (((← get).instructions.filter (·.isAccessChain)).mapM AccessChain.read)

/-- Puts a private variable in the place of an input, whose levels have pointers already. -/
def replaceInput (levels : List PrivateLevel) (input : InputVariable) : Work Unit := do
  let (constants, initializer) ← takeConstants none levels.reverse
  let outermost ← check levels.head?
  let declaration := encode Op.declareVariable
    [outermost.pointer, input.id, Storage.privateClass, initializer]
  edit (replaceVariable? · input.offset (pointerDeclarations levels ++ constants ++ [declaration]))
  edit (unlistInput? · input.id)
  edit (dropLocation? · input.id)
  retypeChains levels input.id {} (← readChains)

/-- Replaces an input if its type has levels, and tells whether it has. -/
def removeInput (types : TypeTable) (input : InputVariable) : Work Bool :=
  match types.get? input.typeId with
  | some (.pointer pointee _) => do
    let levels ← takeLevels types types.size pointee
    if levels.isEmpty then return false
    replaceInput levels input
    return true
  | _ => return false

/-- Removes the input at a location and tells whether there was anything to remove. -/
def eliminateInPlace (location : UInt32) : Work Bool := do
  match findInput (← get) location with
  | (_, none) => return false
  | (types, some input) => removeInput types input

/-- The same on a copy, which takes the place of the buffer only if the input has been removed. -/
def eliminateOnCopy (location : UInt32) : Work Bool := fun code =>
  match eliminateInPlace location code with
  | .ok true copy => .ok true copy
  | .ok false _ => .ok false code
  | .error error _ => .error error code

end Work

/-- Does something at each set bit of a mask, the lowest first. -/
def forEachBit {m : Type → Type} [Monad m] (mask : UInt32) (action : UInt32 → m Unit) : m Unit :=
  if _h : mask = 0 then pure ()
  else do
    action (UInt32.ofNat (lowestBit mask))
    forEachBit (clearLowest mask) action
termination_by mask.toNat
decreasing_by exact clearLowest_lt ‹_›

/-- A specialized copy of a template, made by changing one buffer step by step. -/
def specializeInPlace (template : Code) (survey : Survey) (bindings : Bindings)
    (variant : Variant) : Except PatchError Code := do
  let code ← remapSlots survey bindings template
  let code ← if variant.dualSourceBlend then swapBlendOutput survey code else pure code
  let (_, code) ← Work.outcome (forEachBit variant.unwrittenInputs
    fun location => discard (Work.eliminateInPlace location)) code
  return code

end ShaderBackend.Spirv
