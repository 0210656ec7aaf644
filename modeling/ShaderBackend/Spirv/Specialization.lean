import ShaderBackend.Spirv.Checked
/-!
Specialization of a template: slots become binding ids, the second blend output trades its
location for its index where a pipeline blends from two sources, and inputs that no earlier stage
writes are removed, the lowest location first. The template itself stays as it is.
-/
namespace ShaderBackend.Spirv

/-- Ids from here on are final and never looked up. -/
def slotLimit : UInt32 := 1216

/-- Final ids of the declared slots. -/
abbrev Bindings := UInt32 → Option UInt32

/-- What may differ between two specializations of one template. -/
structure Variant where
  dualSourceBlend : Bool := false
  /-- Bit `n` is set if no earlier stage writes the input at location `n`. -/
  unwrittenInputs : UInt32 := 0
  deriving DecidableEq, Repr

/-- Replaces the slot at `offset` by its binding id. -/
def remapSlot (bindings : Bindings) (code : Code) (offset : Nat) : Except PatchError Code := do
  let slot ← code.readWord offset
  if slot < slotLimit then
    match bindings slot with
    | some binding => code.writeWord offset binding
    | none => .error (.unboundSlot slot)
  else return code

/-- Replaces every slot, in stream order. -/
def remapSlots (survey : Survey) (bindings : Bindings) (code : Code) :
    Except PatchError Code :=
  survey.slotOffsets.foldlM (remapSlot bindings) code

/-- Exchanges location and index of the second blend output, if there is one. -/
def swapBlendOutput (survey : Survey) (code : Code) : Except PatchError Code :=
  match survey.offset? .outputLocation1, survey.offset? .outputIndex1 with
  | some location, some index => do
    let l ← code.readWord location
    let i ← code.readWord index
    let code ← code.writeWord location i
    code.writeWord index l
  | _, _ => .ok code

/-- Number of the lowest set bit; 32 if none is set. -/
def lowestBit (mask : UInt32) : Nat :=
  ((List.range 32).find? fun n => mask.toNat.testBit n).getD 32

/-- The mask without its lowest set bit. -/
def clearLowest (mask : UInt32) : UInt32 := mask &&& (mask - 1)

theorem clearLowest_lt {mask : UInt32} (h : mask ≠ 0) : (clearLowest mask).toNat < mask.toNat := by
  have hp : 0 < mask.toNat := Nat.pos_of_ne_zero fun e => h (UInt32.toNat_inj.1 e)
  have hm := UInt32.toNat_lt mask
  have hs : (mask - 1).toNat = mask.toNat - 1 := by
    have he : (1 : UInt32).toNat = 1 := rfl
    rw [UInt32.toNat_sub, he]
    omega
  calc
    (clearLowest mask).toNat = mask.toNat &&& (mask - 1).toNat := UInt32.toNat_and ..
    _ ≤ (mask - 1).toNat := Nat.and_le_right
    _ < mask.toNat := by omega

/-- Removes the inputs at the set bits of a mask, the lowest first. -/
def eliminateAll (mask : UInt32) (code : Code) : Except PatchError Code :=
  if _h : mask = 0 then .ok code
  else
    match eliminateWithin code (UInt32.ofNat (lowestBit mask)) with
    | .error e => .error e
    | .ok changed => eliminateAll (clearLowest mask) (changed.getD code)
termination_by mask.toNat
decreasing_by exact clearLowest_lt ‹_›

/-- A specialized copy of a template. -/
def specialize (template : Code) (survey : Survey) (bindings : Bindings)
    (variant : Variant) : Except PatchError Code := do
  let code ← remapSlots survey bindings template
  let code ← if variant.dualSourceBlend then swapBlendOutput survey code else pure code
  eliminateAll variant.unwrittenInputs code

end ShaderBackend.Spirv
