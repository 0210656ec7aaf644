import ShaderBackend.Shader.Basic
import ShaderBackend.Vulkan.PassDescription
/-!
Objects on a Vulkan device. The driver answers each creation with a result code and a handle; every
code but success makes the creation fail, and running out of memory is a fault of its own.
-/
namespace ShaderBackend.Vulkan

open Render

/-- A call to the driver. -/
inductive Call where
  | createModule (size : Nat) (words : List UInt32)
  | createPass (description : PassDescription)
  | destroyModule (handle : UInt64)
  | destroyPass (handle : UInt64)
  deriving DecidableEq, Repr

/-- The driver's answer to a creation. -/
structure Answer where
  result : Int
  handle : UInt64
  deriving DecidableEq, Repr

/-- Result codes that have a name here. -/
def resultNames : List (Int × String) := [
  (1, "NOT_READY"),
  (5, "INCOMPLETE"),
  (-3, "ERROR_INITIALIZATION_FAILED"),
  (-4, "ERROR_DEVICE_LOST"),
  (-5, "ERROR_MEMORY_MAP_FAILED"),
  (-6, "ERROR_LAYER_NOT_PRESENT"),
  (-7, "ERROR_EXTENSION_NOT_PRESENT"),
  (-8, "ERROR_FEATURE_NOT_PRESENT"),
  (-9, "ERROR_INCOMPATIBLE_DRIVER"),
  (-10, "ERROR_TOO_MANY_OBJECTS"),
  (-11, "ERROR_FORMAT_NOT_SUPPORTED"),
  (-12, "ERROR_FRAGMENTED_POOL"),
  (-13, "ERROR_UNKNOWN"),
  (-1000069000, "ERROR_OUT_OF_POOL_MEMORY")]

/-- Name of a result code, or its decimal number. -/
def resultText (code : Int) : String := (resultNames.lookup code).getD (toString code)

/-- The fault of a creation that the driver refused; `what` names the object. -/
def refusal (code : Int) (what : String) : Fault :=
  if code = -1 ∨ code = -2 then .outOfMemory
  else .backend s!"Failed to create {what}: {resultText code}"

/-- The handle, or the fault of a refusal. -/
def Answer.toExcept (answer : Answer) (what : String) : Except Fault UInt64 :=
  if answer.result = 0 then .ok answer.handle else .error (refusal answer.result what)

/-- The diagnostic form of a handle. -/
def handleText (handle : UInt64) : String := "0x" ++ Text.hex handle.toNat

/-- A device: the answers that its driver will give, the calls it has had and the entries logged,
both in order. Where no answer is left the driver succeeds with the null handle. -/
structure Device where
  threshold : Log.Threshold
  answers : List Answer := []
  calls : List Call := []
  entries : List Log.Entry := []
  deriving DecidableEq, Repr

namespace Device

def logSource : String := "bridge::vulkan"

/-- The next answer of the driver to a call. -/
def call (device : Device) (call : Call) : Answer × Device :=
  (device.answers.headD ⟨0, 0⟩,
    { device with answers := device.answers.tail, calls := device.calls ++ [call] })

/-- Logs a debug entry. -/
def note (device : Device) (message : String) : Device :=
  { device with entries := device.entries ++ device.threshold.note .debug logSource message }

/-- Shader modules on a device. -/
def modules : Factory Device Shader.ModuleRequest UInt64 where
  create request device :=
    let (answer, device) := device.call (.createModule request.code.size request.code.words)
    match answer.toExcept "shader module" with
    | .error cause => (.error cause, device)
    | .ok handle => (.ok handle, device.note
        (s!"Created {request.stage.name} shader module " ++ handleText handle
          ++ s!" ({request.code.size} bytes)"))
  destroy handle device := (device.call (.destroyModule handle)).2

/-- Render passes on a device. -/
def passes : Factory Device PassPlan UInt64 where
  create plan device :=
    let description := PassDescription.ofPlan plan
    let (answer, device) := device.call (.createPass description)
    match answer.toExcept "render pass" with
    | .error cause => (.error cause, device)
    | .ok handle => (.ok handle, device.note
        ("Created render pass " ++ handleText handle
          ++ s!" with {description.attachments.length} attachments"))
  destroy handle device := (device.call (.destroyPass handle)).2

end Device
end ShaderBackend.Vulkan
