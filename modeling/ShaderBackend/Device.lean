import ShaderBackend.Fault
/-!
Devices that create and destroy objects. A device is a state with two operations; the library owns
every handle that it receives and gives it back once.
-/
namespace ShaderBackend

/-- How objects described by `Request` are created and destroyed on a device with this state. -/
structure Factory (State Request Handle : Type) where
  create : Request → State → Except Fault Handle × State
  destroy : Handle → State → State

/-- A device that hands out the numbers one, two, three and so on, and writes down what it is asked
for. It can be told to refuse. -/
structure LedgerDevice (Request : Type) where
  /-- The last handle given out, which is also their number. -/
  created : Nat := 0
  /-- Handles given back, in order. -/
  destroyed : List Nat := []
  /-- Requests granted, the latest first. -/
  granted : List Request := []
  /-- The answer to every request while the device refuses. -/
  refusal : Option Fault := none

namespace LedgerDevice

def factory (Request : Type) : Factory (LedgerDevice Request) Request Nat where
  create request device :=
    match device.refusal with
    | some fault => (.error fault, device)
    | none => (.ok (device.created + 1),
        { device with created := device.created + 1, granted := request :: device.granted })
  destroy handle device := { device with destroyed := device.destroyed ++ [handle] }

end LedgerDevice
end ShaderBackend
