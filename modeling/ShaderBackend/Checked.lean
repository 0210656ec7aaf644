import ShaderBackend.Fault
/-!
Arithmetic on numbers of a fixed width, with every result checked that can leave the width. A check
that nothing in the program catches ends it.
-/
namespace ShaderBackend

/-- A sum of 32 bits; `none` if it takes more. -/
def sum32? (a b : UInt32) : Option UInt32 :=
  if a.toNat + b.toNat < UInt32.size then some (a + b) else none

/-- A difference of 32 bits; `none` below zero. -/
def difference32? (a b : UInt32) : Option UInt32 := if b ≤ a then some (a - b) else none

/-- A product of 32 bits; `none` if it takes more. -/
def product32? (a b : UInt32) : Option UInt32 :=
  if a.toNat * b.toNat < UInt32.size then some (a * b) else none

/-- A sum of 64 bits; `none` if it takes more. -/
def sum64? (a b : Nat) : Option Nat := if a + b < UInt64.size then some (a + b) else none

/-- A difference of numbers of words; `none` below zero. -/
def difference? (a b : Nat) : Option Nat := if b ≤ a then some (a - b) else none

def orAbort {α : Type} : Option α → Except Failure α
  | some value => .ok value
  | none => .error .abort

end ShaderBackend
