/-!
Elements of a signature: a semantic (name and index) bound to components of a register.
-/
namespace ShaderBackend.Signature

/-- A set of the four components of a register, x in the lowest bit. -/
structure Components where
  bits : BitVec 4
  deriving DecidableEq, Repr

namespace Components

def empty : Components := ⟨0⟩

def xyzw : Components := ⟨0xf⟩

/-- The low four bits of a number. -/
def ofNat (n : Nat) : Components := ⟨BitVec.ofNat 4 n⟩

def toNat (m : Components) : Nat := m.bits.toNat

def union (m n : Components) : Components := ⟨m.bits ||| n.bits⟩

/-- Whether every component of `n` is in `m`. -/
def contains (m n : Components) : Bool := m.bits &&& n.bits = n.bits

def isEmpty (m : Components) : Bool := m.bits = 0

def has (m : Components) (component : Nat) : Bool := m.bits.getLsbD component

/-- Number of components. -/
def size (m : Components) : Nat := (List.range 4).countP m.has

/-- The components by letter, an underscore for each that is missing. -/
def render (m : Components) : String :=
  String.ofList (['x', 'y', 'z', 'w'].mapIdx fun i c => if m.has i then c else '_')

end Components

/-- Scalar type of the components of an element. -/
inductive ComponentType where
  /-- Untyped data, read as unsigned. -/
  | unknown
  | uint32
  | sint32
  | float32
  deriving DecidableEq, Repr

namespace ComponentType

/-- The types in the order of their indices. -/
def all : List ComponentType := [unknown, uint32, sint32, float32]

def ofIndex? (index : UInt32) : Option ComponentType := all[index.toNat]?

def isUnsigned : ComponentType → Bool
  | unknown | uint32 => true
  | sint32 | float32 => false

def name : ComponentType → String
  | unknown => "Unknown"
  | uint32 => "Uint32"
  | sint32 => "Sint32"
  | float32 => "Float32"

end ComponentType

/-- One element of a signature. -/
structure Entry where
  semanticName : String
  semanticIndex : UInt32
  /-- Code of the system value, zero for a value of the user. -/
  systemValue : UInt32
  componentType : ComponentType
  register : UInt32
  mask : Components
  /-- Output stream of a geometry shader, zero elsewhere. -/
  stream : UInt32
  deriving DecidableEq, Repr

def Entry.render (e : Entry) : String :=
  s!"{e.semanticName}{e.semanticIndex} -> v{e.register}.{e.mask.render} "
    ++ s!"({e.componentType.name}, sv {e.systemValue}, stream {e.stream})"

end ShaderBackend.Signature
