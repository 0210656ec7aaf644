import ShaderBackend.OrderedMap
import ShaderBackend.Spirv.Numbers
/-!
Type declarations of a module by id, and the private pointers that a variable of a type needs: one
pointer type for each level from the type itself down to its scalars.
-/
namespace ShaderBackend.Spirv

/-- One type declaration. -/
inductive TypeShape where
  | scalar (width : UInt32)
  | vector (component count : UInt32)
  /-- An array whose length is a known constant. -/
  | array (element length : UInt32)
  | pointer (pointee storage : UInt32)
  deriving DecidableEq, Repr

inductive TypeKind where
  | scalar
  | vector
  | array
  | pointer
  deriving DecidableEq, Repr

namespace TypeKind

def all : List TypeKind := [scalar, vector, array, pointer]

/-- The name as diagnostics show it. -/
def title : TypeKind → String
  | scalar => "Scalar"
  | vector => "Vector"
  | array => "Array"
  | pointer => "Pointer"

end TypeKind

namespace TypeShape

def kind : TypeShape → TypeKind
  | scalar _ => .scalar
  | vector _ _ => .vector
  | array _ _ => .array
  | pointer _ _ => .pointer

/-- Id of the component, element or pointee type; a scalar has none and gives zero. -/
def base : TypeShape → UInt32
  | scalar _ => 0
  | vector component _ => component
  | array element _ => element
  | pointer pointee _ => pointee

/-- Bit width, component count or array length; a pointer has size zero. -/
def size : TypeShape → UInt32
  | scalar width => width
  | vector _ count => count
  | array _ length => length
  | pointer _ _ => 0

def storage? : TypeShape → Option UInt32
  | pointer _ storage => some storage
  | _ => none

end TypeShape

/-- The parts of a type declaration on their own. Nothing makes them fit together. -/
structure TypeParts where
  kind : TypeKind
  base : UInt32
  size : UInt32
  storage? : Option UInt32
  deriving DecidableEq, Repr

/-- Whether a declaration is a pointer to `pointee` in a storage class. -/
def TypeParts.pointsTo (pointee storage : UInt32) (parts : TypeParts) : Bool :=
  parts.kind = .pointer && parts.base = pointee && parts.storage? = some storage

def TypeShape.parts (shape : TypeShape) : TypeParts :=
  ⟨shape.kind, shape.base, shape.size, shape.storage?⟩

/-- What a table of types may hold, which is all that shows the parts of a declaration. A module
gives shapes only, whose parts fit together, while nothing below relies on that. -/
class TypeNode (Node : Type) where
  parts : Node → TypeParts

instance : TypeNode TypeShape := ⟨TypeShape.parts⟩

instance : TypeNode TypeParts := ⟨id⟩

/-- The declarations in the order in which their ids first appear. -/
abbrev TypeTable (Node : Type := TypeShape) := OrderedMap UInt32 Node

/-- One level of a type with the private pointer type to it. -/
structure PrivateLevel where
  pointer : UInt32
  /-- The type of the level. -/
  pointee : UInt32
  kind : TypeKind
  /-- Size of the type. -/
  size : UInt32
  /-- Whether the pointer type is new and has to be declared. -/
  isNew : Bool
  deriving DecidableEq, Repr

namespace TypeTable

open TypeNode (parts)

variable {Node : Type} [TypeNode Node]

/-- Id of the first declared pointer to `pointee` in a storage class. -/
def pointerTo? (types : TypeTable Node) (pointee storage : UInt32) : Option UInt32 :=
  (types.entries.find? fun entry => (parts entry.2).pointsTo pointee storage).map (·.1)

/-- Walks from a type to its component types for at most `depth` levels. New pointers take their
ids from `ids`, starting with number `used`. -/
def levelsFrom (types : TypeTable Node) (ids : Nat → UInt32) :
    Nat → Nat → UInt32 → List PrivateLevel
  | 0, _, _ => []
  | depth + 1, used, current =>
    match types.get? current with
    | none => []
    | some node =>
      match types.pointerTo? current Storage.privateClass with
      | some pointer => ⟨pointer, current, (parts node).kind, (parts node).size, false⟩ ::
          levelsFrom types ids depth used (parts node).base
      | none => ⟨ids used, current, (parts node).kind, (parts node).size, true⟩ ::
          levelsFrom types ids depth (used + 1) (parts node).base

/-- Private pointers for `root` and every type below it, outermost first, down to the first id
that is not recorded. A walk that meets no type twice has at most one level per recorded type, so
the bound cuts off only walks that go round in a circle. -/
def privateLevels (types : TypeTable Node) (ids : Nat → UInt32) (root : UInt32) :
    List PrivateLevel :=
  levelsFrom types ids types.size 0 root

end TypeTable

/-- Number of pointer types that have to be declared. -/
def newPointers (levels : List PrivateLevel) : Nat := levels.countP (·.isNew)

end ShaderBackend.Spirv
