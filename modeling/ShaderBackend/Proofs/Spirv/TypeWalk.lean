import Mathlib.Data.List.Perm.Subperm
import ShaderBackend.Proofs.Spirv.Recorded

/-! The walk from a type down to the first id that is not recorded. It has no bound of its own. A
walk that ends meets no type twice, so that it is never longer than the table, and the levels of a
type are exactly the types that it meets. -/
namespace ShaderBackend.Spirv

/-- The recorded types from one id on, each made of the next. The last one leads to an id that is
not recorded. -/
inductive TypeTable.Walk {Node : Type} [TypeNode Node] (types : TypeTable Node) :
    UInt32 → List UInt32 → Prop where
  | stop {id : UInt32} : types.get? id = none → Walk types id []
  | step {id : UInt32} {node : Node} {below : List UInt32} : types.get? id = some node →
      Walk types (TypeNode.parts node).base below → Walk types id (id :: below)

/-- The walk from a type gets to a recorded scalar and no further. -/
def TypeTable.EndsInScalar (types : TypeTable) (root : UInt32) : Prop :=
  ∃ path leaf width, types.Walk root path ∧ path.getLast? = some leaf ∧
    types.get? leaf = some (.scalar width)

namespace TypeTable.Walk

variable {Node : Type} [TypeNode Node] {types : TypeTable Node} {root : UInt32} {path : List UInt32}

theorem unique {other : List UInt32} (h : types.Walk root path) (hOther : types.Walk root other) :
    path = other := by
  induction h generalizing other with
  | stop hNone =>
      cases hOther with
      | stop => rfl
      | step hSome => cases hNone.symm.trans hSome
  | step hSome _ ih =>
      cases hOther with
      | stop hNone => cases hNone.symm.trans hSome
      | step hSame hBelow =>
          cases hSome.symm.trans hSame
          rw [ih hBelow]

/-- Every type on the way is recorded, and from there the walk goes on as before. -/
theorem exists_split (h : types.Walk root path) {id : UInt32} (hMem : id ∈ path) :
    ∃ above below node, path = above ++ id :: below ∧ types.get? id = some node ∧
      types.Walk (TypeNode.parts node).base below := by
  induction h with
  | stop => cases hMem
  | @step current node below hSome hBelow ih =>
      rcases List.mem_cons.1 hMem with rfl | hLater
      · exact ⟨[], below, node, rfl, hSome, hBelow⟩
      · obtain ⟨above, rest, found, hSplit, hFound⟩ := ih hLater
        exact ⟨current :: above, rest, found, by rw [hSplit, List.cons_append], hFound⟩

/-- A type that is met again leads to the same rest, which would then be a part of itself. -/
theorem nodup (h : types.Walk root path) : path.Nodup := by
  induction h with
  | stop => exact List.nodup_nil
  | @step current node below hSome hBelow ih =>
      refine List.nodup_cons.2 ⟨fun hAgain => ?_, ih⟩
      obtain ⟨above, rest, found, hSplit, hFound, hRest⟩ := hBelow.exists_split hAgain
      cases hSome.symm.trans hFound
      have hLength := congrArg List.length (hBelow.unique hRest)
      rw [hSplit, List.length_append, List.length_cons] at hLength
      omega

theorem length_le_size (h : types.Walk root path) : path.length ≤ types.size := by
  have hKeys : path ⊆ types.keys := by
    intro id hMem
    obtain ⟨-, -, node, -, hSome, -⟩ := h.exists_split hMem
    exact List.mem_map.2 ⟨(id, node), OrderedMap.mem_of_get? hSome, rfl⟩
  have hLength := (h.nodup.subperm hKeys).length_le
  rwa [OrderedMap.keys, List.length_map] at hLength

theorem ends (h : types.Walk root path) {leaf : UInt32} (hLast : path.getLast? = some leaf) :
    ∃ node, types.get? leaf = some node ∧ types.get? (TypeNode.parts node).base = none := by
  induction h with
  | stop => cases hLast
  | @step current node below hSome hBelow ih =>
      cases hBelow with
      | stop hNone =>
          cases hLast
          exact ⟨node, hSome, hNone⟩
      | step => exact ih (by rwa [List.getLast?_cons_cons] at hLast)

end TypeTable.Walk

section Levels

variable {Node : Type} [TypeNode Node] {types : TypeTable Node} {ids : Nat → UInt32}
  {root : UInt32}

/-- The levels follow the walk as far as their number reaches. -/
theorem map_pointee_levelsFrom {path : List UInt32} (h : types.Walk root path) (depth used : Nat) :
    (types.levelsFrom ids depth used root).map (·.pointee) = path.take depth := by
  induction h generalizing depth used with
  | stop hNone => rw [levelsFrom_eq_nil hNone, List.take_nil, List.map_nil]
  | step hSome _ ih =>
      cases depth with
      | zero => rfl
      | succ depth =>
          obtain ⟨level, -, hPointee, hCons⟩ := exists_levelsFrom_eq_cons hSome ids depth used
          rw [hCons, List.map_cons, hPointee, ih, List.take_succ_cons]

/-- The bound of the levels cuts no walk short. -/
theorem map_pointee_privateLevels {path : List UInt32} (h : types.Walk root path)
    (ids : Nat → UInt32) : (types.privateLevels ids root).map (·.pointee) = path := by
  rw [TypeTable.privateLevels, map_pointee_levelsFrom h, List.take_of_length_le h.length_le_size]

/-- Levels whose last one leads to no recorded type are a walk. -/
theorem walk_of_getLast? {depth used : Nat} {last : PrivateLevel} {node : Node}
    (hLast : (types.levelsFrom ids depth used root).getLast? = some last)
    (hNode : types.get? last.pointee = some node)
    (hEnd : types.get? (TypeNode.parts node).base = none) :
    types.Walk root ((types.levelsFrom ids depth used root).map (·.pointee)) := by
  induction depth generalizing used root with
  | zero => cases hLast
  | succ depth ih =>
      cases hRoot : types.get? root with
      | none =>
          rw [levelsFrom_eq_nil hRoot] at hLast
          cases hLast
      | some found =>
          obtain ⟨level, -, hPointee, hCons⟩ := exists_levelsFrom_eq_cons hRoot ids depth used
          rw [hCons] at hLast ⊢
          rw [List.map_cons, hPointee]
          refine .step hRoot ?_
          cases hBelow : types.levelsFrom ids depth (used + newPointers [level])
              (TypeNode.parts found).base with
          | nil =>
              rw [hBelow, List.getLast?_singleton, Option.some.injEq] at hLast
              rw [← hLast, hPointee, hRoot, Option.some.injEq] at hNode
              rw [hNode]
              exact .stop hEnd
          | cons below rest =>
              rw [← hBelow]
              refine ih ?_
              rw [hBelow, List.getLast?_cons_cons] at hLast
              rw [hBelow, hLast]

end Levels

/-- Whether a walk ends in a scalar shows at the last level, unless the walk goes on from there
because some type has the id zero. -/
theorem endsInScalar_iff {types : TypeTable} {ids : Nat → UInt32} {root : UInt32}
    {last : PrivateLevel}
    (hLast : (types.privateLevels ids root).getLast? = some last) :
    types.EndsInScalar root ↔
      (∃ width, types.get? last.pointee = some (.scalar width)) ∧ types.get? 0 = none := by
  constructor
  · rintro ⟨path, leaf, width, hWalk, hLeaf, hScalar⟩
    obtain ⟨shape, hShape, hEnd⟩ := hWalk.ends hLeaf
    cases hScalar.symm.trans hShape
    have hSame : leaf = last.pointee := by
      rw [← map_pointee_privateLevels hWalk ids, List.getLast?_map, hLast] at hLeaf
      exact (Option.some.inj hLeaf).symm
    exact ⟨⟨width, hSame ▸ hScalar⟩, hEnd⟩
  · rintro ⟨⟨width, hScalar⟩, hZero⟩
    refine ⟨_, last.pointee, width, walk_of_getLast? hLast hScalar hZero, ?_, hScalar⟩
    rw [List.getLast?_map]
    exact congrArg (Option.map PrivateLevel.pointee) hLast

end ShaderBackend.Spirv
