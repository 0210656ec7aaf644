import Mathlib.Data.List.Induction
import ShaderBackend.Proofs.Spirv.Search

/-! The levels of a type and the declarations that a private variable of the type
needs. Each level is found by so many steps from the type to its component
types. The zero constants are given by level, which fixes their ids, their
order and what each one repeats. -/
namespace ShaderBackend.Spirv

/-- The id that a number of allocations after the bound yields. -/
def Code.freshId (code : Code) (count : Nat) : UInt32 := code.bound + UInt32.ofNat count

/-- The type reached by a number of steps to the component, element or pointee
type. An unknown type leads to zero, as a scalar does. -/
def elementType {Node : Type} [TypeNode Node] (types : TypeTable Node) (root : UInt32) :
    Nat → UInt32
  | 0 => root
  | depth + 1 =>
    elementType types (((types.get? root).map fun node => (TypeNode.parts node).base).getD 0) depth

/-- What the table says about a level and its pointer. -/
structure LevelFacts (types : TypeTable) (level : PrivateLevel) : Prop where
  known : ∃ shape, types.get? level.pointee = some shape ∧ level.size = shape.size
  reused : level.isNew = false →
    (level.pointer, TypeShape.pointer level.pointee Storage.privateClass) ∈ types.entries

/-- What a level says about its type, and where its pointer comes from. The ids of new pointers are
counted. -/
structure LevelOf {Node : Type} [TypeNode Node] (types : TypeTable Node) (ids : Nat → UInt32)
    (used : Nat) (level : PrivateLevel) : Prop where
  described : ∃ node, types.get? level.pointee = some node ∧
    level.kind = (TypeNode.parts node).kind ∧ level.size = (TypeNode.parts node).size
  pointer : (level.isNew = false ∧
      types.pointerTo? level.pointee Storage.privateClass = some level.pointer) ∨
    (level.isNew = true ∧ types.pointerTo? level.pointee Storage.privateClass = none ∧
      level.pointer = ids used)

/-- Kind, base and storage class are looked at, and the size is not. -/
theorem TypeParts.pointsTo_iff {pointee storage : UInt32} {parts : TypeParts} :
    parts.pointsTo pointee storage = true ↔
      parts.kind = .pointer ∧ parts.base = pointee ∧ parts.storage? = some storage := by
  rw [pointsTo, Bool.and_eq_true, Bool.and_eq_true, decide_eq_true_iff, decide_eq_true_iff,
    decide_eq_true_iff, and_assoc]

@[simp] theorem TypeNode.parts_shape (shape : TypeShape) :
    TypeNode.parts shape = ⟨shape.kind, shape.base, shape.size, shape.storage?⟩ := rfl

/-- The parts of a shape tell whether it is a pointer, and which one. -/
theorem TypeShape.pointsTo_parts_iff {pointee storage : UInt32} {shape : TypeShape} :
    shape.parts.pointsTo pointee storage = true ↔ shape = .pointer pointee storage := by
  rw [TypeParts.pointsTo_iff]
  cases shape <;> simp [parts, kind, base, storage?]

/-- A pointer that a search finds is declared as one. -/
theorem exists_of_pointerTo? {Node : Type} [TypeNode Node] {types : TypeTable Node}
    {pointee storage pointer : UInt32} (h : types.pointerTo? pointee storage = some pointer) :
    ∃ node, (pointer, node) ∈ types.entries ∧
      (TypeNode.parts node).pointsTo pointee storage = true := by
  obtain ⟨entry, hFind, rfl⟩ := Option.map_eq_some_iff.1 h
  have hPoints := List.find?_some hFind
  exact ⟨entry.2, List.mem_of_find?_eq_some hFind, hPoints⟩

theorem mem_of_pointerTo? {types : TypeTable} {pointee storage pointer : UInt32}
    (h : types.pointerTo? pointee storage = some pointer) :
    (pointer, TypeShape.pointer pointee storage) ∈ types.entries := by
  obtain ⟨shape, hMem, hPoints⟩ := exists_of_pointerTo? h
  exact TypeShape.pointsTo_parts_iff.1 hPoints ▸ hMem

theorem newPointers_cons (level : PrivateLevel) (levels : List PrivateLevel) :
    newPointers (level :: levels) = newPointers [level] + newPointers levels := by
  rw [← List.singleton_append]
  exact List.countP_append

section Levels

variable {Node : Type} [TypeNode Node] {types : TypeTable Node} {ids : Nat → UInt32} {depth used : Nat}
  {root : UInt32} {level : PrivateLevel}

/-- An unknown type has no levels, whatever the bound. -/
theorem levelsFrom_eq_nil (hNone : types.get? root = none) (ids : Nat → UInt32) (depth used : Nat) :
    types.levelsFrom ids depth used root = [] := by
  cases depth with
  | zero => rfl
  | succ depth => simp only [TypeTable.levelsFrom, hNone]

/-- The first level of a recorded type, and those below it. -/
theorem exists_levelsFrom_eq_cons {node : Node} (hSome : types.get? root = some node)
    (ids : Nat → UInt32) (depth used : Nat) :
    ∃ level, LevelOf types ids used level ∧ level.pointee = root ∧
      types.levelsFrom ids (depth + 1) used root =
        level :: types.levelsFrom ids depth (used + newPointers [level])
          (TypeNode.parts node).base := by
  rw [TypeTable.levelsFrom]
  simp only [hSome]
  cases hPointer : types.pointerTo? root Storage.privateClass with
  | some pointer => exact ⟨_, ⟨⟨node, hSome, rfl, rfl⟩, Or.inl ⟨rfl, hPointer⟩⟩, rfl, rfl⟩
  | none => exact ⟨_, ⟨⟨node, hSome, rfl, rfl⟩, Or.inr ⟨rfl, hPointer, rfl⟩⟩, rfl, rfl⟩

/-- Every level is described by its type alone. New pointers in front of it say which id it
takes. -/
theorem levelOf_of_split {before behind : List PrivateLevel}
    (h : types.levelsFrom ids depth used root = before ++ level :: behind) :
    LevelOf types ids (used + newPointers before) level := by
  induction depth generalizing used root before with
  | zero => simp [TypeTable.levelsFrom] at h
  | succ depth ih =>
      cases hNode : types.get? root with
      | none => simp [levelsFrom_eq_nil hNode] at h
      | some node =>
          obtain ⟨first, hFirst, -, hCons⟩ := exists_levelsFrom_eq_cons hNode ids depth used
          rw [hCons] at h
          cases before with
          | nil =>
              cases h
              exact hFirst
          | cons above before =>
              rw [List.cons_append, List.cons.injEq] at h
              rw [newPointers_cons, ← h.1, ← Nat.add_assoc]
              exact ih h.2

/-- A level belongs to the type that lies as many steps below the root. -/
theorem levelsFrom_pointee {place : Nat}
    (h : (types.levelsFrom ids depth used root)[place]? = some level) :
    level.pointee = elementType types root place := by
  induction depth generalizing used place root with
  | zero => simp [TypeTable.levelsFrom] at h
  | succ depth ih =>
      cases hNode : types.get? root with
      | none => simp [levelsFrom_eq_nil hNode] at h
      | some node =>
          obtain ⟨first, -, hPointee, hCons⟩ := exists_levelsFrom_eq_cons hNode ids depth used
          rw [hCons] at h
          cases place with
          | zero =>
              rw [List.getElem?_cons_zero, Option.some.injEq] at h
              rw [← h, hPointee, elementType]
          | succ place =>
              rw [elementType, hNode]
              exact ih h

/-- The new pointers take the fresh ids in order, from the first one on. -/
theorem newPointer_ids :
    ((types.levelsFrom ids depth used root).filter (·.isNew)).map (·.pointer) =
      (List.range' used (newPointers (types.levelsFrom ids depth used root))).map ids := by
  induction depth generalizing used root with
  | zero => simp [TypeTable.levelsFrom, newPointers]
  | succ depth ih =>
      cases hNode : types.get? root with
      | none => simp [levelsFrom_eq_nil hNode, newPointers]
      | some node =>
          obtain ⟨first, hFirst, -, hCons⟩ := exists_levelsFrom_eq_cons hNode ids depth used
          rw [hCons, newPointers_cons first (types.levelsFrom ..), ← List.range'_append_1,
            List.map_append, ← ih]
          rcases hFirst.pointer with ⟨hOld, -⟩ | ⟨hNew, -, hId⟩
          · simp [newPointers, hOld]
          · simp [newPointers, hNew, hId]

end Levels

/-- For the declarations it is enough that the type of a level and a reused pointer are recorded. -/
theorem levelsFrom_facts {types : TypeTable} {ids : Nat → UInt32} {depth used : Nat}
    {root : UInt32} {level : PrivateLevel}
    (h : level ∈ types.levelsFrom ids depth used root) : LevelFacts types level := by
  obtain ⟨before, behind, hSplit⟩ := List.append_of_mem h
  have hLevel := levelOf_of_split hSplit
  obtain ⟨shape, hShape, -, hSize⟩ := hLevel.described
  refine ⟨⟨shape, hShape, hSize⟩, fun hOld => ?_⟩
  rcases hLevel.pointer with ⟨-, hDeclared⟩ | ⟨hNew, -⟩
  · exact mem_of_pointerTo? hDeclared
  · cases hOld.symm.trans hNew

/-- A variable has levels only if its type is a recorded pointer, and then they
are those of the pointee. -/
theorem inputLevels_eq {types : TypeTable} {ids : Nat → UInt32} {input : InputVariable}
    (h : inputLevels types ids input ≠ []) :
    ∃ pointee storage, types.get? input.typeId = some (.pointer pointee storage) ∧
      inputLevels types ids input = types.levelsFrom ids types.size 0 pointee := by
  unfold inputLevels at h ⊢
  split at h
  · rename_i pointee storage hType
    exact ⟨pointee, storage, hType, rfl⟩
  · exact (h rfl).elim

/-- The id of the zero constant of a level. Constants take their ids after the
new pointers, the innermost level first. -/
def constantId (ids : Nat → UInt32) (levels : List PrivateLevel) (depth : Nat) : UInt32 :=
  ids (newPointers levels + (levels.length - 1 - depth))

/-- The zero constant of a level: a plain constant for the innermost one, and
otherwise as many copies of the constant below as the type has elements. -/
def zeroConstant (ids : Nat → UInt32) (levels : List PrivateLevel) (depth : Nat)
    (level : PrivateLevel) : List UInt32 :=
  if depth + 1 = levels.length then
    encode Op.constant [level.pointee, constantId ids levels depth, 0]
  else
    encode Op.constantComposite (level.pointee :: constantId ids levels depth ::
      List.replicate level.size.toNat (constantId ids levels (depth + 1)))

/-- The private variable that takes the place of an input variable. -/
def privateVariable (ids : Nat → UInt32) (levels : List PrivateLevel) (id : UInt32) : List UInt32 :=
  encode Op.declareVariable [(levels.head?.map (·.pointer)).getD 0, id, Storage.privateClass,
    constantId ids levels 0]

/-- What stands in the place of an input variable: the new pointer types, the
zero constants from the innermost level outwards, and the private variable. -/
def declarations (ids : Nat → UInt32) (levels : List PrivateLevel) (id : UInt32) : Listing :=
  pointerDeclarations levels ++ (levels.mapIdx (zeroConstant ids levels)).reverse ++
    [privateVariable ids levels id]

/-- The constants are emitted while going outwards. The induction removes the
innermost of the levels still to come, which is the next one emitted. -/
theorem zeroConstants_reverse (ids : Nat → UInt32) (levels outer inner : List PrivateLevel)
    (hSplit : levels = outer ++ inner) (hLevels : levels ≠ []) :
    zeroConstants ids (newPointers levels + inner.length)
        (if inner = [] then none else some (constantId ids levels outer.length)) outer.reverse =
      ((outer.mapIdx (zeroConstant ids levels)).reverse, constantId ids levels 0) := by
  induction outer using List.reverseRecOn generalizing inner with
  | nil =>
      have hInner : inner ≠ [] := by
        rw [List.nil_append] at hSplit
        exact hSplit ▸ hLevels
      simp [zeroConstants, hInner]
  | append_singleton outer level ih =>
      have hLength : levels.length = outer.length + 1 + inner.length := by
        rw [hSplit, List.length_append, List.length_append, List.length_singleton]
      have hId : ids (newPointers levels + inner.length) = constantId ids levels outer.length := by
        rw [constantId]
        congr 2
        omega
      have hRest := ih (level :: inner) (by rw [hSplit, List.append_assoc, List.singleton_append])
      rw [List.length_cons, ← Nat.add_assoc, if_neg (by simp)] at hRest
      rw [List.reverse_concat, List.mapIdx_concat, List.reverse_concat]
      by_cases hInner : inner = []
      · have hLast : outer.length + 1 = levels.length := by simp [hLength, hInner]
        simp only [hInner, if_pos, zeroConstants, zeroConstant, hLast] at hId hRest ⊢
        rw [hId, hRest]
      · have hInside : outer.length + 1 ≠ levels.length := by
          have hPositive := List.length_pos_of_ne_nil hInner
          omega
        simp only [if_neg hInner, zeroConstants, zeroConstant, if_neg hInside, hId, hRest,
          List.length_append, List.length_singleton]

/-- The instructions that the program puts in are those given level by level. -/
theorem replacement_eq_declarations (ids : Nat → UInt32) {levels : List PrivateLevel}
    (h : levels ≠ []) (id : UInt32) : replacement ids levels id = declarations ids levels id := by
  have hConstants := zeroConstants_reverse ids levels levels [] (by simp) h
  rw [List.length_nil, Nat.add_zero, if_pos rfl] at hConstants
  simp only [replacement, hConstants, declarations, privateVariable]

/-- Three kinds of instructions are put in. -/
theorem mem_declarations {ids : Nat → UInt32} {levels : List PrivateLevel} {id : UInt32}
    {words : List UInt32} (h : words ∈ declarations ids levels id) :
    (∃ level ∈ levels, level.isNew = true ∧
      words = encode Op.typePointer [level.pointer, Storage.privateClass, level.pointee]) ∨
    (∃ depth level, levels[depth]? = some level ∧ words = zeroConstant ids levels depth level) ∨
    words = privateVariable ids levels id := by
  simp only [declarations, List.mem_append, List.mem_reverse, List.mem_singleton] at h
  rcases h with (hPointer | hConstant) | hVariable
  · obtain ⟨level, hMem, rfl⟩ := List.mem_map.1 hPointer
    obtain ⟨hLevel, hNew⟩ := List.mem_filter.1 hMem
    exact Or.inl ⟨level, hLevel, hNew, rfl⟩
  · obtain ⟨depth, hDepth, rfl⟩ := List.mem_mapIdx.1 hConstant
    exact Or.inr (Or.inl ⟨depth, levels[depth], List.getElem?_eq_getElem hDepth, rfl⟩)
  · exact Or.inr (Or.inr hVariable)

theorem dropLast_declarations (ids : Nat → UInt32) (levels : List PrivateLevel) (id : UInt32) :
    (declarations ids levels id).dropLast =
      pointerDeclarations levels ++ (levels.mapIdx (zeroConstant ids levels)).reverse := by
  rw [declarations, List.dropLast_concat]

theorem zeroConstant_mem_dropLast (ids : Nat → UInt32) {levels : List PrivateLevel} (id : UInt32)
    {depth : Nat} {level : PrivateLevel} (h : levels[depth]? = some level) :
    zeroConstant ids levels depth level ∈ (declarations ids levels id).dropLast := by
  obtain ⟨hDepth, rfl⟩ := List.getElem?_eq_some_iff.1 h
  rw [dropLast_declarations]
  exact List.mem_append_right _ (List.mem_reverse.2 (List.mem_mapIdx.2 ⟨depth, hDepth, rfl⟩))

/-- The constant of each level is among them. -/
theorem zeroConstant_mem {ids : Nat → UInt32} {levels : List PrivateLevel} (id : UInt32)
    {depth : Nat} {level : PrivateLevel} (h : levels[depth]? = some level) :
    zeroConstant ids levels depth level ∈ declarations ids levels id :=
  (List.dropLast_subset _) (zeroConstant_mem_dropLast ids id h)

/-- The variable has the pointer of the outermost level, and starts with the constant of that
level. -/
theorem privateVariable_eq (ids : Nat → UInt32) {levels : List PrivateLevel}
    {outermost : PrivateLevel} (h : levels[0]? = some outermost) (id : UInt32) :
    privateVariable ids levels id = encode Op.declareVariable
      [outermost.pointer, id, Storage.privateClass, constantId ids levels 0] := by
  rw [privateVariable, List.head?_eq_getElem?, h]
  rfl

/-- Only the constants of a large level can have a length field that is wrong. -/
theorem sized_zeroConstant_iff (ids : Nat → UInt32) (levels : List PrivateLevel) (depth : Nat)
    (level : PrivateLevel) :
    Sized (zeroConstant ids levels depth level) ↔
      depth + 1 = levels.length ∨ level.size.toNat ≤ 65532 := by
  rw [zeroConstant]
  split
  · rename_i hLast
    simp [sized_encode_iff, hLast]
  · rename_i hInside
    simp only [sized_encode_iff, List.length_cons, List.length_replicate, hInside, false_or]
    omega

/-- Whether the constant of every level but the innermost fits into an
instruction, whose length field has sixteen bits. -/
def Fits (levels : List PrivateLevel) : Prop :=
  ∀ level ∈ levels.dropLast, level.size.toNat ≤ 65532

instance : DecidablePred Fits := fun levels =>
  inferInstanceAs (Decidable (∀ level ∈ levels.dropLast, level.size.toNat ≤ 65532))

theorem mem_dropLast_iff {levels : List PrivateLevel} {level : PrivateLevel} :
    level ∈ levels.dropLast ↔ ∃ depth, depth + 1 < levels.length ∧ levels[depth]? = some level := by
  rw [List.mem_iff_getElem?]
  simp only [List.getElem?_dropLast]
  constructor
  · rintro ⟨depth, hDepth⟩
    split at hDepth
    · exact ⟨depth, by omega, hDepth⟩
    · cases hDepth
  · rintro ⟨depth, hDepth, hLevel⟩
    exact ⟨depth, by rw [if_pos (by omega), hLevel]⟩

/-- Only the length fields of constants can be too short for what they announce. -/
theorem sized_declarations_iff (ids : Nat → UInt32) (levels : List PrivateLevel) (id : UInt32) :
    (∀ words ∈ declarations ids levels id, Sized words) ↔ Fits levels := by
  constructor
  · intro hSized level hMem
    obtain ⟨depth, hDepth, hLevel⟩ := mem_dropLast_iff.1 hMem
    have hConstant := hSized _ (zeroConstant_mem id hLevel)
    rw [sized_zeroConstant_iff] at hConstant
    omega
  · intro hFits words hMem
    rcases mem_declarations hMem with ⟨level, -, -, rfl⟩ | ⟨depth, level, hLevel, rfl⟩ | rfl
    · simp [sized_encode_iff]
    · rw [sized_zeroConstant_iff]
      obtain ⟨hDepth, -⟩ := List.getElem?_eq_some_iff.1 hLevel
      by_cases hLast : depth + 1 = levels.length
      · exact Or.inl hLast
      · exact Or.inr (hFits level (mem_dropLast_iff.2 ⟨depth, by omega, hLevel⟩))
    · simp [privateVariable, sized_encode_iff]

end ShaderBackend.Spirv
