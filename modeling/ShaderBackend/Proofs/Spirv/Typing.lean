import Mathlib.Data.List.Induction
import ShaderBackend.Proofs.Spirv.Levels

/-! Types of the declarations that a private variable needs. Each declaration is
checked against the instructions in front of it, where every type and constant
that it names has to be declared. The checks go through because the zero
constants are emitted from the innermost level outwards. -/
namespace ShaderBackend.Spirv

@[simp] theorem is_encode (opcode other : UInt32) (operands : List UInt32) :
    (unplaced (encode opcode operands)).is other = (opcode &&& 0xffff == other) := by
  change (openingWord opcode _ &&& 0xffff == other) = _
  rw [openingWord_and]

@[simp] theorem arg_encode_succ (opcode : UInt32) (operands : List UInt32) (index : Nat) :
    (unplaced (encode opcode operands)).arg (index + 1) = operands.getD index 0 := rfl

/-- Whether an instruction declares a type of a kind that the search records. -/
def declaresType (words : List UInt32) : Bool :=
  let ins := unplaced words
  ins.is Op.typeInt || ins.is Op.typeFloat || ins.is Op.typeVector || ins.is Op.typeArray ||
    ins.is Op.typePointer

def declaresConstant (words : List UInt32) : Bool :=
  (unplaced words).is Op.constant || (unplaced words).is Op.constantComposite

/-- Whether a constant of a type with this id is declared. -/
def HasConstant (context : Listing) (typeId id : UInt32) : Prop :=
  ∃ words ∈ context, declaresConstant words = true ∧ (unplaced words).arg 1 = typeId ∧
    (unplaced words).arg 2 = id

/-- Whether a type of this shape is declared. -/
def HasType (context : Listing) (id : UInt32) (shape : TypeShape) : Prop :=
  ∃ words ∈ context, Declares id shape words

/-- An instruction whose types and constants are declared in front of it and fit
together. The size of a type is the one in the table, since the declaration of
an array only names its length. -/
inductive Typed (types : TypeTable) (context : Listing) : List UInt32 → Prop where
  | pointerType (pointer storage : UInt32) {pointee : UInt32} {shape : TypeShape} :
      HasType context pointee shape →
      Typed types context (encode Op.typePointer [pointer, storage, pointee])
  | constant (id value : UInt32) {typeId : UInt32} {shape : TypeShape} :
      HasType context typeId shape →
      Typed types context (encode Op.constant [typeId, id, value])
  | composite (id : UInt32) {typeId : UInt32} {shape : TypeShape} {elements : List UInt32} :
      HasType context typeId shape → types.get? typeId = some shape →
      elements.length = shape.size.toNat →
      (∀ element ∈ elements, HasConstant context shape.base element) →
      Typed types context (encode Op.constantComposite (typeId :: id :: elements))
  | initialized (id : UInt32) {pointer storage pointee initializer : UInt32} :
      HasType context pointer (.pointer pointee storage) →
      HasConstant context pointee initializer →
      Typed types context (encode Op.declareVariable [pointer, id, storage, initializer])

/-- Instructions each of which is typed by those in front of it. -/
def WellTyped (types : TypeTable) (context : Listing) : Listing → Prop
  | [] => True
  | words :: rest => Typed types context words ∧ WellTyped types (context ++ [words]) rest

variable {types : TypeTable} {ids : Nat → UInt32} {levels : List PrivateLevel}
  {context larger : Listing}

/-- What is typed in a context is typed one part after the other, with the first part in the context
of the second. -/
theorem wellTyped_append_iff {first second : Listing} :
    WellTyped types context (first ++ second) ↔
      WellTyped types context first ∧ WellTyped types (context ++ first) second := by
  induction first generalizing context with
  | nil => simp [WellTyped]
  | cons words rest ih => simp [WellTyped, ih, and_assoc]

theorem HasType.mono {id : UInt32} {shape : TypeShape}
    (h : HasType context id shape) (hSubset : context ⊆ larger) : HasType larger id shape := by
  obtain ⟨words, hMem, hDeclares⟩ := h
  exact ⟨words, hSubset hMem, hDeclares⟩

theorem HasConstant.mono {typeId id : UInt32}
    (h : HasConstant context typeId id) (hSubset : context ⊆ larger) :
    HasConstant larger typeId id := by
  obtain ⟨words, hMem, hConstant⟩ := h
  exact ⟨words, hSubset hMem, hConstant⟩

theorem elementType_succ (types : TypeTable) (root : UInt32) (depth : Nat) :
    elementType types root (depth + 1) =
      ((types.get? (elementType types root depth)).map TypeShape.base).getD 0 := by
  induction depth generalizing root with
  | zero => rfl
  | succ depth ih => exact ih _

/-- A level below another one is the component, element or pointee type of it. -/
theorem levelsFrom_base {bound used depth : Nat}
    {root : UInt32} {level next : PrivateLevel} {shape : TypeShape}
    (hLevel : (types.levelsFrom ids bound used root)[depth]? = some level)
    (hNext : (types.levelsFrom ids bound used root)[depth + 1]? = some next)
    (hShape : types.get? level.pointee = some shape) : next.pointee = shape.base := by
  rw [levelsFrom_pointee hNext, elementType_succ, ← levelsFrom_pointee hLevel, hShape]
  rfl

/-- Levels of a type that are all declared in a context. -/
structure LevelContext (types : TypeTable) (levels : List PrivateLevel) (context : Listing) :
    Prop where
  known : ∀ level ∈ levels, ∃ shape, types.get? level.pointee = some shape ∧
    level.size = shape.size ∧ HasType context level.pointee shape
  reused : ∀ level ∈ levels, level.isNew = false →
    HasType context level.pointer (.pointer level.pointee Storage.privateClass)
  base : ∀ depth level next shape, levels[depth]? = some level → levels[depth + 1]? = some next →
    types.get? level.pointee = some shape → next.pointee = shape.base

/-- More declarations in front do no harm. -/
theorem LevelContext.mono (h : LevelContext types levels context)
    (hSubset : context ⊆ larger) : LevelContext types levels larger where
  known level hMem := by
    obtain ⟨shape, hShape, hSize, hType⟩ := h.known level hMem
    exact ⟨shape, hShape, hSize, hType.mono hSubset⟩
  reused level hMem hOld := (h.reused level hMem hOld).mono hSubset
  base := h.base

/-- The levels of a type walk are declared where the types of the table are. -/
theorem levelContext_levelsFrom {bound used : Nat} {root : UInt32}
    (hDeclared : ∀ entry ∈ types.entries, HasType context entry.1 entry.2) :
    LevelContext types (types.levelsFrom ids bound used root) context where
  known level hMem := by
    obtain ⟨shape, hShape, hSize⟩ := (levelsFrom_facts hMem).known
    exact ⟨shape, hShape, hSize, hDeclared _ (OrderedMap.mem_of_get? hShape)⟩
  reused level hMem hOld := hDeclared _ ((levelsFrom_facts hMem).reused hOld)
  base _ _ _ _ hLevel hNext hShape := levelsFrom_base hLevel hNext hShape

/-- A new pointer needs its type, which the module declares. -/
theorem wellTyped_pointerDeclarations (h : LevelContext types levels context) :
    WellTyped types context (pointerDeclarations levels) := by
  have hAll : ∀ level ∈ levels.filter (·.isNew), ∃ shape, HasType context level.pointee shape := by
    intro level hMem
    obtain ⟨shape, -, -, hType⟩ := h.known level (List.mem_filter.1 hMem).1
    exact ⟨shape, hType⟩
  rw [pointerDeclarations]
  generalize levels.filter (·.isNew) = new at hAll
  clear h
  induction new generalizing context with
  | nil => trivial
  | cons level rest ih =>
      rw [List.forall_mem_cons] at hAll
      obtain ⟨⟨shape, hType⟩, hRest⟩ := hAll
      refine ⟨.pointerType _ _ hType, ih ?_⟩
      intro other hMem
      obtain ⟨shape, hOther⟩ := hRest other hMem
      exact ⟨shape, hOther.mono (List.subset_append_left _ _)⟩

/-- Whatever its level, a zero constant is a constant of the type of the level. -/
theorem declaresConstant_zeroConstant (ids : Nat → UInt32) (levels : List PrivateLevel)
    (depth : Nat) (level : PrivateLevel) :
    declaresConstant (zeroConstant ids levels depth level) = true ∧
      (unplaced (zeroConstant ids levels depth level)).arg 1 = level.pointee ∧
      (unplaced (zeroConstant ids levels depth level)).arg 2 = constantId ids levels depth := by
  unfold zeroConstant
  split <;> exact ⟨by rw [declaresConstant, is_encode, is_encode]; decide, rfl, rfl⟩

/-- A constant is typed if the one that it repeats is a constant of the type below. -/
theorem typed_zeroConstant (h : LevelContext types levels context) {depth : Nat}
    {level : PrivateLevel} (hLevel : levels[depth]? = some level)
    (hInner : ∀ next, levels[depth + 1]? = some next →
      HasConstant context next.pointee (constantId ids levels (depth + 1))) :
    Typed types context (zeroConstant ids levels depth level) := by
  obtain ⟨shape, hShape, hSize, hType⟩ := h.known level (List.mem_of_getElem? hLevel)
  rw [zeroConstant]
  split
  · exact .constant _ _ hType
  · rename_i hInside
    obtain ⟨hDepth, -⟩ := List.getElem?_eq_some_iff.1 hLevel
    obtain ⟨next, hNext⟩ : ∃ next, levels[depth + 1]? = some next :=
      ⟨levels[depth + 1], List.getElem?_eq_getElem (by omega)⟩
    refine .composite _ hType hShape (by rw [List.length_replicate, hSize]) ?_
    intro element hElement
    rw [List.eq_of_mem_replicate hElement, ← h.base depth level next shape hLevel hNext hShape]
    exact hInner next hNext

/-- The induction removes the innermost of the levels still to come. Its constant
joins the context, where the constant of the level around it looks for it. -/
theorem wellTyped_zeroConstants {outer inner : List PrivateLevel} (hSplit : levels = outer ++ inner)
    (h : LevelContext types levels context)
    (hInner : ∀ next, levels[outer.length]? = some next →
      HasConstant context next.pointee (constantId ids levels outer.length)) :
    WellTyped types context (outer.mapIdx (zeroConstant ids levels)).reverse := by
  induction outer using List.reverseRecOn generalizing inner context with
  | nil => trivial
  | append_singleton outer level ih =>
      have hLevel : levels[outer.length]? = some level := by simp [hSplit]
      rw [List.length_append, List.length_singleton] at hInner
      rw [List.mapIdx_concat, List.reverse_concat]
      refine ⟨typed_zeroConstant h hLevel hInner, ?_⟩
      apply ih (by rw [hSplit, List.append_assoc, List.singleton_append])
        (h.mono (List.subset_append_left _ _))
      intro next hNext
      rw [hLevel] at hNext
      cases hNext
      exact ⟨_, by simp, declaresConstant_zeroConstant ids levels outer.length level⟩

/-- The pointer of a level, new or not, is declared before the variable. -/
theorem hasType_pointer (h : LevelContext types levels context) {level : PrivateLevel}
    (hMem : level ∈ levels) :
    HasType (context ++ pointerDeclarations levels) level.pointer
      (.pointer level.pointee Storage.privateClass) := by
  cases hNew : level.isNew with
  | false =>
      have hReused := h.reused level hMem hNew
      exact hReused.mono (List.subset_append_left _ _)
  | true =>
      refine ⟨encode Op.typePointer [level.pointer, Storage.privateClass, level.pointee],
        List.mem_append_right _ ?_, rfl, ?_, rfl, rfl⟩
      · exact List.mem_map.2 ⟨level, List.mem_filter.2 ⟨hMem, hNew⟩, rfl⟩
      · rw [is_encode]
        decide

/-- The constant of each level is declared before the variable. -/
theorem hasConstant_zeroConstant (ids : Nat → UInt32) {levels : List PrivateLevel} (id : UInt32)
    {depth : Nat} {level : PrivateLevel} (h : levels[depth]? = some level) :
    HasConstant (declarations ids levels id).dropLast level.pointee
      (constantId ids levels depth) :=
  ⟨zeroConstant ids levels depth level, zeroConstant_mem_dropLast ids id h,
    declaresConstant_zeroConstant ids levels depth level⟩

/-- Everything in the place of the variable is typed by what is in front of it. -/
theorem wellTyped_declarations {outermost : PrivateLevel}
    (h : LevelContext types levels context) (hOutermost : levels[0]? = some outermost)
    (id : UInt32) : WellTyped types context (declarations ids levels id) := by
  have hInside := h.mono (List.subset_append_left _ (pointerDeclarations levels))
  have hConstants : WellTyped types (context ++ pointerDeclarations levels)
      (levels.mapIdx (zeroConstant ids levels)).reverse :=
    wellTyped_zeroConstants (List.append_nil levels).symm hInside (by simp)
  have hPointer := hasType_pointer h (List.mem_of_getElem? hOutermost)
  have hInitializer := hasConstant_zeroConstant ids id hOutermost
  rw [dropLast_declarations] at hInitializer
  have hVariable : Typed types (context ++ (pointerDeclarations levels ++
      (levels.mapIdx (zeroConstant ids levels)).reverse)) (privateVariable ids levels id) := by
    rw [privateVariable_eq ids hOutermost]
    refine .initialized id ?_ (hInitializer.mono (List.subset_append_right _ _))
    rw [← List.append_assoc]
    exact hPointer.mono (List.subset_append_left _ _)
  rw [declarations, wellTyped_append_iff, wellTyped_append_iff]
  exact ⟨⟨wellTyped_pointerDeclarations h, hConstants⟩, hVariable, trivial⟩

end ShaderBackend.Spirv
