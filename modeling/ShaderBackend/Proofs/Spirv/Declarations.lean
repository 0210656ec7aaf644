import Mathlib.Data.List.Nodup
import ShaderBackend.Proofs.Spirv.Refinement
import ShaderBackend.Proofs.Spirv.Typing
import ShaderBackend.Proofs.Spirv.Untouched

/-! The declarations that take the place of an input variable, in the module that
the removal leaves. All types known at the variable come from instructions in
front of it and stay there, so the declarations are well typed. Their ids are
taken from the bound on, so nothing else in the module has them. -/
namespace ShaderBackend.Spirv

/-- Ids of the declared types in order. -/
def typeIds (listing : Listing) : List UInt32 :=
  (listing.filter declaresType).map fun words => (unplaced words).arg 1

/-- Ids of the declared constants in order. -/
def constantIds (listing : Listing) : List UInt32 :=
  (listing.filter declaresConstant).map fun words => (unplaced words).arg 2

/-- Ids of the declared types and constants, first all types. -/
def definedIds (listing : Listing) : List UInt32 := typeIds listing ++ constantIds listing

/-- New pointers are types and no constants. -/
theorem filter_pointerDeclarations (levels : List PrivateLevel) :
    (pointerDeclarations levels).filter declaresType = pointerDeclarations levels ∧
      (pointerDeclarations levels).filter declaresConstant = [] := by
  rw [List.filter_eq_self, List.filter_eq_nil_iff]
  constructor
  all_goals
    intro words hMem
    obtain ⟨level, -, rfl⟩ := List.mem_map.1 hMem
    simp only [declaresType, declaresConstant, is_encode]
    decide

/-- Zero constants are constants and no types. -/
theorem filter_zeroConstants (ids : Nat → UInt32) (levels : List PrivateLevel) :
    ((levels.mapIdx (zeroConstant ids levels)).reverse).filter declaresType = [] ∧
      ((levels.mapIdx (zeroConstant ids levels)).reverse).filter declaresConstant =
        (levels.mapIdx (zeroConstant ids levels)).reverse := by
  rw [List.filter_eq_self, List.filter_eq_nil_iff]
  constructor
  all_goals
    intro words hMem
    obtain ⟨depth, hDepth, rfl⟩ := List.mem_mapIdx.1 (List.mem_reverse.1 hMem)
  · unfold zeroConstant
    split <;> simp only [declaresType, is_encode] <;> decide
  · exact (declaresConstant_zeroConstant ids levels depth _).1

/-- The variable is neither. -/
theorem filter_privateVariable (ids : Nat → UInt32) (levels : List PrivateLevel) (id : UInt32) :
    declaresType (privateVariable ids levels id) = false ∧
      declaresConstant (privateVariable ids levels id) = false := by
  simp only [privateVariable, declaresType, declaresConstant, is_encode]
  decide

/-- The declarations take the fresh ids in order and without gaps: first the new
pointers, then the constants from the innermost level outwards. -/
theorem definedIds_declarations {ids : Nat → UInt32} {levels : List PrivateLevel}
    (hPointers : (levels.filter (·.isNew)).map (·.pointer) =
      (List.range' 0 (newPointers levels)).map ids) (id : UInt32) :
    definedIds (declarations ids levels id) = (List.range (freshIds levels)).map ids := by
  have hTypes : typeIds (declarations ids levels id) =
      (List.range' 0 (newPointers levels)).map ids := by
    rw [← hPointers]
    simp only [typeIds, declarations, List.filter_append, filter_pointerDeclarations,
      filter_zeroConstants, List.filter_cons, filter_privateVariable]
    simp [pointerDeclarations]
  have hConstants : constantIds (declarations ids levels id) =
      (List.range' (newPointers levels) levels.length).map ids := by
    have hConstantIds : constantIds (declarations ids levels id) =
        ((levels.mapIdx (zeroConstant ids levels)).reverse).map fun words =>
          (unplaced words).arg 2 := by
      simp only [constantIds, declarations, List.filter_append, filter_pointerDeclarations,
        filter_zeroConstants, List.filter_cons, filter_privateVariable]
      simp
    rw [hConstantIds]
    apply List.ext_getElem (by simp)
    intro position hLeft hRight
    simp only [List.length_map, List.length_reverse, List.length_mapIdx] at hLeft
    simp only [List.getElem_map, List.getElem_reverse, List.getElem_mapIdx, List.getElem_range',
      List.length_mapIdx, (declaresConstant_zeroConstant ids levels _ _).2.2, constantId]
    congr 1
    omega
  rw [definedIds, hTypes, hConstants, ← List.map_append, freshIds, List.range_eq_range',
    ← List.range'_append_1, Nat.zero_add]

section FreshIds

variable {code : Code} {total : Nat}

theorem freshId_zero (code : Code) : code.freshId 0 = code.bound := UInt32.add_zero _

/-- Ids are counted on from each other. -/
theorem freshId_add (code : Code) (first second : Nat) :
    code.freshId (first + second) = code.freshId first + UInt32.ofNat second := by
  rw [Code.freshId, Code.freshId, UInt32.ofNat_add, UInt32.add_assoc]

theorem freshId_succ (code : Code) (count : Nat) :
    code.freshId (count + 1) = code.freshId count + 1 :=
  freshId_add code count 1

/-- What has been taken from a module is not taken again from one whose bound lies behind it. -/
theorem freshId_of_bound_eq {later : Code} {taken : Nat} (h : later.bound = code.freshId taken)
    (count : Nat) : later.freshId count = code.freshId (taken + count) := by
  rw [freshId_add, ← h, Code.freshId]

/-- As long as the bound does not wrap, an id is the bound and its number. -/
theorem toNat_freshId_of_lt {count : Nat} (h : code.bound.toNat + count < UInt32.size) :
    (code.freshId count).toNat = code.bound.toNat + count := by
  have hFits : count % UInt32.size = count := Nat.mod_eq_of_lt (by omega)
  rw [Code.freshId, UInt32.toNat_add, UInt32.toNat_ofNat', hFits]
  exact Nat.mod_eq_of_lt h

theorem toNat_freshId (hBound : code.bound.toNat + total < UInt32.size) {count : Nat}
    (hCount : count < total) : (code.freshId count).toNat = code.bound.toNat + count :=
  toNat_freshId_of_lt (by omega)

/-- Ids that are taken from the bound on differ from each other, as long as none
of them wraps. -/
theorem nodup_freshIds (hBound : code.bound.toNat + total < UInt32.size) :
    ((List.range total).map code.freshId).Nodup := by
  refine List.Nodup.map_on ?_ List.nodup_range
  intro first hFirst second hSecond hSame
  have hNumber := congrArg UInt32.toNat hSame
  rw [toNat_freshId hBound (List.mem_range.1 hFirst),
    toNat_freshId hBound (List.mem_range.1 hSecond)] at hNumber
  omega

/-- Nothing below the bound is taken. -/
theorem bound_le_of_mem_freshIds
    (hBound : code.bound.toNat + total < UInt32.size) {id : UInt32}
    (h : id ∈ (List.range total).map code.freshId) : code.bound ≤ id := by
  obtain ⟨count, hCount, rfl⟩ := List.mem_map.1 h
  rw [UInt32.le_iff_toNat_le, toNat_freshId hBound (List.mem_range.1 hCount)]
  omega

end FreshIds

section Result

variable {listing result before later inserted : Listing} {types : TypeTable}
  {input : InputVariable} {declaration : List UInt32}

/-- A kind of instruction that no edit touches and that is not a variable is in
the result what it was before, together with what the declarations add. -/
theorem Found.filter_perm
    (hFound : Found listing types input before declaration later)
    (hEdited : Edited touchedByRemoval (before ++ inserted ++ later) result)
    {kind : List UInt32 → Bool}
    (hTouched : ∀ words, touchedByRemoval words = true → kind words = false)
    (hVariable : kind declaration = false) :
    (result.filter kind).Perm (inserted.filter kind ++ listing.filter kind) := by
  rw [hEdited.filter_eq hTouched, hFound.split]
  simp only [List.filter_append, List.filter_cons, hVariable]
  exact (List.perm_append_comm.append_right _).trans (by simp)

/-- What the removal changes are no declarations of types or constants. -/
theorem not_declares_of_touched {words : List UInt32} (h : touchedByRemoval words = true) :
    declaresType words = false ∧ declaresConstant words = false := by
  simp only [touchedByRemoval, touchedByUnlisting, Instruction.isAccessChain, Instruction.is,
    Bool.or_eq_true, beq_iff_eq] at h
  simp only [declaresType, declaresConstant, Instruction.is]
  rcases h with (hOpcode | hOpcode) | hOpcode | hOpcode <;> rw [hOpcode] <;> decide

/-- Nor is the variable itself. -/
theorem Found.not_declares
    (hFound : Found listing types input before declaration later) :
    declaresType declaration = false ∧ declaresConstant declaration = false := by
  simp only [declaresType, declaresConstant, Instruction.is, hFound.opcode_eq]
  decide

/-- What it puts in is not changed by its later edits. -/
theorem not_touched_of_mem_declarations {ids : Nat → UInt32} {levels : List PrivateLevel}
    {id : UInt32} {words : List UInt32} (h : words ∈ declarations ids levels id) :
    touchedByRemoval words = false := by
  rcases mem_declarations h with ⟨level, -, -, rfl⟩ | ⟨depth, level, -, rfl⟩ | rfl
  · simp only [touchedByRemoval, touchedByUnlisting, Instruction.isAccessChain, is_encode]
    decide
  · unfold zeroConstant
    split <;>
      simp only [touchedByRemoval, touchedByUnlisting, Instruction.isAccessChain, is_encode] <;>
      decide
  · simp only [privateVariable, touchedByRemoval, touchedByUnlisting, Instruction.isAccessChain,
      is_encode]
    decide

theorem declaresType_of_declares {id : UInt32} {shape : TypeShape} {words : List UInt32}
    (h : Declares id shape words) : declaresType words = true := by
  obtain ⟨-, hShape⟩ := h
  cases shape with
  | scalar width => rcases hShape.1 with hKind | hKind <;> simp [declaresType, hKind]
  | vector component count => simp [declaresType, hShape.1]
  | array element length => simp [declaresType, hShape.1]
  | pointer pointee storage => simp [declaresType, hShape.1]

/-- Every type known at the variable is still declared in front of it after the
edits. -/
theorem Found.hasType (hFound : Found listing types input before declaration later)
    {front : Listing} (hEdited : Edited touchedByRemoval before front) :
    ∀ entry ∈ types.entries, HasType front entry.1 entry.2 := by
  intro entry hEntry
  obtain ⟨words, hMem, hDeclares⟩ := hFound.declared entry hEntry
  have hSame := hEdited.filter_eq fun words hTouched => (not_declares_of_touched hTouched).1
  have hKept : words ∈ front.filter declaresType := by
    rw [hSame]
    exact List.mem_filter.2 ⟨hMem, declaresType_of_declares hDeclares⟩
  exact ⟨words, (List.mem_filter.1 hKept).1, hDeclares⟩

/-- After the edits the declarations stand together, and all levels are declared
in front of them. -/
theorem Found.exists_levelContext {ids : Nat → UInt32}
    (hFound : Found listing types input before declaration later)
    (hLevels : inputLevels types ids input ≠ [])
    (hEdited : Edited touchedByRemoval
      (before ++ declarations ids (inputLevels types ids input) input.id ++ later) result) :
    ∃ front back,
      result = front ++ declarations ids (inputLevels types ids input) input.id ++ back ∧
      LevelContext types (inputLevels types ids input) front := by
  obtain ⟨front, back, hListing, hFront, -⟩ :=
    hEdited.exists_split fun words hMem => not_touched_of_mem_declarations hMem
  obtain ⟨pointee, storage, -, hWalk⟩ := inputLevels_eq hLevels
  refine ⟨front, back, hListing, ?_⟩
  rw [hWalk]
  exact levelContext_levelsFrom (hFound.hasType hFront)

/-- The type of a level lies as many steps below the pointee of the variable. -/
theorem inputLevels_pointee {ids : Nat → UInt32} {pointee storage : UInt32}
    (hType : types.get? input.typeId = some (.pointer pointee storage))
    {depth : Nat} {level : PrivateLevel}
    (hLevel : (inputLevels types ids input)[depth]? = some level) :
    level.pointee = elementType types pointee depth := by
  rw [inputLevels, hType] at hLevel
  exact levelsFrom_pointee hLevel

/-- With ids below the bound, the ids of the declarations are the only new ones.
Types stay distinct, and each new type or constant is declared once. -/
theorem Found.definedIds_unique {code : Code}
    (hFound : Found listing types input before declaration later)
    (hEdited : Edited touchedByRemoval (before ++ inserted ++ later) result)
    (hDistinct : (typeIds listing).Nodup) (hBelow : ∀ id ∈ definedIds listing, id < code.bound)
    {total : Nat} (hBound : code.bound.toNat + total < UInt32.size)
    (hFresh : definedIds inserted = (List.range total).map code.freshId) :
    (typeIds result).Nodup ∧ ∀ id ∈ definedIds inserted, (definedIds result).count id = 1 := by
  have hTypes : (typeIds result).Perm (typeIds inserted ++ typeIds listing) := by
    simpa only [typeIds, List.map_append] using (hFound.filter_perm hEdited
      (fun words hTouched => (not_declares_of_touched hTouched).1) hFound.not_declares.1).map
        fun words => (unplaced words).arg 1
  have hConstants : (constantIds result).Perm (constantIds inserted ++ constantIds listing) := by
    simpa only [constantIds, List.map_append] using (hFound.filter_perm hEdited
      (fun words hTouched => (not_declares_of_touched hTouched).2) hFound.not_declares.2).map
        fun words => (unplaced words).arg 2
  have hNodup : (definedIds inserted).Nodup := hFresh ▸ nodup_freshIds hBound
  have hNew : ∀ id ∈ definedIds inserted, id ∉ definedIds listing := by
    intro id hInserted hListing
    rw [hFresh] at hInserted
    exact absurd (hBelow id hListing) (UInt32.not_lt.2 (bound_le_of_mem_freshIds hBound hInserted))
  constructor
  · rw [hTypes.nodup_iff, List.nodup_append]
    refine ⟨(List.nodup_append.1 hNodup).1, hDistinct, ?_⟩
    rintro id hInserted _ hListing rfl
    exact hNew id (List.mem_append_left _ hInserted) (List.mem_append_left _ hListing)
  · intro id hInserted
    have hOnce := List.count_eq_one_of_mem hNodup hInserted
    have hNever := List.count_eq_zero_of_not_mem (hNew id hInserted)
    simp only [definedIds, List.count_append] at hOnce hNever ⊢
    rw [hTypes.count_eq, hConstants.count_eq, List.count_append, List.count_append]
    omega

end Result

/-- What takes the place of an input variable is well typed where it stands. The
variable points to the type that the input pointed to, and starts with a zero
constant of that type. Each level has a constant of its own type: a plain one
for the innermost level, and otherwise one that repeats the constant of the next
level as often as the type has elements. All types and constants that any of
these instructions names are declared in front of it, and they stay unique. -/
theorem eliminate_wellTyped {words : List UInt32} {code result : Code} {location : UInt32}
    {types : TypeTable} {input : InputVariable} (hCode : Code.ofWords words = .ok code)
    (hInput : findInput code location = (types, some input))
    (hFour : ∀ ins ∈ code.instructions, ins.offset = input.offset → ins.length = 4)
    (hFits : Fits (inputLevels types code.freshId input))
    (hDistinct : (typeIds code.listing).Nodup)
    (hBelow : ∀ id ∈ definedIds code.listing, id < code.bound)
    (hBound : code.bound.toNat + freshIds (inputLevels types code.freshId input) < UInt32.size)
    (hResult : eliminate code location = .ok (some result)) :
    let levels := inputLevels types code.freshId input
    let inserted := declarations code.freshId levels input.id
    ∃ (pointee storage pointer : UInt32) (front back : Listing),
      types.get? input.typeId = some (.pointer pointee storage) ∧
      result.listing = front ++ inserted ++ back ∧
      inserted.getLast? = some (encode Op.declareVariable
        [pointer, input.id, Storage.privateClass, constantId code.freshId levels 0]) ∧
      HasType (front ++ inserted.dropLast) pointer (.pointer pointee Storage.privateClass) ∧
      HasConstant inserted.dropLast pointee (constantId code.freshId levels 0) ∧
      (∀ depth level, levels[depth]? = some level →
        level.pointee = elementType types pointee depth ∧
        (if depth + 1 = levels.length then
          encode Op.constant [level.pointee, constantId code.freshId levels depth, 0]
        else
          encode Op.constantComposite (level.pointee :: constantId code.freshId levels depth ::
            List.replicate level.size.toNat (constantId code.freshId levels (depth + 1)))) ∈
          inserted.dropLast) ∧
      WellTyped types front inserted ∧
      (typeIds result.listing).Nodup ∧
      ∀ id ∈ definedIds inserted, (definedIds result.listing).count id = 1 := by
  intro levels inserted
  obtain ⟨d, rfl⟩ := Dissection.exists_of_ofWords hCode
  obtain ⟨before, declaration, later, f, hFound, rfl, -, -, hRetyped⟩ :=
    Dissection.exists_removed hInput hFour hFits hResult
  obtain ⟨types', input', hInput', hLevels⟩ := exists_input_of_eliminate hResult
  rw [hInput] at hInput'
  cases hInput'
  obtain ⟨pointee, storage, hType, hWalk⟩ := inputLevels_eq hLevels
  obtain ⟨outermost, inner, hCons⟩ := List.exists_cons_of_ne_nil hLevels
  have hOutermost : levels[0]? = some outermost := by
    rw [show levels = _ from hCons]
    rfl
  have hRoot : outermost.pointee = pointee := inputLevels_pointee hType hOutermost
  have hEdited := edited_removal hRetyped
  obtain ⟨front, back, hListing, hContext⟩ := hFound.exists_levelContext hLevels hEdited
  have hPointers : (levels.filter (·.isNew)).map (·.pointer) =
      (List.range' 0 (newPointers levels)).map d.code.freshId := by
    rw [show levels = _ from hWalk]
    exact newPointer_ids
  refine ⟨pointee, storage, outermost.pointer, front, back, hType, ?_, ?_, ?_, ?_, ?_, ?_, ?_⟩
  · rw [Dissection.listing_code, hListing]
  · rw [← privateVariable_eq _ hOutermost]
    exact List.getLast?_concat
  · rw [← hRoot, dropLast_declarations, ← List.append_assoc]
    exact (hasType_pointer hContext (List.mem_of_getElem? hOutermost)).mono
      (List.subset_append_left _ _)
  · rw [← hRoot]
    exact hasConstant_zeroConstant d.code.freshId input.id hOutermost
  · intro depth level hLevel
    exact ⟨inputLevels_pointee hType hLevel,
      zeroConstant_mem_dropLast d.code.freshId input.id hLevel⟩
  · exact wellTyped_declarations hContext hOutermost input.id
  · rw [Dissection.listing_code] at hDistinct hBelow ⊢
    exact hFound.definedIds_unique hEdited hDistinct hBelow hBound
      (definedIds_declarations hPointers input.id)

/-- For a vector these are one new pointer, two constants and the variable. -/
theorem eliminate_wellTyped_vectorInput :
    (∀ ins ∈ vectorInputModule.instructions, ins.offset = 31 → ins.length = 4) ∧
    (typeIds vectorInputModule.listing).Nodup ∧
    (∀ id ∈ definedIds vectorInputModule.listing, id < vectorInputModule.bound) ∧
    eliminate vectorInputModule 0 = .ok (some vectorInputRemoved) ∧
    let levels := inputLevels vectorInputTypes vectorInputModule.freshId ⟨31, 4, 5⟩
    let inserted := declarations vectorInputModule.freshId levels 5
    Fits levels ∧
    vectorInputModule.bound.toNat + freshIds levels < UInt32.size ∧
    ∃ (pointee storage pointer : UInt32) (front back : Listing),
      vectorInputTypes.get? 4 = some (.pointer pointee storage) ∧
      vectorInputRemoved.listing = front ++ inserted ++ back ∧
      inserted.getLast? = some (encode Op.declareVariable
        [pointer, 5, Storage.privateClass, constantId vectorInputModule.freshId levels 0]) ∧
      HasType (front ++ inserted.dropLast) pointer (.pointer pointee Storage.privateClass) ∧
      HasConstant inserted.dropLast pointee (constantId vectorInputModule.freshId levels 0) := by
  have hDistinct : (typeIds vectorInputModule.listing).Nodup := of_decide_eq_true (by cbv)
  have hBelow : ∀ id ∈ definedIds vectorInputModule.listing, id < vectorInputModule.bound := by
    have hAll : ((definedIds vectorInputModule.listing).all
        fun id => decide (id < vectorInputModule.bound)) = true := by cbv
    exact fun id hMem => of_decide_eq_true (List.all_eq_true.1 hAll id hMem)
  have hBound : vectorInputModule.bound.toNat +
      freshIds (inputLevels vectorInputTypes vectorInputModule.freshId ⟨31, 4, 5⟩) < UInt32.size :=
    of_decide_eq_true (by cbv)
  obtain ⟨pointee, storage, pointer, front, back, hType, hListing, hLast, hPointer, hConstant, -⟩ :=
    eliminate_wellTyped ofWords_vectorInput findInput_vectorInput four_words_vectorInput
      fits_vectorInput hDistinct hBelow hBound eliminate_vectorInput
  exact ⟨four_words_vectorInput, hDistinct, hBelow, eliminate_vectorInput, fits_vectorInput, hBound,
    pointee, storage, pointer, front, back, hType, hListing, hLast, hPointer, hConstant⟩

end ShaderBackend.Spirv
