import ShaderBackend.Proofs.Spirv.Declarations
import ShaderBackend.Proofs.Spirv.TypeWalk

/-! The one plain constant among the declarations of a removed input. It stands behind the new
pointer types, whatever else the declarations hold and however far they can be read, and it has the
type at which the walk through the type of the input stops. -/
namespace ShaderBackend.Spirv

/-- The zero constant of the innermost level. -/
def innermostConstant (code : Code) (levels : List PrivateLevel) (type : UInt32) : List UInt32 :=
  encode Op.constant [type, code.freshId (newPointers levels), 0]

/-- The new pointer types and the innermost constant behind them. -/
def leadingDeclarations (code : Code) (levels : List PrivateLevel) (type : UInt32) : Listing :=
  pointerDeclarations levels ++ [innermostConstant code levels type]

/-- The declarations of a removal stand together in the result as far as the innermost constant. -/
def InsertsInnermost (code result : Code) (levels : List PrivateLevel) (type : UInt32) : Prop :=
  ∃ front back, result.listing = front ++ leadingDeclarations code levels type ++ back

section Declarations

variable {code : Code} {levels : List PrivateLevel} {last : PrivateLevel}

theorem sized_innermostConstant (code : Code) (levels : List PrivateLevel) (type : UInt32) :
    Sized (innermostConstant code levels type) := by
  simp [innermostConstant, sized_encode_iff]

theorem sized_leadingDeclarations (code : Code) (levels : List PrivateLevel) (type : UInt32) :
    ∀ words ∈ leadingDeclarations code levels type, Sized words := by
  intro words hMem
  rcases List.mem_append.1 hMem with hPointer | hConstant
  · obtain ⟨level, -, rfl⟩ := List.mem_map.1 hPointer
    simp [sized_encode_iff]
  · rw [List.mem_singleton.1 hConstant]
    exact sized_innermostConstant code levels type

theorem zeroConstant_last (code : Code) (outer : List PrivateLevel) (last : PrivateLevel) :
    zeroConstant code.freshId (outer ++ [last]) outer.length last =
      innermostConstant code (outer ++ [last]) last.pointee := by
  simp [zeroConstant, constantId, innermostConstant]

/-- The constants go from the innermost one outwards. -/
theorem exists_declarations_eq (code : Code) (hLast : levels.getLast? = some last) (id : UInt32) :
    ∃ rest, declarations code.freshId levels id =
      leadingDeclarations code levels last.pointee ++ rest := by
  obtain ⟨outer, rfl⟩ := List.getLast?_eq_some_iff.1 hLast
  refine ⟨(outer.mapIdx (zeroConstant code.freshId (outer ++ [last]))).reverse ++
    [privateVariable code.freshId (outer ++ [last]) id], ?_⟩
  rw [declarations, List.mapIdx_concat, List.reverse_concat, zeroConstant_last, leadingDeclarations]
  simp only [List.append_assoc, List.cons_append, List.nil_append]

theorem not_touched_of_mem_leading (hLast : levels.getLast? = some last) {words : List UInt32}
    (hMem : words ∈ leadingDeclarations code levels last.pointee) :
    touchedByRemoval words = false := by
  obtain ⟨rest, hRest⟩ := exists_declarations_eq code hLast 0
  have hAll : words ∈ declarations code.freshId levels 0 := by
    rw [hRest]
    exact List.mem_append_left rest hMem
  exact not_touched_of_mem_declarations hAll

end Declarations

section Removal

variable {words : List UInt32} {code result : Code} {location : UInt32} {types : TypeTable}
  {input : InputVariable} {levels : List PrivateLevel} {last : PrivateLevel}

/-- The words behind the innermost constant may be read in any way. It is read itself. -/
theorem exists_spliced_leading {d : Dissection} {before later : Listing} {declaration : List UInt32}
    (hFound : Found d.listing types input before declaration later)
    (hLast : levels.getLast? = some last) :
    ∃ (e : Dissection) (back : Listing), spliced d.code levels input = e.code ∧
      e.listing = before ++ leadingDeclarations d.code levels last.pointee ++ back := by
  -- The composites behind it can have wrong length fields, so they are cut as reading cuts them.
  obtain ⟨rest, hRest⟩ := exists_declarations_eq d.code hLast input.id
  obtain ⟨back, tail, hSized, hStuck, hJoin⟩ := exists_dissection
    (rest.flatten ++ (declaration.drop 4 ++ later.flatten) ++ d.tail)
  have hAll := List.forall_mem_append.2
    ⟨sized_leadingDeclarations d.code levels last.pointee, hSized⟩
  obtain ⟨e, hSpliced, -, hListing, -⟩ := hFound.exists_spliced levels hAll hStuck (by
    rw [hRest]
    simp only [List.flatten_append, List.append_assoc] at hJoin ⊢
    rw [hJoin])
  exact ⟨e, back, hSpliced, by rw [hListing, List.append_assoc]⟩

/-- No edit behind the replacement reaches the new pointer types and constants. -/
theorem insertsInnermost_of_eliminate (hCode : Code.ofWords words = .ok code)
    (hInput : findInput code location = (types, some input))
    (hResult : eliminate code location = .ok (some result))
    (hLast : (inputLevels types code.freshId input).getLast? = some last) :
    InsertsInnermost code result (inputLevels types code.freshId input) last.pointee := by
  obtain ⟨d, rfl⟩ := Dissection.exists_of_ofWords hCode
  obtain ⟨before, declaration, later, hFound⟩ := exists_found hInput
  obtain ⟨e, rest, hSpliced, hListing⟩ := exists_spliced_leading hFound hLast
  obtain ⟨f, rfl, -, -, hRetyped⟩ := eliminate_eq_ok hInput hSpliced hResult
  have hEdited := edited_removal hRetyped
  rw [hListing] at hEdited
  obtain ⟨front, back, hSplit, -, -⟩ :=
    hEdited.exists_split fun _ hMem => not_touched_of_mem_leading hLast hMem
  exact ⟨front, back, by rw [Dissection.listing_code, hSplit]⟩

/-- A removal changes nothing exactly if there is no input, or none with levels. -/
theorem eliminate_eq_none_iff (code : Code) (location : UInt32) :
    eliminate code location = .ok none ↔
      ∀ types input, findInput code location = (types, some input) →
        types.Lacks input.typeId := by
  rcases hSearch : findInput code location with ⟨types, _ | input⟩
  · simp [eliminate, hSearch]
  · rw [eliminate_eq_none_iff_of_input hSearch, inputLevels_eq_nil_iff]
    constructor
    · intro hLacks _ _ hSame
      cases hSame
      exact hLacks
    · exact fun hAll => hAll types input rfl

/-- A removal skips an input only if the type right below its pointer is not recorded. In every
other case the innermost constant has the last recorded type of the walk, and this is a scalar
exactly if the walk ends in one. -/
theorem eliminate_skips_iff (hCode : Code.ofWords words = .ok code) (location : UInt32) :
    (eliminate code location = .ok none ↔
      ∀ types input, findInput code location = (types, some input) →
        types.Lacks input.typeId) ∧
    ∀ result, eliminate code location = .ok (some result) →
      ∃ types input pointee storage leaf shape,
        findInput code location = (types, some input) ∧
        types.get? input.typeId = some (.pointer pointee storage) ∧
        types.get? leaf = some shape ∧
        InsertsInnermost code result (inputLevels types code.freshId input) leaf ∧
        (∀ path, types.Walk pointee path → path.getLast? = some leaf) ∧
        (types.EndsInScalar pointee ↔ shape.kind = .scalar ∧ types.get? 0 = none) := by
  refine ⟨eliminate_eq_none_iff code location, fun result hResult => ?_⟩
  obtain ⟨types, input, hInput, hLevels⟩ := exists_input_of_eliminate hResult
  obtain ⟨pointee, storage, hType, hWalk⟩ := inputLevels_eq hLevels
  have hLast := List.getLast?_eq_some_getLast hLevels
  have hInserts := insertsInnermost_of_eliminate hCode hInput hResult hLast
  have hMem := List.getLast_mem hLevels
  generalize (inputLevels types code.freshId input).getLast hLevels = last at hLast hInserts hMem
  rw [hWalk] at hLast hMem
  obtain ⟨shape, hShape, -⟩ := (levelsFrom_facts hMem).known
  refine ⟨types, input, pointee, storage, last.pointee, shape, hInput, hType, hShape, hInserts, ?_,
    ?_⟩
  · intro path hPath
    rw [← map_pointee_privateLevels hPath code.freshId, List.getLast?_map]
    exact congrArg (Option.map PrivateLevel.pointee) hLast
  · rw [endsInScalar_iff hLast, hShape]
    cases shape <;> simp [TypeShape.kind]

/-- The vector of floats is a walk of two types. -/
theorem walk_vectorInput : vectorInputTypes.Walk 3 [3, 2] := by
  have hVector : vectorInputTypes.get? 3 = some (.vector 2 4) := rfl
  have hFloat : vectorInputTypes.get? 2 = some (.scalar 32) := rfl
  exact .step hVector (.step hFloat (.stop rfl))

theorem eliminate_skips_iff_vectorInput :
    eliminate vectorInputModule 0 = .ok (some vectorInputRemoved) ∧
    ∃ leaf shape,
      vectorInputTypes.get? leaf = some shape ∧ shape.kind = .scalar ∧
      InsertsInnermost vectorInputModule vectorInputRemoved
        (inputLevels vectorInputTypes vectorInputModule.freshId ⟨31, 4, 5⟩) leaf := by
  refine ⟨eliminate_vectorInput, ?_⟩
  obtain ⟨types, input, pointee, storage, leaf, shape, hInput, hType, hShape, hConstant, -,
    hEnds⟩ := (eliminate_skips_iff ofWords_vectorInput 0).2 _ eliminate_vectorInput
  rw [findInput_vectorInput] at hInput
  cases hInput
  have hPointer : vectorInputTypes.get? 4 = some (.pointer 3 Storage.input) := rfl
  cases hPointer.symm.trans hType
  have hScalar : vectorInputTypes.EndsInScalar 3 := ⟨[3, 2], 2, 32, walk_vectorInput, rfl, rfl⟩
  exact ⟨leaf, shape, hShape, (hEnds.1 hScalar).1, hConstant⟩

/-- A module whose input at location zero is an array of two structures. Opcode thirty declares a
structure. -/
def structureInputWords : List UInt32 :=
  [Header.magic, Header.version, 0, 20, 0] ++
    [encode Op.decorate [5, Decoration.location, 0],
      encode Op.typeInt [2, 32, 0],
      encode Op.constant [2, 6, 2],
      encode 30 [7, 2],
      encode Op.typeArray [3, 7, 6],
      encode Op.typePointer [4, Storage.input, 3],
      encode Op.declareVariable [4, 5, Storage.input]].flatten

def structureInputModule : Code := ⟨.headed, structureInputWords⟩

def structureInputTypes : TypeTable :=
  ⟨[(2, .scalar 32), (3, .array 7 2), (4, .pointer 3 Storage.input)]⟩

/-- The array gets a plain constant, as only a scalar may have one. -/
def structureInputRemoved : Code :=
  ⟨.headed, [Header.magic, Header.version, 0, 22, 0] ++
    [encode Op.typeInt [2, 32, 0],
      encode Op.constant [2, 6, 2],
      encode 30 [7, 2],
      encode Op.typeArray [3, 7, 6],
      encode Op.typePointer [4, Storage.input, 3],
      encode Op.typePointer [20, Storage.privateClass, 3],
      encode Op.constant [3, 21, 0],
      encode Op.declareVariable [20, 5, Storage.privateClass, 21]].flatten⟩

/-- An array of structures is not skipped, though its walk does not end in a scalar. -/
theorem eliminate_structureInput :
    Code.ofWords structureInputWords = .ok structureInputModule ∧
    findInput structureInputModule 0 = (structureInputTypes, some ⟨28, 4, 5⟩) ∧
    structureInputTypes.get? 4 = some (.pointer 3 Storage.input) ∧
    ¬structureInputTypes.EndsInScalar 3 ∧
    eliminate structureInputModule 0 = .ok (some structureInputRemoved) ∧
    InsertsInnermost structureInputModule structureInputRemoved
      (inputLevels structureInputTypes structureInputModule.freshId ⟨28, 4, 5⟩) 3 := by
  refine ⟨rfl, by cbv, rfl, ?_, by cbv, ?_⟩
  · rintro ⟨path, leaf, width, hWalk, hLeaf, hScalar⟩
    have hArray : structureInputTypes.get? 3 = some (.array 7 2) := rfl
    rw [hWalk.unique (.step hArray (.stop rfl))] at hLeaf
    cases hLeaf
    cases hArray.symm.trans hScalar
  · exact ⟨structureInputRemoved.listing.take 5, structureInputRemoved.listing.drop 7, by cbv⟩

end Removal

section Literals

/-- The literal words of a constant, behind its type and its id. -/
def constantLiteral (constant : List UInt32) : List UInt32 := constant.drop 3

/-- How many words a literal of a scalar takes. -/
def literalWords (width : UInt32) : Nat := max 1 ((width.toNat + 31) / 32)

theorem literalWords_eq_one_iff (width : UInt32) : literalWords width = 1 ↔ width.toNat ≤ 32 := by
  rw [literalWords]
  omega

theorem constantLiteral_innermostConstant (code : Code) (levels : List PrivateLevel)
    (type : UInt32) : constantLiteral (innermostConstant code levels type) = [0] := rfl

variable {words : List UInt32} {code result : Code} {location : UInt32} {types : TypeTable}
  {input : InputVariable} {pointee storage leaf width : UInt32} {path : List UInt32}

/-- A walk that ends leads to the last level. -/
theorem exists_getLast?_inputLevels
    (hType : types.get? input.typeId = some (.pointer pointee storage))
    (hWalk : types.Walk pointee path) (hLeaf : path.getLast? = some leaf) (ids : Nat → UInt32) :
    ∃ last, (inputLevels types ids input).getLast? = some last ∧ last.pointee = leaf := by
  have hLevels : inputLevels types ids input = types.privateLevels ids pointee := by
    rw [inputLevels, hType]
  rw [← map_pointee_privateLevels hWalk ids, List.getLast?_map,
    Option.map_eq_some_iff] at hLeaf
  rwa [hLevels]

/-- The innermost constant of a walk that ends in a scalar has one word of zero, whatever the width
of the scalar. It is a zero of the scalar only up to thirty-two bits. -/
theorem literal_fits_iff (hCode : Code.ofWords words = .ok code)
    (hInput : findInput code location = (types, some input))
    (hResult : eliminate code location = .ok (some result))
    (hType : types.get? input.typeId = some (.pointer pointee storage))
    (hWalk : types.Walk pointee path) (hLeaf : path.getLast? = some leaf)
    (hScalar : types.get? leaf = some (.scalar width)) :
    let levels := inputLevels types code.freshId input
    let constant := innermostConstant code levels leaf
    InsertsInnermost code result levels leaf ∧ Sized constant ∧ constantLiteral constant = [0] ∧
      (constantLiteral constant = List.replicate (literalWords width) 0 ↔ width.toNat ≤ 32) := by
  intro levels constant
  obtain ⟨last, hLast, rfl⟩ := exists_getLast?_inputLevels hType hWalk hLeaf code.freshId
  refine ⟨insertsInnermost_of_eliminate hCode hInput hResult hLast, sized_innermostConstant _ _ _,
    rfl, ?_⟩
  rw [constantLiteral_innermostConstant, ← literalWords_eq_one_iff, ← List.replicate_one,
    List.replicate_inj]
  simp [eq_comm]

theorem literal_fits_iff_vectorInput :
    eliminate vectorInputModule 0 = .ok (some vectorInputRemoved) ∧
    vectorInputTypes.Walk 3 [3, 2] ∧ vectorInputTypes.get? 2 = some (.scalar 32) ∧
    let levels := inputLevels vectorInputTypes vectorInputModule.freshId ⟨31, 4, 5⟩
    let constant := innermostConstant vectorInputModule levels 2
    InsertsInnermost vectorInputModule vectorInputRemoved levels 2 ∧
      constantLiteral constant = List.replicate (literalWords 32) 0 := by
  have hPointer : vectorInputTypes.get? 4 = some (.pointer 3 Storage.input) := rfl
  obtain ⟨hInserts, -, -, hFits⟩ := literal_fits_iff ofWords_vectorInput findInput_vectorInput
    eliminate_vectorInput hPointer walk_vectorInput rfl rfl
  exact ⟨eliminate_vectorInput, walk_vectorInput, rfl, hInserts, hFits.2 (by decide)⟩

/-- A module whose input at location zero is a float of sixty-four bits. -/
def doubleInputWords : List UInt32 :=
  [Header.magic, Header.version, 0, 20, 0] ++
    [encode Op.decorate [5, Decoration.location, 0],
      encode Op.typeFloat [2, 64],
      encode Op.typePointer [4, Storage.input, 2],
      encode Op.declareVariable [4, 5, Storage.input]].flatten

def doubleInputModule : Code := ⟨.headed, doubleInputWords⟩

def doubleInputTypes : TypeTable := ⟨[(2, .scalar 64), (4, .pointer 2 Storage.input)]⟩

/-- The constant of the float lacks its second literal word. -/
def doubleInputRemoved : Code :=
  ⟨.headed, [Header.magic, Header.version, 0, 22, 0] ++
    [encode Op.typeFloat [2, 64],
      encode Op.typePointer [4, Storage.input, 2],
      encode Op.typePointer [20, Storage.privateClass, 2],
      encode Op.constant [2, 21, 0],
      encode Op.declareVariable [20, 5, Storage.privateClass, 21]].flatten⟩

/-- A float of two words gets a constant of one. -/
theorem eliminate_doubleInput :
    Code.ofWords doubleInputWords = .ok doubleInputModule ∧
    findInput doubleInputModule 0 = (doubleInputTypes, some ⟨16, 4, 5⟩) ∧
    doubleInputTypes.get? 4 = some (.pointer 2 Storage.input) ∧
    doubleInputTypes.Walk 2 [2] ∧ doubleInputTypes.get? 2 = some (.scalar 64) ∧
    eliminate doubleInputModule 0 = .ok (some doubleInputRemoved) ∧
    let levels := inputLevels doubleInputTypes doubleInputModule.freshId ⟨16, 4, 5⟩
    InsertsInnermost doubleInputModule doubleInputRemoved levels 2 ∧
      (constantLiteral (innermostConstant doubleInputModule levels 2)).length = 1 ∧
      literalWords 64 = 2 := by
  have hFloat : doubleInputTypes.get? 2 = some (.scalar 64) := rfl
  refine ⟨rfl, by cbv, rfl, .step hFloat (.stop rfl), hFloat, by cbv, ?_, rfl, rfl⟩
  exact ⟨doubleInputRemoved.listing.take 2, doubleInputRemoved.listing.drop 4, by cbv⟩

end Literals
end ShaderBackend.Spirv
