import Mathlib.Data.List.Permutation
import ShaderBackend.Proofs.Spirv.Removal

/-! When the removal of an input leaves a tiled module. All edits but the
replacement of the variable keep the tiling, so it depends on the words put in
its place and on what stands four words behind its start. Two shapes break it:
a variable of more than four words, whose last words stay behind, and a level
of more than 65532 elements, whose constant has a length field too small. -/
namespace ShaderBackend.Spirv

/-- A run of instructions and nothing else. -/
def Tiles (stream : List UInt32) : Prop :=
  ∃ listing : Listing, (∀ words ∈ listing, Sized words) ∧ listing.flatten = stream

/-- A stream has one cut only, so it is a run of instructions exactly if its
cut has no tail. -/
theorem tiles_dissected_iff {listing : Listing} {tail : List UInt32}
    (hSized : ∀ words ∈ listing, Sized words) (hStuck : Stuck tail) :
    Tiles (listing.flatten ++ tail) ↔ tail = [] := by
  constructor
  · rintro ⟨other, hOther, hJoin⟩
    have hPlaced := instructionsFrom_dissected 0 hSized hStuck
    have hOtherPlaced : instructionsFrom 0 (other.flatten ++ []) = place 0 other :=
      instructionsFrom_dissected 0 hOther trivial
    rw [List.append_nil, hJoin, hPlaced] at hOtherPlaced
    have hSame : listing = other := by
      rw [← map_words_place 0 listing, hOtherPlaced, map_words_place]
    rw [← hSame] at hJoin
    exact List.append_cancel_left (hJoin.symm.trans (List.append_nil _).symm)
  · rintro rfl
    exact ⟨listing, hSized, (List.append_nil _).symm⟩

theorem tiles_sized_append_iff {words : List UInt32} (h : Sized words) (rest : List UInt32) :
    Tiles (words ++ rest) ↔ Tiles rest := by
  obtain ⟨listing, tail, hSized, hStuck, rfl⟩ := exists_dissection rest
  have hBoth : ∀ w ∈ words :: listing, Sized w := List.forall_mem_cons.2 ⟨h, hSized⟩
  rw [← List.append_assoc, ← List.flatten_cons, tiles_dissected_iff hBoth hStuck,
    tiles_dissected_iff hSized hStuck]

theorem not_tiles_of_stuck {stream : List UInt32} (h : Stuck stream) (hNonempty : stream ≠ []) :
    ¬Tiles stream := by
  intro hTiles
  have hNone : ∀ words ∈ ([] : Listing), Sized words := List.forall_mem_nil _
  exact hNonempty ((tiles_dissected_iff hNone h).1 hTiles)

theorem announcedLength_of_lt {word : UInt32} (h : word.toNat < 65536) :
    announcedLength word = 0 := by
  rw [announcedLength_eq]
  omega

/-- A word below `2 ^ 16` announces no length, so reading stops there. -/
theorem not_tiles_cons_of_lt {word : UInt32} (h : word.toNat < 65536) (rest : List UInt32) :
    ¬Tiles (word :: rest) :=
  not_tiles_of_stuck (Or.inl (announcedLength_of_lt h)) (List.cons_ne_nil _ _)

/-- Words with a length field that is too small cannot be read on behind it if
all their operands are below `2 ^ 16`. -/
theorem not_tiles_of_short_length {opening : UInt32} {operands : List UInt32}
    (hShort : announcedLength opening < operands.length + 1)
    (hSmall : ∀ operand ∈ operands, operand.toNat < 65536) (rest : List UInt32) :
    ¬Tiles (opening :: operands ++ rest) := by
  cases hCount : announcedLength opening with
  | zero => exact not_tiles_of_stuck (Or.inl hCount) (List.cons_ne_nil _ _)
  | succ count =>
      have hInside : count < operands.length := by omega
      have hOperands :
          operands.take count ++ operands[count] :: operands.drop (count + 1) = operands := by
        rw [← List.drop_eq_getElem_cons hInside, List.take_append_drop]
      have hSplit : operands ++ rest =
          operands.take count ++ operands[count] :: (operands.drop (count + 1) ++ rest) := by
        rw [← List.cons_append, ← List.append_assoc, hOperands]
      have hFirst : Sized (opening :: operands.take count) := by
        simp only [Sized, hCount, List.length_take]
        omega
      rw [List.cons_append, hSplit, ← List.cons_append, tiles_sized_append_iff hFirst]
      exact not_tiles_cons_of_lt (hSmall _ (List.getElem_mem hInside)) _

/-- If none of the wrong instructions of a listing can be read on, the listing
tiles only without them. -/
theorem tiles_flatten_append_iff {listing : Listing}
    (hHopeless : ∀ words ∈ listing, ¬Sized words → ∀ rest, ¬Tiles (words ++ rest))
    (rest : List UInt32) :
    Tiles (listing.flatten ++ rest) ↔ (∀ words ∈ listing, Sized words) ∧ Tiles rest := by
  induction listing with
  | nil => simp
  | cons words listing ih =>
      rw [List.forall_mem_cons] at hHopeless
      rw [List.flatten_cons, List.append_assoc, List.forall_mem_cons]
      by_cases hSized : Sized words
      · rw [tiles_sized_append_iff hSized, ih hHopeless.2]
        simp [hSized]
      · simp [hSized, hHopeless.1 hSized]

/-- The replacement of a variable in a tiled module, with the cut that reading
makes of the new words. -/
theorem exists_spliced {d : Dissection} {types : TypeTable} {input : InputVariable}
    {before later : Listing} {declaration : List UInt32}
    (hFound : Found d.listing types input before declaration later) (hTail : d.tail = [])
    (levels : List PrivateLevel) :
    ∃ e : Dissection, spliced d.code levels input = e.code ∧
      (e.tail = [] ↔ Tiles ((declarations d.code.freshId levels input.id).flatten ++
        (declaration.drop 4 ++ later.flatten))) := by
  obtain ⟨listing, tail, hSized, hStuck, hJoin⟩ := exists_dissection
    ((declarations d.code.freshId levels input.id).flatten ++ (declaration.drop 4 ++ later.flatten))
  obtain ⟨e, hSpliced, -, -, hCut⟩ := hFound.exists_spliced levels hSized hStuck (by
    rw [hJoin, hTail, List.append_nil])
  exact ⟨e, hSpliced, by rw [hCut, ← hJoin, tiles_dissected_iff hSized hStuck]⟩

/-- Ids of the declarations as words: the fresh ones, and the types and
pointers of the levels. -/
def SmallIds (ids : Nat → UInt32) (levels : List PrivateLevel) : Prop :=
  (∀ count < freshIds levels, (ids count).toNat < 65536) ∧
    ∀ level ∈ levels, level.pointee.toNat < 65536

theorem constantId_lt {ids : Nat → UInt32} {levels : List PrivateLevel} (h : SmallIds ids levels)
    (hLevels : levels ≠ []) (depth : Nat) : (constantId ids levels depth).toNat < 65536 := by
  have hPositive := List.length_pos_of_ne_nil hLevels
  apply h.1
  rw [freshIds]
  omega

/-- A constant with a wrong length field holds only ids behind it. -/
theorem not_tiles_zeroConstant {ids : Nat → UInt32} {levels : List PrivateLevel}
    (h : SmallIds ids levels) {depth : Nat} {level : PrivateLevel}
    (hLevel : levels[depth]? = some level) (hWrong : ¬Sized (zeroConstant ids levels depth level))
    (rest : List UInt32) : ¬Tiles (zeroConstant ids levels depth level ++ rest) := by
  have hMem := List.mem_of_getElem? hLevel
  have hLevels := List.ne_nil_of_mem hMem
  rw [sized_zeroConstant_iff, not_or] at hWrong
  obtain ⟨hInside, hLarge⟩ := hWrong
  rw [zeroConstant, if_neg hInside, encode]
  apply not_tiles_of_short_length
  · refine Nat.lt_of_lt_of_le (announcedLength_lt _) ?_
    simp only [List.length_cons, List.length_replicate]
    omega
  · intro operand hOperand
    simp only [List.mem_cons, List.mem_replicate] at hOperand
    rcases hOperand with rfl | rfl | ⟨-, rfl⟩
    · exact h.2 level hMem
    · exact constantId_lt h hLevels depth
    · exact constantId_lt h hLevels (depth + 1)

/-- With small ids, declarations tile exactly if all of them are right. -/
theorem tiles_declarations_iff {ids : Nat → UInt32} {levels : List PrivateLevel}
    (h : SmallIds ids levels) (id : UInt32) (rest : List UInt32) :
    Tiles ((declarations ids levels id).flatten ++ rest) ↔ Fits levels ∧ Tiles rest := by
  rw [tiles_flatten_append_iff, sized_declarations_iff]
  intro words hMem hWrong
  rcases mem_declarations hMem with ⟨level, -, -, rfl⟩ | ⟨depth, level, hLevel, rfl⟩ | rfl
  · exact (hWrong (by simp [sized_encode_iff])).elim
  · exact not_tiles_zeroConstant h hLevel hWrong
  · exact (hWrong (by simp [privateVariable, sized_encode_iff])).elim

theorem Found.drop_words {d : Dissection} {types : TypeTable} {input : InputVariable}
    {before later : Listing} {declaration : List UInt32}
    (h : Found d.listing types input before declaration later) :
    d.code.words.drop (input.offset + 4) = declaration.drop 4 ++ later.flatten ++ d.tail := by
  rw [h.words_eq, h.offset_eq, List.drop_length_add_append,
    List.drop_append_of_le_length h.four_le_length,
    List.append_assoc]

/-- The removal of an input from a tiled module leaves a tiled module exactly if
the declarations, followed by what stood four words behind the start of the
variable, are a run of instructions. This holds for a variable of four words
whose levels fit, and where ids stay below `2 ^ 16`, for no other variable. -/
theorem tiled_eliminate_iff {words : List UInt32} {code result : Code} {location : UInt32}
    {types : TypeTable} {input : InputVariable} {declaration : List UInt32}
    (hCode : Code.ofWords words = .ok code) (hTiled : code.Tiled)
    (hInput : findInput code location = (types, some input))
    (hDeclaration : ⟨input.offset, declaration⟩ ∈ code.instructions)
    (hResult : eliminate code location = .ok (some result)) :
    let levels := inputLevels types code.freshId input
    (result.Tiled ↔ Tiles ((declarations code.freshId levels input.id).flatten ++
      code.words.drop (input.offset + 4))) ∧
    (declaration.length = 4 ∧ Fits levels → result.Tiled) ∧
    (SmallIds code.freshId levels ∧
        (∀ initializer, declaration[4]? = some initializer → initializer.toNat < 65536) →
      (result.Tiled ↔ declaration.length = 4 ∧ Fits levels)) := by
  intro levels
  obtain ⟨d, rfl⟩ := Dissection.exists_of_ofWords hCode
  obtain ⟨before, found, later, hFound⟩ := exists_found hInput
  obtain rfl := hFound.eq_declaration hDeclaration
  have hTail : d.tail = [] := d.tiled_code_iff.1 hTiled
  obtain ⟨e, hSpliced, hCut⟩ := exists_spliced hFound hTail levels
  obtain ⟨f, rfl, -, hKept, -⟩ := eliminate_eq_ok hInput hSpliced hResult
  have hBehind : d.code.words.drop (input.offset + 4) = declaration.drop 4 ++ later.flatten := by
    rw [hFound.drop_words, hTail, List.append_nil]
  have hExact : f.code.Tiled ↔ Tiles ((declarations d.code.freshId levels input.id).flatten ++
      (declaration.drop 4 ++ later.flatten)) := by
    rw [f.tiled_code_iff, hKept, hCut]
  have hLater : Tiles later.flatten := ⟨later, hFound.sized.2.2, rfl⟩
  rw [hBehind]
  refine ⟨hExact, ?_, ?_⟩
  · rintro ⟨hFour, hFits⟩
    have hSized := (sized_declarations_iff d.code.freshId levels input.id).2 hFits
    rw [hExact, tiles_flatten_append_iff (fun w hMem hWrong => (hWrong (hSized w hMem)).elim),
      List.drop_of_length_le (by omega)]
    exact ⟨hSized, hLater⟩
  · rintro ⟨hSmall, hInitializer⟩
    rw [hExact, tiles_declarations_iff hSmall, and_comm]
    refine and_congr_left fun _ => ?_
    -- The first word that stays behind is the initializer, and reading stops at it.
    cases hRest : declaration.drop 4 with
    | nil =>
        have hLong := hFound.four_le_length
        have hShort := List.drop_eq_nil_iff.1 hRest
        simp only [List.nil_append, hLater, true_iff]
        omega
    | cons initializer others =>
        have hFifth : declaration[4]? = some initializer := by
          rw [← List.head?_drop, hRest, List.head?_cons]
        have hLong : 4 < declaration.length := (List.getElem?_eq_some_iff.1 hFifth).1
        rw [List.cons_append]
        exact iff_of_false (not_tiles_cons_of_lt (hInitializer initializer hFifth) _) (by omega)

/-- A tiled module whose input at location zero has an initializer, and so five
words. -/
def initializedInputWords : List UInt32 :=
  [Header.magic, Header.version, 0, 20, 0] ++
    [encode Op.decorate [5, Decoration.location, 0],
      encode Op.typeFloat [2, 32],
      encode Op.typePointer [4, Storage.input, 2],
      encode Op.constant [2, 6, 0],
      encode Op.declareVariable [4, 5, Storage.input, 6],
      encode Op.typeVector [3, 2, 4]].flatten

def initializedInputModule : Code := ⟨.headed, initializedInputWords⟩

def initializedInputDeclaration : List UInt32 :=
  encode Op.declareVariable [4, 5, Storage.input, 6]

def initializedInputTypes : TypeTable :=
  ⟨[(2, .scalar 32), (4, .pointer 2 Storage.input)]⟩

def initializedInput : InputVariable := ⟨20, 4, 5⟩

/-- The initializer stays behind the private variable, where no instruction
starts. -/
def initializedInputRemoved : Code :=
  ⟨.headed, [Header.magic, Header.version, 0, 22, 0] ++
    [encode Op.typeFloat [2, 32],
      encode Op.typePointer [4, Storage.input, 2],
      encode Op.constant [2, 6, 0],
      encode Op.typePointer [20, Storage.privateClass, 2],
      encode Op.constant [2, 21, 0],
      encode Op.declareVariable [20, 5, Storage.privateClass, 21],
      [6],
      encode Op.typeVector [3, 2, 4]].flatten⟩

theorem ofWords_initializedInput :
    Code.ofWords initializedInputWords = .ok initializedInputModule := rfl

theorem tiled_initializedInput : initializedInputModule.Tiled := by
  rw [tiled_iff_length ofWords_initializedInput]
  cbv

theorem eliminate_initializedInput :
    eliminate initializedInputModule 0 = .ok (some initializedInputRemoved) := by
  cbv

theorem tiled_eliminate_iff_initializedInput :
    initializedInputModule.Tiled ∧
    eliminate initializedInputModule 0 = .ok (some initializedInputRemoved) ∧
    let levels := inputLevels initializedInputTypes initializedInputModule.freshId initializedInput
    (initializedInputRemoved.Tiled ↔
      Tiles ((declarations initializedInputModule.freshId levels 5).flatten ++
        initializedInputModule.words.drop 24)) ∧
    (SmallIds initializedInputModule.freshId levels ∧
        (∀ initializer, initializedInputDeclaration[4]? = some initializer →
          initializer.toNat < 65536) →
      (initializedInputRemoved.Tiled ↔
        initializedInputDeclaration.length = 4 ∧ Fits levels)) := by
  have hInput : findInput initializedInputModule 0 =
      (initializedInputTypes, some initializedInput) := by cbv
  have hDeclaration : ⟨initializedInput.offset, initializedInputDeclaration⟩ ∈
      initializedInputModule.instructions := by
    apply List.mem_of_getElem? (i := 4)
    cbv
  have hIff := tiled_eliminate_iff ofWords_initializedInput tiled_initializedInput hInput
    hDeclaration eliminate_initializedInput
  exact ⟨tiled_initializedInput, eliminate_initializedInput, hIff.1, hIff.2.2⟩

/-- An input with an initializer breaks the tiling. -/
theorem not_tiled_initializedInput :
    Code.ofWords initializedInputWords = .ok initializedInputModule ∧ initializedInputModule.Tiled ∧
    eliminate initializedInputModule 0 = .ok (some initializedInputRemoved) ∧
    ¬initializedInputRemoved.Tiled := by
  have hRemoved : Code.ofWords initializedInputRemoved.words = .ok initializedInputRemoved := rfl
  refine ⟨ofWords_initializedInput, tiled_initializedInput, eliminate_initializedInput, ?_⟩
  rw [tiled_iff_length hRemoved]
  cbv

end ShaderBackend.Spirv
