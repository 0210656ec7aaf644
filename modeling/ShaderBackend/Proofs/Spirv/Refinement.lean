import Mathlib.Data.List.Permutation
import ShaderBackend.Proofs.Spirv.Removal

/-! The removal of an input on the word stream does to the list of instructions
what the removal on that list says, instruction by instruction and in the same
order. Outside of the instructions only the id bound changes. -/
namespace ShaderBackend.Spirv

/-- A variable of four words makes room for exactly the declarations, so that
the stream with the replaced variable is cut into the expected instructions. -/
theorem spliced_code {d : Dissection} {types : TypeTable} {input : InputVariable}
    {before later : Listing} {declaration : List UInt32}
    (hFound : Found d.listing types input before declaration later)
    (hFour : declaration.length = 4) {levels : List PrivateLevel} (hFits : Fits levels) :
    ∃ e : Dissection, spliced d.code levels input = e.code ∧
      e.header = d.header.set Header.boundOffset (d.code.freshId (freshIds levels)) ∧
      e.tail = d.tail ∧
      e.listing = before ++ declarations d.code.freshId levels input.id ++ later := by
  have hSized : ∀ words ∈ declarations d.code.freshId levels input.id ++ later, Sized words := by
    rw [List.forall_mem_append, sized_declarations_iff]
    exact ⟨hFits, hFound.sized.2.2⟩
  obtain ⟨e, hSpliced, hHeader, hListing, hTail⟩ := hFound.exists_spliced levels hSized d.stuck (by
    rw [List.drop_of_length_le (by omega), List.nil_append, List.flatten_append])
  exact ⟨e, hSpliced, hHeader, hTail, by rw [hListing, List.append_assoc]⟩

/-- The removal of a variable of four words whose levels fit, followed from the
place of the variable to the final listing. -/
theorem Found.exists_removed {d : Dissection} {result : Code} {location : UInt32}
    {types : TypeTable} {input : InputVariable} {before later : Listing} {declaration : List UInt32}
    (hFound : Found d.listing types input before declaration later)
    (hInput : findInput d.code location = (types, some input))
    (hFour : declaration.length = 4) (hFits : Fits (inputLevels types d.code.freshId input))
    (hResult : eliminate d.code location = .ok (some result)) :
    let levels := inputLevels types d.code.freshId input
    ∃ f : Dissection, result = f.code ∧
      f.header = d.header.set Header.boundOffset (d.code.freshId (freshIds levels)) ∧
      f.tail = d.tail ∧
      Listing.retype? levels input.id (fun _ => none)
        (((before ++ declarations d.code.freshId levels input.id ++ later).map
          (withoutInterface input.id)).eraseP (locates input.id)) = some f.listing := by
  intro levels
  obtain ⟨e, hSpliced, hHeader, hTail, hListing⟩ := spliced_code hFound hFour hFits
  obtain ⟨f, hResult, hKeptHeader, hKeptTail, hRetyped⟩ := eliminate_eq_ok hInput hSpliced hResult
  rw [hListing] at hRetyped
  exact ⟨f, hResult, hKeptHeader.trans hHeader, hKeptTail.trans hTail, hRetyped⟩

/-- The removal of an input, seen as what it does to the header, the listing and the tail of the
module. -/
theorem Dissection.exists_removed {d : Dissection} {result : Code} {location : UInt32}
    {types : TypeTable} {input : InputVariable}
    (hInput : findInput d.code location = (types, some input))
    (hFour : ∀ ins ∈ d.code.instructions, ins.offset = input.offset → ins.length = 4)
    (hFits : Fits (inputLevels types d.code.freshId input))
    (hResult : eliminate d.code location = .ok (some result)) :
    let levels := inputLevels types d.code.freshId input
    ∃ (before : Listing) (declaration : List UInt32) (later : Listing) (f : Dissection),
      Found d.listing types input before declaration later ∧ result = f.code ∧
      f.header = d.header.set Header.boundOffset (d.code.freshId (freshIds levels)) ∧
      f.tail = d.tail ∧
      Listing.retype? levels input.id (fun _ => none)
        (((before ++ declarations d.code.freshId levels input.id ++ later).map
          (withoutInterface input.id)).eraseP (locates input.id)) = some f.listing := by
  intro levels
  obtain ⟨before, declaration, later, hFound⟩ := exists_found hInput
  have hLength : declaration.length = 4 :=
    hFour _ (List.mem_of_getElem? hFound.getElem?_instructions) rfl
  obtain ⟨f, hRemoved⟩ := hFound.exists_removed hInput hLength hFits hResult
  exact ⟨before, declaration, later, f, hFound, hRemoved⟩

/-- Removing the input at a location by offsets is the removal on instructions.
The declarations take the place of the variable, entry points lose their first
mention of it, its first location goes, and the access chains below it change
their result types. Header and trailing words are kept apart from the bound. -/
theorem eliminate_refines_removeInput {words : List UInt32} {code result : Code}
    {location : UInt32} {types : TypeTable} {input : InputVariable}
    (hCode : Code.ofWords words = .ok code)
    (hInput : findInput code location = (types, some input))
    (hFour : ∀ ins ∈ code.instructions, ins.offset = input.offset → ins.length = 4)
    (hFits : Fits (inputLevels types code.freshId input))
    (hResult : eliminate code location = .ok (some result)) :
    let levels := inputLevels types code.freshId input
    ∃ index,
      code.instructions[index]?.map (·.offset) = some input.offset ∧
      code.listing.removeInput? levels input.id index
          (declarations code.freshId levels input.id) = some result.listing ∧
      result.words =
        (code.words.take Header.length).set Header.boundOffset (code.freshId (freshIds levels)) ++
          result.listing.flatten ++
          code.words.drop (Header.length + code.listing.flatten.length) := by
  intro levels
  obtain ⟨d, rfl⟩ := Dissection.exists_of_ofWords hCode
  obtain ⟨before, declaration, later, f, hFound, rfl, hHeader, hTail, hRetyped⟩ :=
    Dissection.exists_removed hInput hFour hFits hResult
  refine ⟨before.length, by rw [hFound.getElem?_instructions]; rfl, ?_, ?_⟩
  · have hReplace : d.listing.replace before.length (declarations d.code.freshId levels input.id) =
        before ++ declarations d.code.freshId levels input.id ++ later := by
      simp [hFound.split, Listing.replace]
    rw [Dissection.listing_code, Dissection.listing_code, Listing.removeInput?, hReplace]
    exact hRetyped
  · rw [Dissection.listing_code, Dissection.listing_code, Dissection.take_words_code,
      Dissection.drop_words_code]
    change f.header ++ f.listing.flatten ++ f.tail = _
    rw [hHeader, hTail]

/-- A module with one input: a vector of four floats at location zero, listed by
an entry point and read through an access chain, next to an unrelated chain. -/
def vectorInputWords : List UInt32 :=
  [Header.magic, Header.version, 0, 20, 0] ++
    [encode Op.entryPoint [4, 1, 0x6e69616d, 0, 5, 9],
      encode Op.decorate [5, Decoration.location, 0],
      encode Op.typeFloat [2, 32],
      encode Op.typeVector [3, 2, 4],
      encode Op.typePointer [4, Storage.input, 3],
      encode Op.typePointer [6, Storage.privateClass, 2],
      encode Op.declareVariable [4, 5, Storage.input],
      encode Op.accessChain [7, 8, 5, 10],
      encode Op.accessChain [7, 11, 9, 10]].flatten

def vectorInputModule : Code := ⟨.headed, vectorInputWords⟩

def vectorInputTypes : TypeTable :=
  ⟨[(2, .scalar 32), (3, .vector 2 4), (4, .pointer 3 Storage.input),
    (6, .pointer 2 Storage.privateClass)]⟩

/-- The same module without the input. The float keeps its private pointer, and
the vector gets a new one. -/
def vectorInputRemoved : Code :=
  ⟨.headed, [Header.magic, Header.version, 0, 23, 0] ++
    [encode Op.entryPoint [4, 1, 0x6e69616d, 0, 9],
      encode Op.typeFloat [2, 32],
      encode Op.typeVector [3, 2, 4],
      encode Op.typePointer [4, Storage.input, 3],
      encode Op.typePointer [6, Storage.privateClass, 2],
      encode Op.typePointer [20, Storage.privateClass, 3],
      encode Op.constant [2, 21, 0],
      encode Op.constantComposite [3, 22, 21, 21, 21, 21],
      encode Op.declareVariable [20, 5, Storage.privateClass, 22],
      encode Op.accessChain [6, 8, 5, 10],
      encode Op.accessChain [7, 11, 9, 10]].flatten⟩

theorem ofWords_vectorInput : Code.ofWords vectorInputWords = .ok vectorInputModule := rfl

theorem findInput_vectorInput :
    findInput vectorInputModule 0 = (vectorInputTypes, some ⟨31, 4, 5⟩) := by
  cbv

theorem eliminate_vectorInput :
    eliminate vectorInputModule 0 = .ok (some vectorInputRemoved) := by
  cbv

theorem four_words_vectorInput :
    ∀ ins ∈ vectorInputModule.instructions, ins.offset = 31 → ins.length = 4 := by
  have hAll : (vectorInputModule.instructions.all
      fun ins => ins.offset != 31 || ins.length == 4) = true := by cbv
  intro ins hMem hOffset
  simpa [hOffset] using List.all_eq_true.1 hAll ins hMem

theorem fits_vectorInput :
    Fits (inputLevels vectorInputTypes vectorInputModule.freshId ⟨31, 4, 5⟩) :=
  of_decide_eq_true (by cbv)

/-- A vector becomes a private variable with a composite constant. -/
theorem eliminate_refines_removeInput_vectorInput :
    Code.ofWords vectorInputWords = .ok vectorInputModule ∧
    findInput vectorInputModule 0 = (vectorInputTypes, some ⟨31, 4, 5⟩) ∧
    (∀ ins ∈ vectorInputModule.instructions, ins.offset = 31 → ins.length = 4) ∧
    eliminate vectorInputModule 0 = .ok (some vectorInputRemoved) ∧
    let levels := inputLevels vectorInputTypes vectorInputModule.freshId ⟨31, 4, 5⟩
    Fits levels ∧
    ∃ index,
      vectorInputModule.instructions[index]?.map (·.offset) = some 31 ∧
      vectorInputModule.listing.removeInput? levels 5 index
          (declarations vectorInputModule.freshId levels 5) = some vectorInputRemoved.listing ∧
      vectorInputRemoved.words =
        (vectorInputModule.words.take Header.length).set Header.boundOffset
            (vectorInputModule.freshId (freshIds levels)) ++
          vectorInputRemoved.listing.flatten ++
          vectorInputModule.words.drop (Header.length + vectorInputModule.listing.flatten.length) :=
  ⟨ofWords_vectorInput, findInput_vectorInput, four_words_vectorInput, eliminate_vectorInput,
    fits_vectorInput,
    eliminate_refines_removeInput ofWords_vectorInput findInput_vectorInput four_words_vectorInput
      fits_vectorInput eliminate_vectorInput⟩

end ShaderBackend.Spirv
