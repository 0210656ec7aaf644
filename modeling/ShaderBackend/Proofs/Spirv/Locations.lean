import Mathlib.Data.List.Basic
import ShaderBackend.Proofs.Spirv.Declarations

/-! Input variables and their locations. The search finds a variable exactly if one
stands at the location, and the removal takes this variable from the location. Any
other input at the same location stays, with its decoration in front of it. -/
namespace ShaderBackend.Spirv

theorem is_eq_false {ins : Instruction} {opcode other : UInt32} (h : ins.is opcode = true)
    (hNe : opcode ≠ other) : ins.is other = false := by
  rw [Instruction.is, beq_iff_eq] at h
  rw [Instruction.is, h, beq_eq_false_iff_ne]
  exact hNe

/-- Whether an instruction declares an input variable. -/
def declaresInput (words : List UInt32) : Bool :=
  (unplaced words).is Op.declareVariable && (unplaced words).arg 3 == Storage.input

namespace Listing

/-- An input variable that an earlier instruction puts at a location. -/
def InputAt (listing : Listing) (location : UInt32) (input : List UInt32) : Prop :=
  declaresInput input = true ∧ ∃ decoration, [decoration, input].Sublist listing ∧
    locates ((unplaced input).arg 2) decoration = true ∧ (unplaced decoration).arg 3 = location

end Listing

section Search

variable {location id : UInt32} {listing : Listing} {scan : InputScan}

/-- Candidates are the targets of the decorations with this location, in the order of the module. -/
theorem candidates_record (location : UInt32) (scan : InputScan) (ins : Instruction) :
    (scan.record location ins).candidates =
      if ins.decorates Decoration.location && ins.arg 3 == location then
        scan.candidates ++ [ins.arg 1]
      else scan.candidates := by
  cases hDecorate : ins.is Op.decorate with
  | true =>
      simp only [InputScan.record, hDecorate, if_true, Instruction.decorates, Bool.true_and]
      split <;> rfl
  | false =>
      simp only [InputScan.record, hDecorate, Instruction.decorates, Bool.false_and]
      repeat' split
      all_goals first | rfl | contradiction

/-- The candidates are the ids that the instructions read so far put at the location. -/
theorem mem_candidates_after :
    id ∈ (scan.after location listing).candidates ↔ id ∈ scan.candidates ∨
      ∃ decoration ∈ listing, locates id decoration = true ∧
        (unplaced decoration).arg 3 = location := by
  induction listing generalizing scan with
  | nil => simp [InputScan.after]
  | cons words rest ih =>
      have hFirst : id ∈ (scan.record location (unplaced words)).candidates ↔
          id ∈ scan.candidates ∨
            (locates id words = true ∧ (unplaced words).arg 3 = location) := by
        rw [candidates_record, locates]
        cases (unplaced words).decorates Decoration.location <;>
          by_cases hHere : (unplaced words).arg 3 = location <;>
          simp [hHere, @eq_comm _ id]
      have hRest := @ih (scan.record location (unplaced words))
      rw [hFirst] at hRest
      rw [InputScan.after, List.foldl_cons]
      exact hRest.trans (by simp [or_assoc])

/-- The search stops at an instruction exactly if it declares an input at the location. -/
theorem finds_after_iff {declaration : List UInt32} :
    (InputScan.after location {} listing).finds (unplaced declaration) = true ↔
      declaresInput declaration = true ∧ ∃ decoration ∈ listing,
        locates ((unplaced declaration).arg 2) decoration = true ∧
          (unplaced decoration).arg 3 = location := by
  rw [InputScan.finds, Bool.and_eq_true, List.contains_iff_mem, mem_candidates_after]
  simp [declaresInput]

/-- An input stands at a location if a decoration in front of it says so. A decoration behind it
comes too late for the search. -/
theorem inputAt_of_split {before later : Listing} {input : List UInt32}
    (hSplit : listing = before ++ input :: later) (hInput : declaresInput input = true)
    (h : ∃ decoration ∈ before, locates ((unplaced input).arg 2) decoration = true ∧
      (unplaced decoration).arg 3 = location) : listing.InputAt location input := by
  obtain ⟨decoration, hMem, hLocates⟩ := h
  refine ⟨hInput, decoration, ?_, hLocates⟩
  rw [hSplit]
  exact (List.singleton_sublist.2 hMem).append (List.singleton_sublist.2 (List.mem_cons_self ..))

theorem Listing.InputAt.exists_split {input : List UInt32} (h : listing.InputAt location input) :
    ∃ before later, listing = before ++ input :: later ∧
      ∃ decoration ∈ before, locates ((unplaced input).arg 2) decoration = true ∧
        (unplaced decoration).arg 3 = location := by
  obtain ⟨-, decoration, hOrder, hLocates⟩ := h
  obtain ⟨front, rest, rfl, hFront, hRest⟩ := List.cons_sublist_iff.1 hOrder
  obtain ⟨middle, later, rfl⟩ := List.append_of_mem (List.singleton_sublist.1 hRest)
  exact ⟨front ++ middle, later, by rw [List.append_assoc], decoration,
    List.mem_append_left _ hFront, hLocates⟩

/-- The search comes back empty exactly if no input variable stands at the location. -/
theorem findInput_eq_none_iff {d : Dissection} :
    (findInput d.code location).2 = none ↔ ∀ input, ¬d.listing.InputAt location input := by
  constructor
  · intro hNone input hInput
    obtain ⟨before, later, hSplit, hDecorated⟩ := hInput.exists_split
    have hSearch : InputScan.run location {} (place Header.length d.listing) =
        ((findInput d.code location).1, none) := by
      rw [← hNone, ← d.instructions_code]
      rfl
    have hFinds := run_place_eq_none hSearch hSplit
    rw [finds_after_iff.2 ⟨hInput.1, hDecorated⟩] at hFinds
    cases hFinds
  · intro hEmpty
    rcases hSearch : findInput d.code location with ⟨types, _ | input⟩
    · rfl
    · obtain ⟨before, declaration, later, hFound, -, hFinds⟩ := exists_read hSearch
      obtain ⟨hInput, hDecorated⟩ := finds_after_iff.1 hFinds
      exact (hEmpty declaration (inputAt_of_split hFound.split hInput hDecorated)).elim

/-- Without an input at the location nothing is done. -/
theorem eliminate_eq_none_of_forall {d : Dissection}
    (h : ∀ input, ¬d.listing.InputAt location input) : eliminate d.code location = .ok none := by
  have hSearch := findInput_eq_none_iff.2 h
  rw [eliminate]
  rcases hFound : findInput d.code location with ⟨types, input⟩
  rw [hFound] at hSearch
  cases hSearch
  rfl

end Search

section Removal

theorem filter_eraseP_of_imp {property kind : List UInt32 → Bool}
    (h : ∀ words, property words = true → kind words = false) (listing : Listing) :
    (listing.eraseP property).filter kind = listing.filter kind := by
  induction listing with
  | nil => rfl
  | cons words rest ih =>
      cases hHere : property words with
      | true =>
          rw [List.eraseP_cons_of_pos hHere, List.filter_cons_of_neg (by simp [h words hHere])]
      | false =>
          rw [List.eraseP_cons_of_neg (by simp [hHere]), List.filter_cons, List.filter_cons, ih]

/-- A kind of instruction that the edits behind a replacement neither change nor drop. -/
def KeptKind (id : UInt32) (kind : List UInt32 → Bool) : Prop :=
  ∀ words, (unplaced words).is Op.entryPoint = true ∨ (unplaced words).isAccessChain = true ∨
    locates id words = true → kind words = false

/-- A kind of instruction that no edit touches comes out of a removal as it was. -/
theorem filter_removal {id : UInt32} {kind : List UInt32 → Bool} (hKind : KeptKind id kind)
    {levels : List PrivateLevel} {listing result : Listing}
    (h : Listing.retype? levels id (fun _ => none)
      ((listing.map (withoutInterface id)).eraseP (locates id)) = some result) :
    result.filter kind = listing.filter kind := by
  rw [(edited_retype? h).filter_eq fun words hChain => hKind words (Or.inr (Or.inl hChain)),
    filter_eraseP_of_imp fun words hLocates => hKind words (Or.inr (Or.inr hLocates)),
    (edited_withoutInterface id listing).filter_eq fun words hEntry => hKind words (Or.inl hEntry)]

/-- Whether an instruction is an input variable or a location, of another id than this. -/
def placesOther (id : UInt32) (words : List UInt32) : Bool :=
  (declaresInput words && (unplaced words).arg 2 != id) ||
    ((unplaced words).decorates Decoration.location && (unplaced words).arg 1 != id)

theorem not_decorates_of_is {words : List UInt32} {opcode : UInt32}
    (h : (unplaced words).is opcode = true) (hNe : opcode ≠ Op.decorate) (decoration : UInt32) :
    (unplaced words).decorates decoration = false := by
  rw [Instruction.decorates, is_eq_false h hNe, Bool.false_and]

theorem not_declaresInput_of_is {words : List UInt32} {opcode : UInt32}
    (h : (unplaced words).is opcode = true) (hNe : opcode ≠ Op.declareVariable) :
    declaresInput words = false := by
  rw [declaresInput, is_eq_false h hNe, Bool.false_and]

theorem is_decorate_of_locates {id : UInt32} {words : List UInt32} (h : locates id words = true) :
    (unplaced words).is Op.decorate = true := by
  simp only [locates, Instruction.decorates, Bool.and_eq_true] at h
  exact h.1.1

theorem is_variable_of_declaresInput {words : List UInt32} (h : declaresInput words = true) :
    (unplaced words).is Op.declareVariable = true := (Bool.and_eq_true_iff.1 h).1

/-- What the edits touch is an entry point, an access chain or a decoration. -/
theorem is_of_touched {id : UInt32} {words : List UInt32}
    (h : (unplaced words).is Op.entryPoint = true ∨ (unplaced words).isAccessChain = true ∨
      locates id words = true) :
    (unplaced words).is Op.entryPoint = true ∨ (unplaced words).is Op.accessChain = true ∨
      (unplaced words).is Op.inBoundsAccessChain = true ∨
      (unplaced words).is Op.decorate = true := by
  rcases h with hEntry | hChain | hLocates
  · exact Or.inl hEntry
  · exact (Bool.or_eq_true_iff.1 hChain).elim (Or.inr ∘ Or.inl) (Or.inr ∘ Or.inr ∘ Or.inl)
  · exact Or.inr (Or.inr (Or.inr (is_decorate_of_locates hLocates)))

/-- Variables are neither changed nor dropped. -/
theorem keptKind_of_variable {id : UInt32} {kind : List UInt32 → Bool}
    (h : ∀ words, kind words = true → (unplaced words).is Op.declareVariable = true) :
    KeptKind id kind := by
  intro words hTouched
  by_contra hKind
  have hVariable := h words (Bool.not_eq_false _ ▸ hKind)
  rcases is_of_touched hTouched with hOpcode | hOpcode | hOpcode | hOpcode <;>
    exact absurd hVariable (by rw [is_eq_false hOpcode (by decide)]; decide)

/-- Removing one input leaves the inputs and the locations of all others alone. -/
theorem keptKind_placesOther (id : UInt32) : KeptKind id (placesOther id) := by
  intro words hTouched
  have hInput : declaresInput words = false :=
    keptKind_of_variable (fun _ => is_variable_of_declaresInput) words hTouched
  rw [placesOther, hInput, Bool.false_and, Bool.false_or]
  rcases hTouched with hEntry | hChain | hLocates
  · rw [not_decorates_of_is hEntry (by decide), Bool.false_and]
  · rcases Bool.or_eq_true_iff.1 hChain with hOpcode | hOpcode <;>
      rw [not_decorates_of_is hOpcode (by decide), Bool.false_and]
  · rw [locates, Bool.and_eq_true, beq_iff_eq] at hLocates
    simp [hLocates.2]

/-- The declarations in the place of a variable are no inputs and give no locations. -/
theorem not_places_of_mem_declarations {ids : Nat → UInt32} {levels : List PrivateLevel}
    {id : UInt32} {words : List UInt32} (h : words ∈ declarations ids levels id) :
    declaresInput words = false ∧
      ∀ decoration, (unplaced words).decorates decoration = false := by
  have hOpcode (opcode : UInt32) (operands : List UInt32) (hSmall : opcode &&& 0xffff = opcode) :
      (unplaced (encode opcode operands)).is opcode = true := by
    rw [is_encode, hSmall, beq_self_eq_true]
  rcases mem_declarations h with ⟨level, -, -, rfl⟩ | ⟨depth, level, -, rfl⟩ | rfl
  · have hPointer := hOpcode Op.typePointer [level.pointer, Storage.privateClass, level.pointee]
      (by decide)
    exact ⟨not_declaresInput_of_is hPointer (by decide), not_decorates_of_is hPointer (by decide)⟩
  · rw [zeroConstant]
    split
    · have hConstant := hOpcode Op.constant [level.pointee, constantId ids levels depth, 0]
        (by decide)
      exact ⟨not_declaresInput_of_is hConstant (by decide),
        not_decorates_of_is hConstant (by decide)⟩
    · have hComposite := hOpcode Op.constantComposite (level.pointee ::
        constantId ids levels depth ::
        List.replicate level.size.toNat (constantId ids levels (depth + 1))) (by decide)
      exact ⟨not_declaresInput_of_is hComposite (by decide),
        not_decorates_of_is hComposite (by decide)⟩
  · have hVariable := hOpcode Op.declareVariable
      [(levels.head?.map (·.pointer)).getD 0, id, Storage.privateClass, constantId ids levels 0]
      (by decide)
    refine ⟨?_, not_decorates_of_is hVariable (by decide)⟩
    rw [declaresInput, Bool.and_eq_false_iff]
    exact Or.inr rfl

variable {types : TypeTable} {input : InputVariable} {before later listing result : Listing}
  {declaration : List UInt32} {ids : Nat → UInt32} {levels : List PrivateLevel}

theorem Found.declaresInput (h : Found listing types input before declaration later) :
    Spirv.declaresInput declaration = true := by
  rw [Spirv.declaresInput, h.opcode, h.storage]
  rfl

/-- Inputs and locations of other ids are the same after the removal, in the same order. -/
theorem Found.filter_placesOther (hFound : Found listing types input before declaration later)
    (h : Listing.retype? levels input.id (fun _ => none)
      (((before ++ declarations ids levels input.id ++ later).map
        (withoutInterface input.id)).eraseP (locates input.id)) = some result) :
    result.filter (placesOther input.id) = listing.filter (placesOther input.id) := by
  have hInserted : (declarations ids levels input.id).filter (placesOther input.id) = [] := by
    rw [List.filter_eq_nil_iff]
    intro words hMem
    obtain ⟨hInput, hLocation⟩ := not_places_of_mem_declarations hMem
    simp [placesOther, hInput, hLocation]
  have hDeclaration : placesOther input.id declaration = false := by
    simp [placesOther, hFound.id, not_decorates_of_is hFound.opcode (by decide)]
  rw [filter_removal (keptKind_placesOther input.id) h, hFound.split]
  simp [List.filter_append, hInserted, hDeclaration]

/-- Whether another input stands at a location depends only on the instructions about other ids. -/
theorem inputAt_filter_iff {location id : UInt32} {other : List UInt32}
    (hNe : (unplaced other).arg 2 ≠ id) :
    Listing.InputAt (listing.filter (placesOther id)) location other ↔
      listing.InputAt location other := by
  constructor
  · rintro ⟨hInput, decoration, hOrder, hLocates⟩
    exact ⟨hInput, decoration, hOrder.trans List.filter_sublist, hLocates⟩
  · rintro ⟨hInput, decoration, hOrder, hLocates, hLocation⟩
    have hOther : placesOther id other = true := by simp [placesOther, hInput, hNe]
    have hDecoration : placesOther id decoration = true := by
      rw [locates, Bool.and_eq_true, beq_iff_eq] at hLocates
      simp [placesOther, hLocates.1, hLocates.2, hNe]
    refine ⟨hInput, decoration, ?_, hLocates, hLocation⟩
    have hKept := hOrder.filter (placesOther id)
    rwa [List.filter_cons_of_pos hDecoration, List.filter_cons_of_pos hOther,
      List.filter_nil] at hKept

/-- A removal moves no other input to a location or from it. -/
theorem Found.inputAt_iff (hFound : Found listing types input before declaration later)
    (h : Listing.retype? levels input.id (fun _ => none)
      (((before ++ declarations ids levels input.id ++ later).map
        (withoutInterface input.id)).eraseP (locates input.id)) = some result)
    {location : UInt32} {other : List UInt32} (hNe : (unplaced other).arg 2 ≠ input.id) :
    result.InputAt location other ↔ listing.InputAt location other := by
  rw [← inputAt_filter_iff hNe, hFound.filter_placesOther h, inputAt_filter_iff hNe]

/-- The input variables with an id. -/
def Listing.inputsOf (listing : Listing) (id : UInt32) : Listing :=
  listing.filter fun words => Spirv.declaresInput words && (unplaced words).arg 2 == id

/-- A variable that is declared once is no input any more. -/
theorem Found.inputsOf_eq_nil (hFound : Found listing types input before declaration later)
    (hOnce : (listing.inputsOf input.id).length = 1)
    (h : Listing.retype? levels input.id (fun _ => none)
      (((before ++ declarations ids levels input.id ++ later).map
        (withoutInterface input.id)).eraseP (locates input.id)) = some result) :
    result.inputsOf input.id = [] := by
  have hKept : KeptKind input.id fun words =>
      Spirv.declaresInput words && (unplaced words).arg 2 == input.id :=
    keptKind_of_variable fun words hKind =>
      is_variable_of_declaresInput (Bool.and_eq_true_iff.1 hKind).1
  have hInserted : (declarations ids levels input.id).filter (fun words =>
      Spirv.declaresInput words && (unplaced words).arg 2 == input.id) = [] := by
    rw [List.filter_eq_nil_iff]
    intro words hMem
    simp [(not_places_of_mem_declarations hMem).1]
  rw [Listing.inputsOf, hFound.split] at hOnce
  simp only [List.filter_append, List.filter_cons, hFound.declaresInput, hFound.id,
    beq_self_eq_true, Bool.true_and, if_true, List.length_append, List.length_cons] at hOnce
  rw [Listing.inputsOf, filter_removal hKept h, List.filter_append, List.filter_append, hInserted,
    List.append_nil, ← List.length_eq_zero_iff, List.length_append, hFound.id]
  omega

end Removal

/-- The removal of an input leaves every other input at its location, with the decoration that
puts it there. So the location is free afterwards exactly if no other input was at it, and then a
second removal has nothing to do. -/
theorem inputAt_eliminate_iff {words : List UInt32} {code result : Code} {location : UInt32}
    {types : TypeTable} {input : InputVariable} (hCode : Code.ofWords words = .ok code)
    (hInput : findInput code location = (types, some input))
    (hFour : ∀ ins ∈ code.instructions, ins.offset = input.offset → ins.length = 4)
    (hFits : Fits (inputLevels types code.freshId input))
    (hOnce : (code.listing.inputsOf input.id).length = 1)
    (hResult : eliminate code location = .ok (some result)) :
    (∀ other, result.listing.InputAt location other ↔
      code.listing.InputAt location other ∧ (unplaced other).arg 2 ≠ input.id) ∧
    ((∀ other, ¬result.listing.InputAt location other) ↔
      ∀ other, code.listing.InputAt location other → (unplaced other).arg 2 = input.id) ∧
    ((∀ other, code.listing.InputAt location other → (unplaced other).arg 2 = input.id) →
      eliminate result location = .ok none) := by
  obtain ⟨d, rfl⟩ := Dissection.exists_of_ofWords hCode
  obtain ⟨before, declaration, later, f, hFound, rfl, -, -, hRetyped⟩ :=
    Dissection.exists_removed hInput hFour hFits hResult
  rw [Dissection.listing_code] at hOnce ⊢
  rw [Dissection.listing_code]
  have hLeft (other : List UInt32) : f.listing.InputAt location other ↔
      d.listing.InputAt location other ∧ (unplaced other).arg 2 ≠ input.id := by
    by_cases hSame : (unplaced other).arg 2 = input.id
    · refine iff_of_false ?_ (fun hOther => hOther.2 hSame)
      rintro ⟨hOther, decoration, hOrder, -⟩
      have hMem : other ∈ f.listing.inputsOf input.id :=
        List.mem_filter.2 ⟨hOrder.subset (by simp), by simp [hOther, hSame]⟩
      rw [hFound.inputsOf_eq_nil hOnce hRetyped] at hMem
      cases hMem
    · rw [hFound.inputAt_iff hRetyped hSame]
      simp [hSame]
  have hFree : (∀ other, ¬f.listing.InputAt location other) ↔
      ∀ other, d.listing.InputAt location other → (unplaced other).arg 2 = input.id := by
    simp only [hLeft, not_and, not_not]
  exact ⟨hLeft, hFree, fun hAlone => eliminate_eq_none_of_forall (hFree.2 hAlone)⟩

/-- Two inputs that share a location, in different components of it. -/
def sharedInputWords : List UInt32 :=
  [Header.magic, Header.version, 0, 20, 0] ++
    [encode Op.decorate [5, Decoration.location, 0],
      encode Op.decorate [8, Decoration.location, 0],
      encode Op.decorate [8, 31, 1],
      encode Op.typeFloat [2, 32],
      encode Op.typePointer [4, Storage.input, 2],
      encode Op.declareVariable [4, 5, Storage.input],
      encode Op.declareVariable [4, 8, Storage.input]].flatten

def sharedInputModule : Code := ⟨.headed, sharedInputWords⟩

def sharedInputTypes : TypeTable :=
  ⟨[(2, .scalar 32), (4, .pointer 2 Storage.input)]⟩

/-- The second input is still decorated and still an input. -/
def sharedInputRemoved : Code :=
  ⟨.headed, [Header.magic, Header.version, 0, 22, 0] ++
    [encode Op.decorate [8, Decoration.location, 0],
      encode Op.decorate [8, 31, 1],
      encode Op.typeFloat [2, 32],
      encode Op.typePointer [4, Storage.input, 2],
      encode Op.typePointer [20, Storage.privateClass, 2],
      encode Op.constant [2, 21, 0],
      encode Op.declareVariable [20, 5, Storage.privateClass, 21],
      encode Op.declareVariable [4, 8, Storage.input]].flatten⟩

theorem eliminate_sharedInput :
    eliminate sharedInputModule 0 = .ok (some sharedInputRemoved) := by
  cbv

theorem inputAt_eliminate_iff_sharedInput :
    Code.ofWords sharedInputWords = .ok sharedInputModule ∧
    findInput sharedInputModule 0 = (sharedInputTypes, some ⟨24, 4, 5⟩) ∧
    (∀ ins ∈ sharedInputModule.instructions, ins.offset = 24 → ins.length = 4) ∧
    Fits (inputLevels sharedInputTypes sharedInputModule.freshId ⟨24, 4, 5⟩) ∧
    (sharedInputModule.listing.inputsOf 5).length = 1 ∧
    eliminate sharedInputModule 0 = .ok (some sharedInputRemoved) ∧
    ∀ other, sharedInputRemoved.listing.InputAt 0 other ↔
      sharedInputModule.listing.InputAt 0 other ∧ (unplaced other).arg 2 ≠ 5 := by
  have hCode : Code.ofWords sharedInputWords = .ok sharedInputModule := rfl
  have hInput : findInput sharedInputModule 0 = (sharedInputTypes, some ⟨24, 4, 5⟩) := by cbv
  have hFour : ∀ ins ∈ sharedInputModule.instructions, ins.offset = 24 → ins.length = 4 := by
    have hAll : (sharedInputModule.instructions.all fun ins =>
        decide (ins.offset = 24 → ins.length = 4)) = true := by cbv
    exact fun ins hMem => of_decide_eq_true (List.all_eq_true.1 hAll ins hMem)
  have hFits : Fits (inputLevels sharedInputTypes sharedInputModule.freshId ⟨24, 4, 5⟩) :=
    of_decide_eq_true (by cbv)
  have hOnce : (sharedInputModule.listing.inputsOf 5).length = 1 := by cbv
  exact ⟨hCode, hInput, hFour, hFits, hOnce, eliminate_sharedInput,
    (inputAt_eliminate_iff hCode hInput hFour hFits hOnce eliminate_sharedInput).1⟩

/-- An input of a recorded type still stands at the location, and a second removal takes it. -/
theorem inputAt_sharedInputRemoved :
    eliminate sharedInputModule 0 = .ok (some sharedInputRemoved) ∧
    sharedInputRemoved.listing.InputAt 0 (encode Op.declareVariable [4, 8, Storage.input]) ∧
    (∃ types input, findInput sharedInputRemoved 0 = (types, some input) ∧ input.id = 8 ∧
      types.get? input.typeId = some (.pointer 2 Storage.input) ∧
      types.get? 2 = some (.scalar 32)) ∧
    ∃ again, eliminate sharedInputRemoved 0 = .ok (some again) := by
  refine ⟨eliminate_sharedInput, ⟨by cbv, encode Op.decorate [8, Decoration.location, 0],
    of_decide_eq_true (by cbv), by cbv, by cbv⟩, ⟨_, _, by cbv, by cbv, by cbv, by cbv⟩, ?_⟩
  exact ⟨_, by cbv⟩

end ShaderBackend.Spirv
