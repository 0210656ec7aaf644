import ShaderBackend.Proofs.Spirv.Checked
import ShaderBackend.Proofs.Spirv.Retyping

/-! Where the removal of an input leaves its bounds. The edits in front of the access chains only
touch words of instructions that they have read, whatever the lengths of these. What can go wrong is
a sum of 32 bits, for an id or for the length of a constant, and an access chain of less than four
words. -/
namespace ShaderBackend.Spirv

section Chains

/-- Reading a chain of less than four words fails. -/
theorem mapM_read_eq_error {stream : List Instruction} (h : ¬ ∀ ins ∈ stream, 4 ≤ ins.length) :
    ∃ offset, stream.mapM AccessChain.read = .error (.truncatedAccessChain offset) := by
  induction stream with
  | nil => exact (h fun _ hMem => absurd hMem List.not_mem_nil).elim
  | cons ins rest ih =>
      rw [List.mapM_cons, AccessChain.read]
      split
      · exact ⟨ins.offset, rfl⟩
      · rename_i hLong
        obtain ⟨offset, hRest⟩ := ih fun hAll =>
          h (List.forall_mem_cons.2 ⟨Nat.le_of_not_lt hLong, hAll⟩)
        rw [hRest]
        exact ⟨offset, rfl⟩

theorem completeChains_listing (code : Code) : CompleteChains code.listing ↔
    ∀ ins ∈ code.instructions.filter (·.isAccessChain), 4 ≤ ins.length := by
  simp only [CompleteChains, Code.listing, List.forall_mem_map, List.mem_filter, and_imp]
  rfl

end Chains

/-- What makes the removal of an input leave its bounds. -/
inductive Overruns (code : Code) (levels : List PrivateLevel) (input : InputVariable) : Prop where
  /-- The id bound leaves no room for the new ids. -/
  | ids (hFull : ¬ code.bound.toNat + freshIds levels < UInt32.size)
  /-- A constant repeats another one so often that its length is no sum of 32 bits. -/
  | length (hLong : ¬ Countable levels.dropLast)
  /-- The module has an access chain of less than four words. -/
  | chain (hShort : ¬ CompleteChains (prepared code levels input).listing)

/-- Whether there is an input at a location whose removal leaves its bounds. -/
def Code.Overruns (code : Code) (location : UInt32) : Prop :=
  ∃ types input, findInput code location = (types, some input) ∧
    inputLevels types code.freshId input ≠ [] ∧
    Spirv.Overruns code (inputLevels types code.freshId input) input

section Removal

variable {d : Dissection} {types : TypeTable} {input : InputVariable} {location : UInt32}

/-- How a removal ends that changes something, by the access chains that its last edit meets. -/
theorem eliminate_ends (hInput : findInput d.code location = (types, some input))
    (hLevels : inputLevels types d.code.freshId input ≠ []) :
    let chains := (prepared d.code (inputLevels types d.code.freshId input) input).listing
    (CompleteChains chains ∧ ((∃ result, eliminate d.code location = .ok (some result)) ∨
      ∃ result depth id levels,
        eliminate d.code location = .error (.chainTooDeep result depth id levels))) ∨
    ¬ CompleteChains chains ∧
      ∃ offset, eliminate d.code location = .error (.truncatedAccessChain offset) := by
  intro chains
  obtain ⟨before, declaration, later, hFound⟩ := exists_found hInput
  obtain ⟨e, hSpliced⟩ := hFound.exists_cut (inputLevels types d.code.freshId input)
  have hPrepared := prepared_code hSpliced
  have hEnd := eliminate_eq hInput hLevels
  rw [← prepared, hPrepared] at hEnd
  simp only [chains, hPrepared]
  generalize (e.unlist input.id).unlocate input.id = g at hEnd
  by_cases hComplete : CompleteChains g.code.listing
  · refine .inl ⟨hComplete, ?_⟩
    rw [Dissection.listing_code] at hComplete
    have hPass :=
      g.retypeAccessChains_code (inputLevels types d.code.freshId input) input.id hComplete
    split at hPass
    · exact .inl ⟨_, by rw [hEnd, hPass]; rfl⟩
    · obtain ⟨result, depth, hDeep⟩ := hPass
      exact .inr ⟨result, depth, _, _, by rw [hEnd, hDeep]; rfl⟩
  · refine .inr ⟨hComplete, ?_⟩
    rw [completeChains_listing] at hComplete
    obtain ⟨offset, hRead⟩ := mapM_read_eq_error hComplete
    refine ⟨offset, ?_⟩
    rw [hEnd, retypeAccessChains, hRead]
    rfl

/-- Where the four words that are taken out are the whole variable and all constants fit their
length fields, the chains of less than four words are those of the module itself. -/
theorem completeChains_prepared (hInput : findInput d.code location = (types, some input))
    (hFour : ∀ ins ∈ d.code.instructions, ins.offset = input.offset → ins.length = 4)
    (hFits : Fits (inputLevels types d.code.freshId input)) :
    CompleteChains (prepared d.code (inputLevels types d.code.freshId input) input).listing ↔
      CompleteChains d.code.listing := by
  obtain ⟨before, declaration, later, hFound⟩ := exists_found hInput
  have hLength : declaration.length = 4 :=
    hFour _ (List.mem_of_getElem? hFound.getElem?_instructions) rfl
  obtain ⟨e, hSpliced, -, -, hListing⟩ := spliced_code hFound hLength hFits
  have hChains : ((e.unlist input.id).unlocate input.id).listing.chains = d.listing.chains := by
    rw [← hFound.chains_unlisted d.code.freshId, ← hListing]
    rfl
  have hComplete (listing : Listing) :
      CompleteChains listing ↔ ∀ words ∈ listing.chains, 4 ≤ words.length := by
    simp only [CompleteChains, Listing.chains, List.mem_filter, and_imp]
  rw [prepared_code hSpliced, Dissection.listing_code, Dissection.listing_code, hComplete, hChains,
    ← hComplete]

theorem overruns_iff (hInput : findInput d.code location = (types, some input))
    (hLevels : inputLevels types d.code.freshId input ≠ []) : d.code.Overruns location ↔
      Spirv.Overruns d.code (inputLevels types d.code.freshId input) input := by
  constructor
  · rintro ⟨types', input', hInput', -, hOver⟩
    cases hInput.symm.trans hInput'
    exact hOver
  · exact fun hOver => ⟨types, input, hInput, hLevels, hOver⟩

/-- The removal either leaves its bounds and aborts, or it stays inside and ends as it does
unchecked, with an answer or with a fault. -/
theorem eliminateChecked_ends (d : Dissection) (location : UInt32) :
    (d.code.Overruns location ∧ eliminateChecked d.code location = .error .abort) ∨
    ¬ d.code.Overruns location ∧
      eliminateChecked d.code location = (eliminate d.code location).mapError PatchError.failure ∧
      ((∃ changed, eliminateChecked d.code location = .ok changed) ∨
        ∃ text, eliminateChecked d.code location = .error (.fault (.patch text))) := by
  by_cases hNothing : ∀ types input, findInput d.code location = (types, some input) →
      inputLevels types d.code.freshId input = []
  · obtain ⟨hWithin, hPlain⟩ := eliminateWithin_eq_none d.code location hNothing
    have hChecked : eliminateChecked d.code location = .ok none := by
      rw [eliminateChecked, hWithin]
      rfl
    refine .inr ⟨?_, by rw [hChecked, hPlain]; rfl, .inl ⟨none, hChecked⟩⟩
    rintro ⟨types, input, hInput, hLevels, -⟩
    exact hLevels (hNothing types input hInput)
  push Not at hNothing
  obtain ⟨types, input, hInput, hLevels⟩ := hNothing
  have hChecked : eliminateChecked d.code location = _ :=
    congrArg (Except.mapError PatchError.failure) (eliminateWithin_eq hInput rfl hLevels)
  rw [overruns_iff hInput hLevels]
  by_cases hFits : d.code.bound.toNat + freshIds (inputLevels types d.code.freshId input) <
      UInt32.size ∧ Countable (inputLevels types d.code.freshId input).dropLast
  · rw [if_pos hFits] at hChecked
    obtain ⟨hComplete, hEnd⟩ | ⟨hShort, offset, hEnd⟩ := eliminate_ends hInput hLevels
    · refine .inr ⟨?_, hChecked, ?_⟩
      · rintro (hFull | hLong | hShort)
        · exact hFull hFits.1
        · exact hLong hFits.2
        · exact hShort hComplete
      · obtain ⟨result, hOk⟩ | ⟨result, depth, id, levels, hDeep⟩ := hEnd
        · exact .inl ⟨some result, by rw [hChecked, hOk]; rfl⟩
        · exact .inr ⟨_, by rw [hChecked, hDeep]; rfl⟩
    · exact .inl ⟨.chain hShort, by rw [hChecked, hEnd]; rfl⟩
  · rw [if_neg hFits] at hChecked
    refine .inl ⟨?_, hChecked⟩
    rw [not_and_or] at hFits
    exact hFits.elim .ids .length

end Removal

/-- On every module the removal of an input aborts exactly if the new ids do not fit below the
greatest bound, if the length of a constant is no sum of 32 bits, or if the module with the input
replaced has an access chain of less than four words. Else nothing leaves its bounds, whatever the
lengths of the other instructions, and the removal answers or tells the caller why it cannot. -/
theorem eliminateChecked_aborts_iff {words : List UInt32} {code : Code}
    (hCode : Code.ofWords words = .ok code) (location : UInt32) :
    (eliminateChecked code location = .error .abort ↔ code.Overruns location) ∧
    (¬ code.Overruns location →
      eliminateChecked code location = (eliminate code location).mapError PatchError.failure ∧
      ((∃ changed, eliminateChecked code location = .ok changed) ∨
        ∃ text, eliminateChecked code location = .error (.fault (.patch text)))) ∧
    ∀ types input, findInput code location = (types, some input) →
      (∀ ins ∈ code.instructions, ins.offset = input.offset → ins.length = 4) →
      Fits (inputLevels types code.freshId input) →
      (CompleteChains (prepared code (inputLevels types code.freshId input) input).listing ↔
        CompleteChains code.listing) := by
  obtain ⟨d, rfl⟩ := Dissection.exists_of_ofWords hCode
  refine ⟨?_, ?_, fun _ _ => completeChains_prepared⟩
  · obtain ⟨hOver, hAbort⟩ | ⟨hInside, -, ⟨changed, hOk⟩ | ⟨text, hFault⟩⟩ :=
      eliminateChecked_ends d location
    · exact iff_of_true hAbort hOver
    · exact iff_of_false (by rw [hOk]; exact nofun) hInside
    · exact iff_of_false (by rw [hFault]; exact nofun) hInside
  · intro hInside
    exact ((eliminateChecked_ends d location).resolve_left fun h => hInside h.1).2

theorem eliminateChecked_aborts_iff_vectorInput :
    Code.ofWords vectorInputWords = .ok vectorInputModule ∧
    ¬ vectorInputModule.Overruns 0 ∧
    (eliminate vectorInputModule 0).mapError PatchError.failure =
      .ok (some vectorInputRemoved) := by
  have hRun : eliminateChecked vectorInputModule 0 = .ok (some vectorInputRemoved) := by cbv
  obtain ⟨hAborts, hInside, -⟩ := eliminateChecked_aborts_iff ofWords_vectorInput 0
  have hNot : ¬ vectorInputModule.Overruns 0 := fun hOver => by
    cases hRun.symm.trans (hAborts.2 hOver)
  exact ⟨ofWords_vectorInput, hNot, (hInside hNot).1.symm.trans hRun⟩

/-- An array of arrays of vectors at location zero. One access chain leads to its scalars, and the
last word of the module opens another one that has no operands. -/
def cutChainWords : List UInt32 :=
  [Header.magic, Header.version, 0, 20, 0] ++
    [encode Op.decorate [5, Decoration.location, 0],
      encode Op.typeFloat [2, 32],
      encode Op.typeInt [6, 32, 0],
      encode Op.constant [6, 7, 2],
      encode Op.typeVector [3, 2, 4],
      encode Op.typeArray [8, 3, 7],
      encode Op.typeArray [9, 8, 7],
      encode Op.typePointer [4, Storage.input, 9],
      encode Op.declareVariable [4, 5, Storage.input],
      encode Op.accessChain [10, 0, 5, 11, 11, 11],
      encode Op.accessChain []].flatten

def cutChainModule : Code := ⟨.headed, cutChainWords⟩

def cutChainTypes : TypeTable :=
  ⟨[(2, .scalar 32), (6, .scalar 32), (3, .vector 2 4), (8, .array 3 2), (9, .array 8 2),
    (4, .pointer 9 Storage.input)]⟩

/-- An array at location zero with more elements than the length of a constant can count. -/
def endlessArrayWords : List UInt32 :=
  [Header.magic, Header.version, 0, 20, 0] ++
    [encode Op.decorate [5, Decoration.location, 0],
      encode Op.typeInt [6, 32, 0],
      encode Op.constant [6, 7, 0xffffffff],
      encode Op.typeArray [8, 6, 7],
      encode Op.typePointer [4, Storage.input, 8],
      encode Op.declareVariable [4, 5, Storage.input]].flatten

def endlessArrayModule : Code := ⟨.headed, endlessArrayWords⟩

theorem eliminateChecked_cutChain :
    (¬ ∀ (words : List UInt32) (code : Code) (location : UInt32), Code.ofWords words = .ok code →
      (∀ types input, findInput code location = (types, some input) →
        code.bound.toNat + freshIds (inputLevels types code.freshId input) < UInt32.size) →
      (∃ changed, eliminateChecked code location = .ok changed) ∨
        ∃ text, eliminateChecked code location = .error (.fault (.patch text))) ∧
    eliminateChecked endlessArrayModule 0 = .error .abort := by
  refine ⟨fun hEnds => ?_, by cbv⟩
  have hInput : findInput cutChainModule 0 = (cutChainTypes, some ⟨36, 4, 5⟩) := by cbv
  have hAbort : eliminateChecked cutChainModule 0 = .error .abort := by cbv
  have hRoom : cutChainModule.bound.toNat +
      freshIds (inputLevels cutChainTypes cutChainModule.freshId ⟨36, 4, 5⟩) < UInt32.size :=
    of_decide_eq_true (by cbv)
  have hEnd := hEnds cutChainWords cutChainModule 0 rfl fun types input hFound => by
    cases hInput.symm.trans hFound
    exact hRoom
  rw [hAbort] at hEnd
  obtain ⟨changed, hOk⟩ | ⟨text, hFault⟩ := hEnd
  · cases hOk
  · cases hFault

end ShaderBackend.Spirv
