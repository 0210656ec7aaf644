import ShaderBackend.Proofs.Spirv.Independence
import ShaderBackend.Proofs.Spirv.Writes

/-! The ids that a whole specialization hands out. Each removal takes its ids from the bound of the
module that it finds, and that is where the removals before it have stopped. So all ids together
are consecutive, whether a pointer or a constant takes them, and also if a removal finds pointers
that an earlier one has declared. -/
namespace ShaderBackend.Spirv

/-- A removal that takes place: the module it starts from, the variable that it takes, and the
levels below the variable. -/
structure Replacement where
  code : Code
  input : InputVariable
  levels : List PrivateLevel

namespace Replacement

/-- The instructions that are put in. -/
def inserted (r : Replacement) : Listing := replacement r.code.freshId r.levels r.input.id

/-- The id bound behind the ids that are taken. -/
def bound (r : Replacement) : UInt32 := r.code.freshId (freshIds r.levels)

/-- The module with the new instructions, before anything else is changed. -/
def spliced (r : Replacement) : Code :=
  replaceVariable (r.code.setBound r.bound) r.input.offset r.inserted

/-- The new instructions stand where the first four words of the variable `old` stood. They are
pointers and constants, and last a variable that keeps the id. Further words of `old` stay. -/
structure InPlaceOf (r : Replacement) (old : List UInt32) : Prop where
  mem : ⟨r.input.offset, old⟩ ∈ r.code.instructions
  opcode : (unplaced old).is Op.declareVariable = true
  id : (unplaced old).arg 2 = r.input.id
  length : 4 ≤ old.length
  declares : ∀ words ∈ r.inserted.dropLast, (unplaced words).is Op.typePointer = true ∨
    (unplaced words).is Op.constant = true ∨ (unplaced words).is Op.constantComposite = true
  last : ∃ pointer initializer, r.inserted.getLast? = some
    (encode Op.declareVariable [pointer, r.input.id, Storage.privateClass, initializer])
  words : ∃ front back, r.code.words = front ++ old ++ back ∧ front.length = r.input.offset ∧
    r.spliced.words =
      front.set Header.boundOffset r.bound ++ r.inserted.flatten ++ old.drop 4 ++ back

end Replacement

/-- The removal that takes place at a location, if one does. -/
def replacementAt? (code : Code) (location : UInt32) : Option Replacement :=
  match findInput code location with
  | (_, none) => none
  | (types, some input) =>
    let levels := inputLevels types code.freshId input
    if levels.isEmpty then none else some ⟨code, input, levels⟩

/-- The removals that take place at some locations, one after the other. -/
def replacements : List UInt32 → Code → List Replacement
  | [], _ => []
  | location :: rest, code =>
    (replacementAt? code location).toList ++
      match eliminate code location with
      | .ok changed => replacements rest (changed.getD code)
      | .error _ => []

/-- A removal changes nothing, or puts in its instructions and goes on with the uses of the
variable. -/
theorem eliminate_eq_replacementAt? (code : Code) (location : UInt32) :
    eliminate code location =
      match replacementAt? code location with
      | none => .ok none
      | some r => (retypeAccessChains r.levels r.input.id
          (dropLocation (unlistInput r.spliced r.input.id) r.input.id)).map some := by
  cases hInput : findInput code location with
  | mk types found =>
      cases found with
      | none => rw [eliminate, replacementAt?, hInput]
      | some input =>
          rw [eliminate, replacementAt?, hInput]
          by_cases hEmpty : (inputLevels types code.freshId input).isEmpty = true
          · simp only [if_pos hEmpty]
            exact if_pos hEmpty
          · simp only [if_neg hEmpty]
            exact if_neg hEmpty

theorem replacementAt?_eq_some {code : Code} {location : UInt32} {r : Replacement}
    (h : replacementAt? code location = some r) : ∃ types,
      findInput code location = (types, some r.input) ∧ r.code = code ∧
      r.levels = inputLevels types code.freshId r.input ∧ r.levels ≠ [] := by
  rw [replacementAt?] at h
  split at h
  · cases h
  · rename_i types input hInput
    rw [Option.ite_none_left_eq_some] at h
    obtain ⟨hLevels, hSome⟩ := h
    cases hSome
    exact ⟨types, hInput, rfl, rfl, by simpa using hLevels⟩

namespace Dissection

variable {d : Dissection} {location : UInt32} {r : Replacement}

/-- A replacement takes the ids from the bound on, in order and without gaps. -/
theorem definedIds_inserted (h : replacementAt? d.code location = some r) :
    definedIds r.inserted = (List.range (freshIds r.levels)).map d.code.freshId := by
  obtain ⟨types, -, hCode, hLevels, hSome⟩ := replacementAt?_eq_some h
  rw [Replacement.inserted, hCode, replacement_eq_declarations _ hSome]
  rw [hLevels] at hSome ⊢
  exact definedIds_inputLevels hSome r.input.id

theorem inPlaceOf (h : replacementAt? d.code location = some r) : ∃ old, r.InPlaceOf old := by
  obtain ⟨code, input, levels⟩ := r
  obtain ⟨types, hInput, rfl, -, hSome⟩ := replacementAt?_eq_some h
  obtain ⟨before, old, later, hFound⟩ := exists_found hInput
  have hInserted : (⟨d.code, input, levels⟩ : Replacement).inserted =
      declarations d.code.freshId levels input.id := replacement_eq_declarations _ hSome _
  refine ⟨old, List.mem_of_getElem? hFound.getElem?_instructions, hFound.opcode, hFound.id.symm,
    hFound.four_le_length, ?_, ?_, ?_⟩
  · rw [hInserted, dropLast_declarations]
    intro words hMem
    rcases List.mem_append.1 hMem with hPointer | hConstant
    · obtain ⟨level, -, rfl⟩ := List.mem_map.1 hPointer
      exact Or.inl (by rw [is_encode]; decide)
    · obtain ⟨depth, hDepth, rfl⟩ := List.mem_mapIdx.1 (List.mem_reverse.1 hConstant)
      exact Or.inr (Bool.or_eq_true_iff.1
        (declaresConstant_zeroConstant d.code.freshId levels depth _).1)
  · rw [hInserted, declarations, privateVariable]
    exact ⟨_, _, List.getLast?_concat⟩
  · let bounded := d.setBound (d.code.freshId (freshIds levels))
    have hBounded : Found bounded.listing types input before old later := hFound
    have hHeader : Header.boundOffset < d.header.length := by
      rw [d.header_length]
      decide
    refine ⟨d.header ++ before.flatten, later.flatten ++ d.tail, ?_, hFound.offset_eq.symm, ?_⟩
    · rw [hFound.words_eq, List.append_assoc _ old]
    · rw [Replacement.spliced, Replacement.bound, Dissection.setBound_code,
        hBounded.replaceVariable_code, List.set_append_left _ _ hHeader]
      simp only [List.append_assoc]
      rfl

/-- A removal leaves the bound behind the ids that it has taken. -/
theorem bound_of_eliminate {changed : Option Code} (h : eliminate d.code location = .ok changed) :
    ∃ f : Dissection, changed.getD d.code = f.code ∧
      (replacementAt? d.code location = none ∧ f = d ∨
        ∃ r, replacementAt? d.code location = some r ∧
          f.code.bound = d.code.freshId (freshIds r.levels)) := by
  have hPaths := eliminate_eq_replacementAt? d.code location
  rw [h] at hPaths
  cases hReplacement : replacementAt? d.code location with
  | none =>
      rw [hReplacement] at hPaths
      cases hPaths
      exact ⟨d, rfl, Or.inl ⟨rfl, rfl⟩⟩
  | some r =>
      rw [hReplacement] at hPaths
      obtain ⟨types, hInput, -, hLevels, -⟩ := replacementAt?_eq_some hReplacement
      cases hRetyped : retypeAccessChains r.levels r.input.id
          (dropLocation (unlistInput r.spliced r.input.id) r.input.id) with
      | error e => simp [hRetyped, Except.map] at hPaths
      | ok result =>
          simp only [hRetyped, Except.map, Except.ok.injEq] at hPaths
          subst hPaths
          obtain ⟨types', input, -, -, -, -, f, hInput', -, -, -, rfl, hBound, -⟩ :=
            exists_eliminated h
          rw [hInput] at hInput'
          cases hInput'
          exact ⟨f, rfl, Or.inr ⟨r, rfl, hLevels ▸ hBound⟩⟩

end Dissection

/-- The ids that a run of removals takes are consecutive from the first bound on. -/
theorem definedIds_replacements {locations : List UInt32} {d : Dissection} {result : Code}
    (h : eliminateEach locations d.code = .ok result) :
    let fresh := (replacements locations d.code).flatMap fun r => definedIds r.inserted
    fresh = (List.range fresh.length).map d.code.freshId ∧
      result.bound = d.code.freshId fresh.length := by
  -- The next module begins with the bound that the first removal has left.
  induction locations generalizing d with
  | nil =>
      cases h
      exact ⟨rfl, (freshId_zero d.code).symm⟩
  | cons location rest ih =>
      rw [eliminateEach_cons] at h
      cases hWithin : eliminateWithin d.code location with
      | error e =>
          rw [hWithin] at h
          cases h
      | ok changed =>
          have hChanged := eliminate_of_eliminateWithin hWithin
          rw [hWithin] at h
          obtain ⟨f, hNext, hStep⟩ := Dissection.bound_of_eliminate hChanged
          change eliminateEach rest (changed.getD d.code) = _ at h
          rw [hNext] at h
          obtain ⟨hRest, hBound⟩ := ih h
          simp only [replacements, hChanged, hNext]
          rcases hStep with ⟨hNone, rfl⟩ | ⟨r, hSome, hTaken⟩
          · rw [hNone]
            exact ⟨hRest, hBound⟩
          · have hNumber (count : Nat) :
                f.code.freshId count = d.code.freshId (freshIds r.levels + count) :=
              freshId_of_bound_eq hTaken count
            rw [hSome, Option.toList_some, List.singleton_append, List.flatMap_cons,
              Dissection.definedIds_inserted hSome, List.length_append, List.length_map,
              List.length_range, List.range_add, List.map_append, List.map_map]
            refine ⟨congrArg _ (hRest.trans (List.map_congr_left fun count _ => hNumber count)), ?_⟩
            exact hBound.trans (hNumber _)

/-- Every removal of a run is one from some module. -/
theorem exists_replacementAt? {locations : List UInt32} {d : Dissection} {r : Replacement}
    (h : r ∈ replacements locations d.code) :
    ∃ location ∈ locations, ∃ before : Dissection,
      replacementAt? before.code location = some r := by
  induction locations generalizing d with
  | nil => cases h
  | cons location rest ih =>
      rw [replacements, List.mem_append, Option.mem_toList] at h
      rcases h with hFirst | hLater
      · exact ⟨location, List.mem_cons_self .., d, hFirst⟩
      · split at hLater
        · rename_i changed hChanged
          obtain ⟨f, hNext, -⟩ := Dissection.bound_of_eliminate hChanged
          rw [hNext] at hLater
          obtain ⟨other, hMem, hReplacement⟩ := ih hLater
          exact ⟨other, List.mem_cons_of_mem _ hMem, hReplacement⟩
        · cases hLater

section Specialize

variable {words : List UInt32} {template base result : Code} {bindings : Bindings}

/-- No site lies in the header, so a specialization without removals keeps the bound. -/
theorem bound_of_specialize {dual : Bool} (hTemplate : Code.ofWords words = .ok template)
    (hBase : specialize template (.ofCode template) bindings { dualSourceBlend := dual } =
      .ok base) : base.bound = template.bound := by
  obtain ⟨hHeaded, -⟩ := Dissection.headed_of_ofWords hTemplate
  have hLayout := (size_specialize hBase).1.trans hHeaded
  have hWord : base.word? Header.boundOffset = template.word? Header.boundOffset := by
    by_contra hChanged
    obtain ⟨ins, hMem, -, hSite, -⟩ :=
      Survey.exists_decoration (mem_sites_of_word?_ne hBase hChanged)
    have hBehind := Code.start_le_offset hMem
    rw [hHeaded] at hBehind
    change 5 ≤ ins.offset at hBehind
    change 3 = ins.offset + 3 at hSite
    omega
  simp only [Code.bound, Code.bound?, hLayout, hHeaded, hWord]

/-- The pointers and constants of all removals together have consecutive ids from the bound of the
template on. As long as the bound does not wrap, no two of them are the same, all lie below the
bound of the result, and that has grown by their number. Each removal defines one more id, that of
its variable, in the place of the first four words of the variable. -/
theorem specialize_freshIds {variant : Variant} (hTemplate : Code.ofWords words = .ok template)
    (hResult : specialize template (.ofCode template) bindings variant = .ok result) :
    ∃ base, specialize template (.ofCode template) bindings
        { variant with unwrittenInputs := 0 } = .ok base ∧
      let run := replacements (setBits variant.unwrittenInputs) base
      let fresh := run.flatMap fun r => definedIds r.inserted
      fresh = (List.range fresh.length).map template.freshId ∧
      (template.bound.toNat + fresh.length < UInt32.size →
        fresh.Nodup ∧ (∀ id ∈ fresh, template.bound ≤ id ∧ id < result.bound) ∧
        result.bound.toNat = template.bound.toNat + fresh.length) ∧
      ∀ r ∈ run, (∃ old, r.InPlaceOf old) ∧ ∃ location ∈ setBits variant.unwrittenInputs,
        eliminate r.code location = (retypeAccessChains r.levels r.input.id
          (dropLocation (unlistInput r.spliced r.input.id) r.input.id)).map some := by
  rw [specialize_eq_bind] at hResult
  cases hBase : specialize template (.ofCode template) bindings
      { variant with unwrittenInputs := 0 } with
  | error e =>
      rw [hBase] at hResult
      cases hResult
  | ok base =>
      rw [hBase] at hResult
      obtain ⟨hHeaded, hLong⟩ := Dissection.headed_of_ofWords hTemplate
      obtain ⟨hLayout, hLength⟩ := size_specialize hBase
      obtain ⟨d, rfl⟩ :=
        Dissection.exists_of_layout (hLayout.trans hHeaded) (hLong.trans_eq hLength.symm)
      have hRun : eliminateEach (setBits variant.unwrittenInputs) d.code = .ok result := by
        rw [← eliminateAll_eq_eliminateEach]
        exact hResult
      obtain ⟨hFresh, hBound⟩ := definedIds_replacements hRun
      have hNumber (count : Nat) : d.code.freshId count = template.freshId count := by
        rw [Code.freshId, Code.freshId, bound_of_specialize hTemplate hBase]
      rw [funext hNumber] at hFresh
      rw [hNumber] at hBound
      refine ⟨d.code, rfl, hFresh, ?_, ?_⟩
      · intro hFits
        have hResultBound := congrArg UInt32.toNat hBound
        rw [toNat_freshId_of_lt hFits] at hResultBound
        refine ⟨hFresh ▸ nodup_freshIds hFits, ?_, hResultBound⟩
        intro id hId
        rw [hFresh] at hId
        refine ⟨bound_le_of_mem_freshIds hFits hId, ?_⟩
        obtain ⟨count, hCount, rfl⟩ := List.mem_map.1 hId
        rw [UInt32.lt_iff_toNat_lt, hResultBound, toNat_freshId hFits (List.mem_range.1 hCount)]
        exact Nat.add_lt_add_left (List.mem_range.1 hCount) _
      · intro r hMem
        obtain ⟨location, hLocation, before, hReplacement⟩ := exists_replacementAt? hMem
        obtain ⟨-, -, hCode, -⟩ := replacementAt?_eq_some hReplacement
        refine ⟨Dissection.inPlaceOf hReplacement, location, hLocation, ?_⟩
        rw [eliminate_eq_replacementAt?, hCode, hReplacement]

theorem specialize_freshIds_threeInputs :
    Code.ofWords threeInputsWords = .ok threeInputsTemplate ∧
    specialize threeInputsTemplate (.ofCode threeInputsTemplate) threeInputsBindings
      { unwrittenInputs := 5 } = .ok threeInputsSpecialized ∧
    (replacements (setBits 5) threeInputsBase).flatMap (fun r => definedIds r.inserted) =
      [20, 21, 22, 23] ∧
    threeInputsSpecialized.bound.toNat = threeInputsTemplate.bound.toNat + 4 := by
  have hTemplate : Code.ofWords threeInputsWords = .ok threeInputsTemplate := rfl
  have hResult : specialize threeInputsTemplate (.ofCode threeInputsTemplate) threeInputsBindings
      { unwrittenInputs := 5 } = .ok threeInputsSpecialized := by cbv
  have hBase : specialize threeInputsTemplate (.ofCode threeInputsTemplate) threeInputsBindings
      {} = .ok threeInputsBase := by cbv
  have hFresh : (replacements (setBits 5) threeInputsBase).flatMap
      (fun r => definedIds r.inserted) = [20, 21, 22, 23] := by cbv
  obtain ⟨base, hSame, -, hFits, -⟩ := specialize_freshIds hTemplate hResult
  cases hBase.symm.trans hSame
  have hBound := (hFits (by rw [hFresh]; decide)).2.2
  rw [hFresh] at hBound
  exact ⟨hTemplate, hResult, hFresh, hBound⟩

end Specialize

/-- An input whose initializer has the number of an opening word of a variable, in front of a
decoration that reads as its operands. -/
def reopenedInputWords : List UInt32 :=
  [Header.magic, Header.version, 0, 300000, 0] ++
    [encode Op.decorate [5, Decoration.location, 0],
      encode Op.typeFloat [2, 32],
      encode Op.typePointer [4, Storage.input, 2],
      encode Op.constant [2, openingWord Op.declareVariable 4, 0],
      encode Op.declareVariable [4, 5, Storage.input, openingWord Op.declareVariable 4],
      encode Op.decorate [5, 14]].flatten

def reopenedInputSpecialized : Code :=
  ⟨.headed, [Header.magic, Header.version, 0, 300002, 0] ++
    [encode Op.typeFloat [2, 32],
      encode Op.typePointer [4, Storage.input, 2],
      encode Op.constant [2, openingWord Op.declareVariable 4, 0],
      encode Op.typePointer [300000, Storage.privateClass, 2],
      encode Op.constant [2, 300001, 0],
      encode Op.declareVariable [300000, 5, Storage.privateClass, 300001],
      openingWord Op.declareVariable 4 :: encode Op.decorate [5, 14]].flatten⟩

/-- The fifth word of the input stays and opens a second variable with the same id. -/
theorem variableIds_reopenedInput :
    Code.ofWords reopenedInputWords = .ok ⟨.headed, reopenedInputWords⟩ ∧
    (Code.mk .headed reopenedInputWords).listing.variableIds = [5] ∧
    specialize ⟨.headed, reopenedInputWords⟩ (.ofCode ⟨.headed, reopenedInputWords⟩)
      (fun _ => none) { unwrittenInputs := 1 } = .ok reopenedInputSpecialized ∧
    reopenedInputSpecialized.listing.variableIds = [5, 5] :=
  ⟨rfl, by cbv, by cbv, by cbv⟩

end ShaderBackend.Spirv
