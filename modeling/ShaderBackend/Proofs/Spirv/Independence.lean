import ShaderBackend.Proofs.Spirv.Checked
import ShaderBackend.Proofs.Spirv.Mask
import ShaderBackend.Proofs.Spirv.Privatized
import ShaderBackend.Proofs.Spirv.Remapping

/-! Removals at different locations do not get into each other's way. Each removal leaves the
other inputs as it finds them and keeps the conditions under which this is so. Hence the bits of
a mask act one by one on the module that the mask zero would give. -/
namespace ShaderBackend.Spirv

/-- The input variables of a listing in order. -/
def Listing.inputs (listing : Listing) : Listing := listing.filter Spirv.declaresInput

/-- The ids that have a location, once for each location they have. -/
def Listing.locatedIds (listing : Listing) : List UInt32 :=
  (listing.filter fun words => (unplaced words).decorates Decoration.location).map
    fun words => (unplaced words).arg 1

/-- A module whose inputs have a location each of their own. All ids that a search reads are
below a bound. -/
structure InputsApart (bound : UInt32) (listing : Listing) : Prop where
  oneLocation : listing.locatedIds.Nodup
  locatedFirst : listing.Pairwise fun input decoration =>
    declaresInput input = true → locates ((unplaced input).arg 2) decoration = false
  ownLocation : ∀ first ∈ listing.inputs, ∀ second ∈ listing.inputs,
    ∀ decoration ∈ listing.locationsOf ((unplaced first).arg 2),
    ∀ other ∈ listing.locationsOf ((unplaced second).arg 2),
      (unplaced decoration).arg 3 = (unplaced other).arg 3 →
      (unplaced first).arg 2 = (unplaced second).arg 2
  distinctIds : DistinctIds listing
  below : ∀ words ∈ listing, ∀ id ∈ searchedIds words, id < bound
  fourWords : ∀ input ∈ listing.inputs, input.length = 4
  smallSizes : ∀ input ∈ listing.inputs, ∀ typeId shape,
    (listing.typesBefore ((unplaced input).arg 2)).get? typeId = some shape →
    shape.size.toNat ≤ 65532

theorem length_locationsOf_le {listing : Listing} (h : listing.locatedIds.Nodup) (id : UInt32) :
    (listing.locationsOf id).length ≤ 1 := by
  have hCount := List.nodup_iff_count_le_one.1 h id
  rw [Listing.locatedIds, List.count_eq_countP, List.countP_map, List.countP_eq_length_filter,
    List.filter_filter] at hCount
  have hKind : locates id = fun words => ((· == id) ∘ fun words => (unplaced words).arg 1) words &&
      (unplaced words).decorates Decoration.location := by
    funext words
    exact Bool.and_comm ..
  rw [Listing.locationsOf, hKind]
  exact hCount

section Removal

variable {ids : Nat → UInt32} {levels : List PrivateLevel} {types : TypeTable}
  {input : InputVariable} {before later listing result : Listing} {declaration words : List UInt32}
  {bound bound' : UInt32}

namespace Removed

/-- No location is new. -/
theorem filter_location_sublist
    (h : Removed ids levels types input before declaration later listing result) :
    (result.filter fun words => (unplaced words).decorates Decoration.location).Sublist
      (listing.filter fun words => (unplaced words).decorates Decoration.location) := by
  have hChain (words : List UInt32) (hIs : (unplaced words).isAccessChain = true) :
      (unplaced words).decorates Decoration.location = false := by
    rcases Bool.or_eq_true_iff.1 hIs with hOpcode | hOpcode <;>
      rw [not_decorates_of_is hOpcode (by decide)]
  have hEntry (words : List UInt32) (hIs : (unplaced words).is Op.entryPoint = true) :
      (unplaced words).decorates Decoration.location = false :=
    not_decorates_of_is hIs (by decide) _
  have hOld : (before ++ declarations ids levels input.id ++ later).filter
      (fun words => (unplaced words).decorates Decoration.location) =
        listing.filter fun words => (unplaced words).decorates Decoration.location := by
    have hInserted : (declarations ids levels input.id).filter
        (fun words => (unplaced words).decorates Decoration.location) = [] := by
      rw [List.filter_eq_nil_iff]
      intro words hMem
      simp [(not_places_of_mem_declarations hMem).2]
    have hVariable := not_decorates_of_is h.opcode (by decide) Decoration.location
    rw [List.filter_append, List.filter_append, hInserted, List.append_nil, h.split]
    simp [hVariable]
  have hUnlisted := (edited_withoutInterface input.id
    (before ++ declarations ids levels input.id ++ later)).filter_eq hEntry
  rw [(edited_retype? h.retyped).filter_eq hChain, ← hOld, ← hUnlisted]
  exact List.eraseP_sublist.filter _

/-- What a search reads was there before or has been put in. -/
theorem mem_of_searched
    (h : Removed ids levels types input before declaration later listing result)
    (hMem : words ∈ result) (hSearched : searched words = true) :
    words ∈ listing ∨ words ∈ declarations ids levels input.id := by
  have hKept : words ∈ result.filter searched := List.mem_filter.2 ⟨hMem, hSearched⟩
  rw [h.filter_eq (keptKind_searched input.id), List.mem_append, List.mem_append] at hKept
  rw [h.split]
  rcases hKept with (hBefore | hInserted) | hLater
  · exact Or.inl (List.mem_append_left _ (List.mem_filter.1 hBefore).1)
  · exact Or.inr (List.mem_filter.1 hInserted).1
  · exact Or.inl (List.mem_append_right _ (List.mem_cons_of_mem _ (List.mem_filter.1 hLater).1))

/-- An input of the result is another input of the module. -/
theorem mem_inputs (h : Removed ids levels types input before declaration later listing result)
    (hDistinct : DistinctIds listing) (hMem : words ∈ result.inputs) :
    words ∈ listing.inputs ∧ (unplaced words).arg 2 ≠ input.id := by
  obtain ⟨hMem, hInput⟩ := List.mem_filter.1 hMem
  constructor
  · refine List.mem_filter.2 ⟨?_, hInput⟩
    refine (h.mem_of_searched hMem (by simp [searched, hInput])).resolve_right fun hInserted => ?_
    cases (not_places_of_mem_declarations hInserted).1.symm.trans hInput
  · intro hSame
    have hVariable : words ∈ result.variablesOf input.id :=
      List.mem_filter.2 ⟨List.mem_filter.2 ⟨hMem, is_variable_of_declaresInput hInput⟩,
        beq_iff_eq.2 hSame⟩
    rw [(h.variablesOf_self hDistinct.variableIds).2, List.mem_singleton] at hVariable
    rw [hVariable] at hInput
    cases hInput.symm.trans (Bool.and_false _)

theorem searchedIds_lt
    (h : Removed ids levels types input before declaration later listing result)
    (hBelow : ∀ words ∈ listing, ∀ id ∈ searchedIds words, id < bound) (hBound : bound ≤ bound')
    (hInserted : ∀ words ∈ declarations ids levels input.id, ∀ id ∈ searchedIds words,
      id < bound') : ∀ words ∈ result, ∀ id ∈ searchedIds words, id < bound' := by
  intro words hMem id hId
  cases hSearched : searched words with
  | false =>
      simp only [searched, Bool.or_eq_false_iff] at hSearched
      rw [searchedIds_of_not_type hSearched.1.1 hSearched.2] at hId
      cases hId
  | true =>
      rcases h.mem_of_searched hMem hSearched with hOld | hNew
      · exact UInt32.lt_of_lt_of_le (hBelow words hOld id hId) hBound
      · exact hInserted words hNew id hId

/-- A removal keeps the inputs apart. -/
theorem inputsApart (h : Removed ids levels types input before declaration later listing result)
    (hApart : InputsApart bound listing) (hBound : bound ≤ bound')
    (hAdds : ∀ words ∈ declarations ids levels input.id, Adds bound words)
    (hInserted : ∀ words ∈ declarations ids levels input.id, ∀ id ∈ searchedIds words,
      id < bound') : InputsApart bound' result where
  oneLocation := hApart.oneLocation.sublist (h.filter_location_sublist.map _)
  locatedFirst := by
    rw [List.pairwise_iff_forall_sublist]
    intro other decoration hOrder hInput
    have hMem : other ∈ result := hOrder.subset (List.mem_cons_self ..)
    obtain ⟨-, hNe⟩ :=
      h.mem_inputs hApart.distinctIds (List.mem_filter.2 ⟨hMem, hInput⟩)
    by_contra hLocates
    rw [Bool.not_eq_false] at hLocates
    have hOther : placesOther input.id other = true := by simp [placesOther, hInput, hNe]
    have hDecoration : placesOther input.id decoration = true := by
      rw [locates, Bool.and_eq_true, beq_iff_eq] at hLocates
      simp [placesOther, hLocates.1, hLocates.2, hNe]
    have hKept := hOrder.filter (placesOther input.id)
    rw [List.filter_cons_of_pos hOther, List.filter_cons_of_pos hDecoration, List.filter_nil,
      h.filter_placesOther h.retyped] at hKept
    have hFirst := List.pairwise_iff_forall_sublist.1 hApart.locatedFirst
      (hKept.trans List.filter_sublist) hInput
    cases hFirst.symm.trans hLocates
  ownLocation := by
    intro first hFirst second hSecond
    obtain ⟨hFirstOld, hFirstNe⟩ := h.mem_inputs hApart.distinctIds hFirst
    obtain ⟨hSecondOld, hSecondNe⟩ := h.mem_inputs hApart.distinctIds hSecond
    rw [h.locationsOf_of_ne hFirstNe, h.locationsOf_of_ne hSecondNe]
    exact hApart.ownLocation first hFirstOld second hSecondOld
  distinctIds := by
    have hChains := congrArg (List.map Prod.fst) (h.evolves hApart.distinctIds).chains
    rw [List.map_map, List.map_map] at hChains
    rw [DistinctIds, h.variableIds]
    exact (congrArg (listing.variableIds ++ ·) hChains) ▸ hApart.distinctIds
  below := h.searchedIds_lt hApart.below hBound hInserted
  fourWords := by
    intro other hMem
    exact hApart.fourWords other (h.mem_inputs hApart.distinctIds hMem).1
  smallSizes := by
    intro other hMem typeId shape hShape
    obtain ⟨hOld, hNe⟩ := h.mem_inputs hApart.distinctIds hMem
    obtain ⟨hSame, hAdded⟩ := h.typesBefore hApart.below hAdds hNe
    -- A type with a new id is a private pointer, whose size is zero.
    by_cases hBelow : typeId < bound
    · rw [hSame typeId hBelow] at hShape
      exact hApart.smallSizes other hOld typeId shape hShape
    · rw [hAdded typeId shape (UInt32.not_lt.1 hBelow) hShape]
      decide

end Removed

end Removal

/-- The number of ids that a removal takes. -/
def idsNeeded (code : Code) (location : UInt32) : Nat :=
  match findInput code location with
  | (_, none) => 0
  | (types, some input) => freshIds (inputLevels types code.freshId input)

/-- The number of ids that removals at some locations take, one after the other. -/
def idsTaken : List UInt32 → Code → Nat
  | [], _ => 0
  | location :: rest, code =>
    idsNeeded code location +
      match eliminate code location with
      | .ok changed => idsTaken rest (changed.getD code)
      | .error _ => 0

section Step

variable {d : Dissection} {location : UInt32} {result : Code} {types : TypeTable}
  {input : InputVariable} {before later : Listing} {declaration words : List UInt32}

/-- The types that the search knows at a found input are those in front of it. -/
theorem Found.typesBefore_eq {listing : Listing}
    (h : Found listing types input before declaration later)
    (hDistinct : listing.variableIds.Nodup) :
    listing.typesBefore input.id = (InputScan.after 0 {} before).types := by
  have hBefore : ∀ words ∈ before,
      (!(Spirv.declaresInput words && (unplaced words).arg 2 == input.id)) = true := by
    intro words hMem
    by_contra hInput
    simp only [Bool.not_eq_true, Bool.not_eq_false', Bool.and_eq_true, beq_iff_eq] at hInput
    have hVariable : words ∈ before.declaredVariables :=
      List.mem_filter.2 ⟨hMem, is_variable_of_declaresInput hInput.1⟩
    have hDeclaration : declaresVariable declaration = true := h.opcode
    rw [Listing.variableIds, Listing.declaredVariables, h.split, List.filter_append,
      List.filter_cons_of_pos hDeclaration, List.map_append, List.map_cons,
      List.nodup_append] at hDistinct
    exact hDistinct.2.2 _ (List.mem_map_of_mem hVariable) _ (List.mem_cons_self ..)
      (hInput.2.trans h.id)
  have hStop : (declaration :: later).takeWhile (fun words =>
      !(Spirv.declaresInput words && (unplaced words).arg 2 == input.id)) = [] :=
    List.takeWhile_cons_of_neg (by simp [h.declaresInput, h.id])
  rw [Listing.typesBefore, h.split, List.takeWhile_append_of_pos hBefore, hStop, List.append_nil]

theorem Found.mem_inputs {listing : Listing}
    (h : Found listing types input before declaration later) : declaration ∈ listing.inputs :=
  List.mem_filter.2 ⟨h.split ▸ by simp, h.declaresInput⟩

namespace InputsApart

/-- The search knows the types in front of the input that it finds. -/
theorem exists_inputAt (hApart : InputsApart d.code.bound d.listing)
    (hSearch : findInput d.code location = (types, some input)) :
    types = d.listing.typesBefore input.id ∧ ∃ before declaration later,
      Found d.listing types input before declaration later ∧
      d.listing.InputAt location declaration := by
  obtain ⟨before, declaration, later, hFound, hTypes, hFinds⟩ := exists_read hSearch
  obtain ⟨hDeclares, hDecorated⟩ := finds_after_iff.1 hFinds
  refine ⟨?_, before, declaration, later, hFound,
    inputAt_of_split hFound.split hDeclares hDecorated⟩
  rw [hFound.typesBefore_eq hApart.distinctIds.variableIds, hTypes]
  exact after_tables rfl rfl

theorem fits (hApart : InputsApart d.code.bound d.listing)
    (hFound : Found d.listing (d.listing.typesBefore input.id) input before declaration later)
    (ids : Nat → UInt32) :
    Fits (inputLevels (d.listing.typesBefore input.id) ids input) := by
  intro level hMem
  have hLevel := List.dropLast_subset _ hMem
  obtain ⟨pointee, storage, -, hWalk⟩ := inputLevels_eq (List.ne_nil_of_mem hLevel)
  rw [hWalk] at hLevel
  obtain ⟨shape, hShape, hSize⟩ := (levelsFrom_facts hLevel).known
  rw [hFound.id] at hShape
  rw [hSize]
  exact hApart.smallSizes declaration hFound.mem_inputs _ shape hShape

theorem pointee_lt (hApart : InputsApart d.code.bound d.listing)
    (hFound : Found d.listing types input before declaration later) {ids : Nat → UInt32}
    {level : PrivateLevel} (hLevel : level ∈ inputLevels types ids input) :
    level.pointee < d.code.bound := by
  obtain ⟨pointee, storage, -, hWalk⟩ := inputLevels_eq (List.ne_nil_of_mem hLevel)
  rw [hWalk] at hLevel
  obtain ⟨shape, hShape, -⟩ := (levelsFrom_facts hLevel).known
  obtain ⟨words, hMem, hDeclares⟩ := hFound.declared _ (OrderedMap.mem_of_get? hShape)
  have hId : (unplaced words).arg 1 = level.pointee := hDeclares.1
  rw [← hId]
  refine hApart.below words (hFound.split ▸ List.mem_append_left _ hMem) _ ?_
  simp [searchedIds, declaresType_of_declares hDeclares]

/-- A removal that changes something removes an input at its location. The inputs are still apart
in the result, whose bound has grown by the ids that were taken. -/
theorem exists_removed (hApart : InputsApart d.code.bound d.listing)
    (hBound : d.code.bound.toNat + idsNeeded d.code location < UInt32.size)
    (hResult : eliminate d.code location = .ok (some result)) :
    ∃ (f : Dissection) (input : InputVariable) (before : Listing) (declaration : List UInt32)
      (later : Listing),
      let types := d.listing.typesBefore input.id
      let levels := inputLevels types d.code.freshId input
      result = f.code ∧ levels ≠ [] ∧
      Removed d.code.freshId levels types input before declaration later d.listing f.listing ∧
      d.listing.InputAt location declaration ∧
      (∀ words ∈ declarations d.code.freshId levels input.id, Adds d.code.bound words) ∧
      f.code.bound.toNat = d.code.bound.toNat + idsNeeded d.code location ∧
      InputsApart f.code.bound f.listing := by
  obtain ⟨types, input, hInput, hLevels⟩ := exists_input_of_eliminate hResult
  obtain ⟨rfl, before, declaration, later, hFound, hAt⟩ := hApart.exists_inputAt hInput
  have hFour := hApart.fourWords declaration hFound.mem_inputs
  obtain ⟨f, hCode, hHeader, -, hRetyped⟩ :=
    hFound.exists_removed hInput hFour (hApart.fits hFound _) hResult
  have hRemoved : Removed d.code.freshId _ _ input before declaration later d.listing f.listing :=
    ⟨hFound, hRetyped⟩
  have hNeeded : idsNeeded d.code location =
      freshIds (inputLevels (d.listing.typesBefore input.id) d.code.freshId input) := by
    rw [idsNeeded, hInput]
  rw [hNeeded] at hBound ⊢
  have hNewBound : f.code.bound.toNat = d.code.bound.toNat +
      freshIds (inputLevels (d.listing.typesBefore input.id) d.code.freshId input) := by
    rw [Dissection.bound_code_of_header hHeader, toNat_freshId_of_lt hBound]
  have hIds := definedIds_inputLevels hLevels input.id
  have hAdds : ∀ words ∈ declarations d.code.freshId _ input.id, Adds d.code.bound words :=
    fun words => adds_of_mem_declarations hIds hBound
  refine ⟨f, input, before, declaration, later, hCode, hLevels, hRemoved, hAt, hAdds, hNewBound,
    hRemoved.inputsApart hApart ?_ hAdds ?_⟩
  · rw [UInt32.le_iff_toNat_le, hNewBound]
    omega
  · intro words hWords id hId
    rw [UInt32.lt_iff_toNat_lt, hNewBound]
    exact searchedIds_lt_freshId hIds hBound hWords (fun level => hApart.pointee_lt hFound) hId

end InputsApart

end Step

/-- Whether removals at some locations take an input: one of these locations is its own, and its
type has levels. -/
def Listing.Removable (listing : Listing) (locations : List UInt32) (input : List UInt32) : Prop :=
  (∃ location ∈ locations, listing.InputAt location input) ∧
    ¬(listing.typesBefore ((unplaced input).arg 2)).Lacks ((unplaced input).arg 1)

/-- Removals at some locations take the variables that they can take in the first module, and keep
all others. -/
structure RemovesExactly (locations : List UInt32) (listing result : Listing) : Prop where
  evolves : Evolves listing result
  kept : ∀ words ∈ listing.declaredVariables, ¬listing.Removable locations words →
    Keeps listing result ((unplaced words).arg 2)
  removed : ∀ words ∈ listing.declaredVariables, listing.Removable locations words →
    ∃ pointee storage,
      (listing.typesBefore ((unplaced words).arg 2)).get? ((unplaced words).arg 1) =
        some (.pointer pointee storage) ∧
      Privatized (listing.typesBefore ((unplaced words).arg 2)) pointee listing result
        ((unplaced words).arg 2)

section Run

variable {listing middle result : Listing} {location bound : UInt32} {rest : List UInt32}
  {words first second : List UInt32}

theorem Listing.InputAt.mem_inputs (h : listing.InputAt location words) :
    words ∈ listing.inputs := by
  obtain ⟨hInput, decoration, hOrder, -⟩ := h
  exact List.mem_filter.2 ⟨hOrder.subset (by simp), hInput⟩

theorem mem_declaredVariables_of_mem_inputs (h : words ∈ listing.inputs) :
    words ∈ listing.declaredVariables := by
  obtain ⟨hMem, hInput⟩ := List.mem_filter.1 h
  exact List.mem_filter.2 ⟨hMem, is_variable_of_declaresInput hInput⟩

/-- Variables with one id are one variable. -/
theorem DistinctIds.eq_of_id_eq (h : DistinctIds listing)
    (hFirst : first ∈ listing.declaredVariables) (hSecond : second ∈ listing.declaredVariables)
    (hSame : (unplaced first).arg 2 = (unplaced second).arg 2) : first = second :=
  List.inj_on_of_nodup_map h.variableIds hFirst hSecond hSame

/-- One input at most stands at a location. -/
theorem InputsApart.inputAt_unique (hApart : InputsApart bound listing)
    (hFirst : listing.InputAt location first) (hSecond : listing.InputAt location second) :
    first = second := by
  apply hApart.distinctIds.eq_of_id_eq (mem_declaredVariables_of_mem_inputs hFirst.mem_inputs)
    (mem_declaredVariables_of_mem_inputs hSecond.mem_inputs)
  obtain ⟨-, decoration, hFirstOrder, hFirstLocates, hFirstHere⟩ := id hFirst
  obtain ⟨-, other, hSecondOrder, hSecondLocates, hSecondHere⟩ := id hSecond
  exact hApart.ownLocation first hFirst.mem_inputs second hSecond.mem_inputs decoration
    (List.mem_filter.2 ⟨hFirstOrder.subset (by simp), hFirstLocates⟩) other
    (List.mem_filter.2 ⟨hSecondOrder.subset (by simp), hSecondLocates⟩)
    (hFirstHere.trans hSecondHere.symm)

theorem removable_cons : listing.Removable (location :: rest) words ↔
    (listing.InputAt location words ∧
      ¬(listing.typesBefore ((unplaced words).arg 2)).Lacks ((unplaced words).arg 1)) ∨
    listing.Removable rest words := by
  simp only [Listing.Removable, List.exists_mem_cons_iff, or_and_right]

theorem removesExactly_nil (listing : Listing) : RemovesExactly [] listing listing where
  evolves := .refl listing
  kept _ _ _ := .refl listing _
  removed _ _ h := by
    obtain ⟨⟨location, hNone, -⟩, -⟩ := h
    cases hNone

/-- A location at which nothing can be removed makes no difference. -/
theorem RemovesExactly.skip (h : RemovesExactly rest listing result)
    (hNothing : ∀ words, listing.InputAt location words →
      (listing.typesBefore ((unplaced words).arg 2)).Lacks ((unplaced words).arg 1)) :
    RemovesExactly (location :: rest) listing result := by
  have hSame (words : List UInt32) :
      listing.Removable (location :: rest) words ↔ listing.Removable rest words := by
    rw [removable_cons, or_iff_right]
    exact fun hHere => hHere.2 (hNothing words hHere.1)
  refine ⟨h.evolves, fun words hMem hNot => ?_, fun words hMem hRemovable => ?_⟩
  · exact h.kept words hMem ((hSame words).not.1 hNot)
  · exact h.removed words hMem ((hSame words).1 hRemovable)

theorem lacks_congr {types types' : TypeTable} {typeId : UInt32}
    (hSame : ∀ id < bound, types'.get? id = types.get? id)
    (hClosed : ∀ id < bound, ((types.get? id).map TypeShape.base).getD 0 < bound)
    (hType : typeId < bound) : types'.Lacks typeId ↔ types.Lacks typeId := by
  rw [TypeTable.Lacks, TypeTable.Lacks, hSame typeId hType]
  apply forall_congr'
  intro pointee
  apply forall_congr'
  intro storage
  apply imp_congr_right
  intro hPointer
  have hBelow := hClosed typeId hType
  rw [hPointer] at hBelow
  rw [hSame pointee hBelow]

end Run

section RemovalInRun

variable {ids : Nat → UInt32} {types : TypeTable} {input : InputVariable}
  {levels : List PrivateLevel} {before later listing middle result : Listing}
  {declaration words : List UInt32} {bound location : UInt32} {rest : List UInt32}

theorem InputsApart.typeId_lt (hApart : InputsApart bound listing) (hMem : words ∈ listing.inputs) :
    (unplaced words).arg 1 < bound := by
  obtain ⟨hListed, hInput⟩ := List.mem_filter.1 hMem
  exact hApart.below words hListed _ (by simp [searchedIds, hInput])

theorem InputsApart.base_lt (hApart : InputsApart bound listing) (hMem : words ∈ listing.inputs)
    (id typeId : UInt32) :
    (((listing.typesBefore id).get? typeId).map TypeShape.base).getD 0 < bound :=
  base_lt_of_searchedIds hApart.below
    (UInt32.lt_of_le_of_lt UInt32.zero_le (hApart.typeId_lt hMem)) typeId

/-- Other inputs can be removed after a removal exactly if they could be before. -/
theorem Removed.removable_iff
    (h : Removed ids levels types input before declaration later listing middle)
    (hApart : InputsApart bound listing)
    (hAdds : ∀ words ∈ declarations ids levels input.id, Adds bound words)
    (hNe : (unplaced words).arg 2 ≠ input.id) :
    middle.Removable rest words ↔ listing.Removable rest words := by
  have hAt (location : UInt32) : middle.InputAt location words ↔ listing.InputAt location words :=
    h.inputAt_iff h.retyped hNe
  simp only [Listing.Removable, hAt]
  apply and_congr_right
  rintro ⟨location, -, hInput⟩
  exact (lacks_congr (h.typesBefore hApart.below hAdds hNe).1
    (fun id _ => hApart.base_lt hInput.mem_inputs _ id) (hApart.typeId_lt hInput.mem_inputs)).not

theorem Removed.mem_declaredVariables
    (h : Removed ids levels types input before declaration later listing middle)
    (hMem : words ∈ listing.declaredVariables) (hNe : (unplaced words).arg 2 ≠ input.id) :
    words ∈ middle.declaredVariables := by
  have hOf : words ∈ listing.variablesOf ((unplaced words).arg 2) :=
    List.mem_filter.2 ⟨hMem, beq_self_eq_true _⟩
  rw [← h.variablesOf_of_ne hNe] at hOf
  exact (List.mem_filter.1 hOf).1

/-- The input that a removal takes is private from then on, and later removals keep it. -/
theorem RemovesExactly.privatized_taken (hRest : RemovesExactly rest middle result)
    (h : Removed ids (inputLevels types ids input) types input before declaration later listing
      middle)
    (hLevels : inputLevels types ids input ≠ []) (hDistinct : DistinctIds listing)
    (hOne : listing.locatedIds.Nodup) :
    ∃ pointee storage, types.get? input.typeId = some (.pointer pointee storage) ∧
      Privatized types pointee listing result input.id := by
  obtain ⟨pointee, storage, hType, -⟩ := inputLevels_eq hLevels
  have hPrivate := h.privatized hLevels hDistinct (length_locationsOf_le hOne input.id) hType
  have hVariable : privateVariable ids (inputLevels types ids input) input.id ∈
      middle.declaredVariables := by
    rw [h.declaredVariables.2]
    simp
  have hKept : Keeps middle result input.id := by
    apply hRest.kept _ hVariable
    rintro ⟨⟨_, _, hInput, _⟩, _⟩
    cases hInput.symm.trans (Bool.and_false _)
  exact ⟨pointee, storage, hType,
    hPrivate.keeps (h.evolves hDistinct) hRest.evolves hKept⟩

/-- An input that is taken after a removal of another one has the type that it had before. -/
theorem RemovesExactly.privatized_later (hRest : RemovesExactly rest middle result)
    (h : Removed ids levels types input before declaration later listing middle)
    (hApart : InputsApart bound listing)
    (hAdds : ∀ words ∈ declarations ids levels input.id, Adds bound words)
    (hMem : words ∈ listing.declaredVariables) (hNe : (unplaced words).arg 2 ≠ input.id)
    (hRemovable : listing.Removable rest words) :
    ∃ pointee storage,
      (listing.typesBefore ((unplaced words).arg 2)).get? ((unplaced words).arg 1) =
        some (.pointer pointee storage) ∧
      Privatized (listing.typesBefore ((unplaced words).arg 2)) pointee listing result
        ((unplaced words).arg 2) := by
  have hFirst := h.keeps hApart.distinctIds (List.mem_map_of_mem hMem) hNe
  obtain ⟨pointee, storage, hType, hPrivate⟩ := hRest.removed words
    (h.mem_declaredVariables hMem hNe) ((h.removable_iff hApart hAdds hNe).2 hRemovable)
  obtain ⟨⟨_, _, hAt⟩, _⟩ := hRemovable
  have hTypes := (h.typesBefore hApart.below hAdds hNe).1
  have hTypeId := hApart.typeId_lt hAt.mem_inputs
  have hClosed (id : UInt32) (_ : id < bound) := hApart.base_lt hAt.mem_inputs
    ((unplaced words).arg 2) id
  rw [hTypes _ hTypeId] at hType
  have hPointee := hClosed _ hTypeId
  rw [hType] at hPointee
  exact ⟨pointee, storage, hType, (hFirst.privatized (h.evolves hApart.distinctIds) hPrivate).congr
    (elementType_congr hTypes hClosed hPointee)⟩

/-- A removal in front of others. They find all other inputs as they were. -/
theorem RemovesExactly.cons (hRest : RemovesExactly rest middle result)
    (h : Removed ids (inputLevels (listing.typesBefore input.id) ids input)
      (listing.typesBefore input.id) input before declaration later listing middle)
    (hLevels : inputLevels (listing.typesBefore input.id) ids input ≠ [])
    (hApart : InputsApart bound listing)
    (hAdds : ∀ words ∈ declarations ids (inputLevels (listing.typesBefore input.id) ids input)
      input.id, Adds bound words)
    (hAt : listing.InputAt location declaration) :
    RemovesExactly (location :: rest) listing result := by
  have hDistinct := hApart.distinctIds
  have hEvolves := h.evolves hDistinct
  have hOwn (words : List UInt32) (hMem : words ∈ listing.declaredVariables)
      (hSame : (unplaced words).arg 2 = input.id) : words = declaration :=
    hDistinct.eq_of_id_eq hMem (mem_declaredVariables_of_mem_inputs hAt.mem_inputs)
      (hSame.trans h.id)
  have hOwnRemovable : listing.Removable (location :: rest) declaration := by
    rw [removable_cons, ← h.id, ← h.typeId]
    exact Or.inl ⟨hAt, (inputLevels_eq_nil_iff _ ids input).not.1 hLevels⟩
  have hOther (words : List UInt32) (hNe : (unplaced words).arg 2 ≠ input.id) :
      listing.Removable (location :: rest) words ↔ listing.Removable rest words := by
    rw [removable_cons, or_iff_right]
    rintro ⟨hHere, -⟩
    rw [hApart.inputAt_unique hHere hAt, ← h.id] at hNe
    exact hNe rfl
  refine ⟨hEvolves.trans hRest.evolves, fun words hMem hNot => ?_, fun words hMem hRemovable => ?_⟩
  · have hNe : (unplaced words).arg 2 ≠ input.id := fun hSame =>
      hNot (hOwn words hMem hSame ▸ hOwnRemovable)
    have hFirst := h.keeps hDistinct (List.mem_map_of_mem hMem) hNe
    exact hFirst.trans hEvolves (hRest.kept words (h.mem_declaredVariables hMem hNe)
      (((h.removable_iff hApart hAdds hNe).trans (hOther words hNe).symm).not.2 hNot))
  · by_cases hSame : (unplaced words).arg 2 = input.id
    · obtain rfl := hOwn words hMem hSame
      rw [← h.id, ← h.typeId]
      exact hRest.privatized_taken h hLevels hDistinct hApart.oneLocation
    · exact hRest.privatized_later h hApart hAdds hMem hSame ((hOther words hSame).1 hRemovable)

end RemovalInRun

/-- If nothing is changed at a location, then its inputs have no levels. -/
theorem lacks_of_eliminate_eq_none {d : Dissection} {location : UInt32}
    (hApart : InputsApart d.code.bound d.listing) (hNone : eliminate d.code location = .ok none)
    {words : List UInt32} (hAt : d.listing.InputAt location words) :
    (d.listing.typesBefore ((unplaced words).arg 2)).Lacks ((unplaced words).arg 1) := by
  rcases hSearch : findInput d.code location with ⟨types, _ | input⟩
  · have hEmpty : (findInput d.code location).2 = none := by rw [hSearch]
    exact (findInput_eq_none_iff.1 hEmpty words hAt).elim
  · obtain ⟨hKnown, before, declaration, later, hFound, hHere⟩ := hApart.exists_inputAt hSearch
    obtain rfl := hApart.inputAt_unique hAt hHere
    rw [← hFound.id, ← hFound.typeId, ← hKnown, ← inputLevels_eq_nil_iff types d.code.freshId]
    exact (eliminate_eq_none_iff_of_input hSearch).1 hNone

/-- A whole run of removals takes the inputs that it can take in the first module. -/
theorem removesExactly_eliminateEach {locations : List UInt32} {d : Dissection} {result : Code}
    (hApart : InputsApart d.code.bound d.listing)
    (hBound : d.code.bound.toNat + idsTaken locations d.code < UInt32.size)
    (hResult : eliminateEach locations d.code = .ok result) :
    RemovesExactly locations d.listing result.listing := by
  -- Each removal uses up its share of the ids, and what is left suffices for the others.
  induction locations generalizing d with
  | nil =>
      cases hResult
      rw [Dissection.listing_code]
      exact removesExactly_nil d.listing
  | cons location rest ih =>
      rw [eliminateEach_cons] at hResult
      rw [idsTaken] at hBound
      cases hWithin : eliminateWithin d.code location with
      | error error =>
          rw [hWithin] at hResult
          cases hResult
      | ok changed =>
          have hStep := eliminate_of_eliminateWithin hWithin
          rw [hWithin] at hResult
          rw [hStep] at hBound
          cases changed with
          | none =>
              refine (ih hApart ?_ hResult).skip fun words =>
                lacks_of_eliminate_eq_none hApart hStep
              simp only [Option.getD_none] at hBound
              omega
          | some code =>
              obtain ⟨f, input, before, declaration, later, rfl, hLevels, hRemoved, hAt, hAdds,
                hNewBound, hStillApart⟩ := hApart.exists_removed (by omega) hStep
              refine (ih hStillApart ?_ hResult).cons hRemoved hLevels hApart hAdds hAt
              simp only [Option.getD_some] at hBound
              omega

theorem sublist_or_sublist {α : Type} {list : List α} {first second : α} (hFirst : first ∈ list)
    (hSecond : second ∈ list) (hNe : first ≠ second) :
    [first, second].Sublist list ∨ [second, first].Sublist list := by
  obtain ⟨before, later, rfl⟩ := List.append_of_mem hFirst
  rcases List.mem_append.1 hSecond with hBefore | hLater
  · right
    exact (List.singleton_sublist.2 hBefore).append
      (List.singleton_sublist.2 (List.mem_cons_self ..))
  · left
    have hRest := (List.mem_cons.1 hLater).resolve_left hNe.symm
    exact List.sublist_append_of_sublist_right
      ((List.singleton_sublist.2 hRest).cons_cons first)

/-- With locations in front of the inputs, a mask can take an input if its location is in the mask
and its type has levels. -/
theorem InputsApart.removable_setBits_iff {bound : UInt32} {listing : Listing}
    (hApart : InputsApart bound listing) (mask : UInt32) {input : List UInt32}
    (hMem : input ∈ listing.inputs) :
    listing.Removable (setBits mask) input ↔
      ¬((∀ decoration ∈ listing.locationsOf ((unplaced input).arg 2),
          mask.toNat.testBit ((unplaced decoration).arg 3).toNat = false) ∨
        (listing.typesBefore ((unplaced input).arg 2)).Lacks ((unplaced input).arg 1)) := by
  obtain ⟨hMem, hInput⟩ := List.mem_filter.1 hMem
  rw [Listing.Removable, not_or]
  apply and_congr_left'
  constructor
  · rintro ⟨location, hBit, -, decoration, hOrder, hLocates, rfl⟩ hNone
    have hFalse := hNone decoration (List.mem_filter.2 ⟨hOrder.subset (by simp), hLocates⟩)
    rw [mem_setBits_iff.1 hBit] at hFalse
    cases hFalse
  · intro hSome
    obtain ⟨decoration, hSome⟩ := not_forall.1 hSome
    obtain ⟨hDecoration, hBit⟩ := Classical.not_imp.1 hSome
    obtain ⟨hListed, hLocates⟩ := List.mem_filter.1 hDecoration
    have hNe : decoration ≠ input := by
      rintro rfl
      cases (not_declaresInput_of_is (is_decorate_of_locates hLocates)
        (by decide)).symm.trans hInput
    have hFirst : [decoration, input].Sublist listing := by
      refine (sublist_or_sublist hListed hMem hNe).resolve_right fun hBehind => ?_
      have hNot := List.pairwise_iff_forall_sublist.1 hApart.locatedFirst hBehind hInput
      cases hNot.symm.trans hLocates
    exact ⟨_, mem_setBits_iff.2 (Bool.not_eq_false _ ▸ hBit), hInput, decoration, hFirst,
      hLocates, rfl⟩

/-- The bits of a mask act one by one on the module that the mask zero gives. An input of that
module is kept as it stands there if no location of its own is in the mask, or if its type is not
a recorded pointer to a recorded type, and otherwise it becomes a private variable. -/
theorem specialize_keeps_iff {words : List UInt32} {template base result : Code} {survey : Survey}
    {bindings : Bindings} {dual : Bool} {mask : UInt32}
    (hTemplate : Code.ofWords words = .ok template)
    (hBase : specialize template survey bindings { dualSourceBlend := dual } = .ok base)
    (hApart : InputsApart base.bound base.listing)
    (hBound : base.bound.toNat + idsTaken (setBits mask) base < UInt32.size)
    (hResult : specialize template survey bindings
      { dualSourceBlend := dual, unwrittenInputs := mask } = .ok result)
    {input : List UInt32} (hInput : input ∈ base.listing.inputs) :
    let id := (unplaced input).arg 2
    let types := base.listing.typesBefore id
    (Keeps base.listing result.listing id ↔
      (∀ decoration ∈ base.listing.locationsOf id,
        mask.toNat.testBit ((unplaced decoration).arg 3).toNat = false) ∨
      types.Lacks ((unplaced input).arg 1)) ∧
    (¬Keeps base.listing result.listing id → ∃ pointee storage,
      types.get? ((unplaced input).arg 1) = some (.pointer pointee storage) ∧
      Privatized types pointee base.listing result.listing id) := by
  obtain ⟨hLayout, hLength⟩ := Dissection.headed_of_ofWords hTemplate
  obtain ⟨hSameLayout, hSameLength⟩ := size_specialize hBase
  obtain ⟨d, rfl⟩ := Dissection.exists_of_layout (hSameLayout.trans hLayout)
    (hLength.trans_eq hSameLength.symm)
  have hRun : eliminateEach (setBits mask) d.code = .ok result := by
    rw [← eliminateAll_eq_eliminateEach, ← hResult, specialize_eq_bind]
    change _ = (specialize template survey bindings { dualSourceBlend := dual }).bind _
    rw [hBase]
    rfl
  rw [Dissection.listing_code] at hApart hInput ⊢
  intro id types
  have hExact := removesExactly_eliminateEach hApart hBound hRun
  have hVariable := mem_declaredVariables_of_mem_inputs hInput
  have hRemovable := hApart.removable_setBits_iff mask hInput
  have hPrivate (hNot : ¬Keeps d.listing result.listing id) :
      d.listing.Removable (setBits mask) input := by
    by_contra hKept
    exact hNot (hExact.kept input hVariable hKept)
  refine ⟨⟨fun hKeeps => ?_, fun hKept => ?_⟩, fun hNot => hExact.removed input hVariable
    (hPrivate hNot)⟩
  · by_contra hTaken
    obtain ⟨pointee, storage, -, hPrivatized⟩ :=
      hExact.removed input hVariable (hRemovable.2 hTaken)
    exact hPrivatized.not_keeps (List.mem_filter.2 ⟨hVariable, beq_self_eq_true _⟩)
      (List.mem_filter.1 hInput).2 hKeeps
  · exact hExact.kept input hVariable (hRemovable.not.2 (not_not.2 hKept))

/-- A module with one slot and three inputs. The type of the third is not recorded. -/
def threeInputs (slot : UInt32) : Listing :=
  [encode Op.entryPoint [4, 1, 0x6e69616d, 0, 5, 8, 9],
    encode Op.decorate [5, Decoration.location, 0],
    encode Op.decorate [8, Decoration.location, 1],
    encode Op.decorate [9, Decoration.location, 2],
    encode Op.decorate [13, Decoration.binding, slot],
    encode Op.typeFloat [2, 32],
    encode Op.typeVector [3, 2, 4],
    encode Op.typePointer [4, Storage.input, 3],
    encode Op.typePointer [6, Storage.input, 12],
    encode Op.declareVariable [4, 5, Storage.input],
    encode Op.declareVariable [4, 8, Storage.input],
    encode Op.declareVariable [6, 9, Storage.input],
    encode Op.accessChain [7, 14, 5, 10],
    encode Op.accessChain [7, 15, 8, 10]]

def threeInputsWords : List UInt32 :=
  [Header.magic, Header.version, 0, 20, 0] ++ (threeInputs 3).flatten

def threeInputsTemplate : Code := ⟨.headed, threeInputsWords⟩

def threeInputsBindings : Bindings := fun slot => if slot = 3 then some 0 else none

def threeInputsBase : Code :=
  ⟨.headed, [Header.magic, Header.version, 0, 20, 0] ++ (threeInputs 0).flatten⟩

/-- The first input is private, and the other two are as they were. -/
def threeInputsSpecialized : Code :=
  ⟨.headed, [Header.magic, Header.version, 0, 24, 0] ++
    [encode Op.entryPoint [4, 1, 0x6e69616d, 0, 8, 9],
      encode Op.decorate [8, Decoration.location, 1],
      encode Op.decorate [9, Decoration.location, 2],
      encode Op.decorate [13, Decoration.binding, 0],
      encode Op.typeFloat [2, 32],
      encode Op.typeVector [3, 2, 4],
      encode Op.typePointer [4, Storage.input, 3],
      encode Op.typePointer [6, Storage.input, 12],
      encode Op.typePointer [20, Storage.privateClass, 3],
      encode Op.typePointer [21, Storage.privateClass, 2],
      encode Op.constant [2, 22, 0],
      encode Op.constantComposite [3, 23, 22, 22, 22, 22],
      encode Op.declareVariable [20, 5, Storage.privateClass, 23],
      encode Op.declareVariable [4, 8, Storage.input],
      encode Op.declareVariable [6, 9, Storage.input],
      encode Op.accessChain [21, 14, 5, 10],
      encode Op.accessChain [7, 15, 8, 10]].flatten⟩

theorem listing_threeInputsBase : threeInputsBase.listing = threeInputs 0 := by cbv

def threeInputsTypes : TypeTable :=
  ⟨[(2, .scalar 32), (3, .vector 2 4), (4, .pointer 3 Storage.input),
    (6, .pointer 12 Storage.input)]⟩

theorem inputs_threeInputs : (threeInputs 0).inputs =
    [encode Op.declareVariable [4, 5, Storage.input],
      encode Op.declareVariable [4, 8, Storage.input],
      encode Op.declareVariable [6, 9, Storage.input]] := by cbv

theorem typesBefore_threeInputs :
    ∀ id ∈ [5, 8, 9], (threeInputs 0).typesBefore id = threeInputsTypes := by
  have hFirst : (threeInputs 0).typesBefore 5 = threeInputsTypes := by cbv
  have hSecond : (threeInputs 0).typesBefore 8 = threeInputsTypes := by cbv
  have hThird : (threeInputs 0).typesBefore 9 = threeInputsTypes := by cbv
  simp only [List.forall_mem_cons]
  exact ⟨hFirst, hSecond, hThird, List.forall_mem_nil _⟩

theorem inputsApart_threeInputs : InputsApart 20 (threeInputs 0) where
  oneLocation := of_decide_eq_true (by cbv)
  locatedFirst := of_decide_eq_true (by cbv)
  ownLocation := of_decide_eq_true (by cbv)
  distinctIds := of_decide_eq_true (by cbv)
  below := by
    have hAll : ((threeInputs 0).all fun words =>
        (searchedIds words).all fun id => decide (id < 20)) = true := by cbv
    intro words hMem id hId
    exact of_decide_eq_true (List.all_eq_true.1 (List.all_eq_true.1 hAll words hMem) id hId)
  fourWords := of_decide_eq_true (by cbv)
  smallSizes := by
    have hSizes : ∀ entry ∈ threeInputsTypes.entries, entry.2.size.toNat ≤ 65532 := by decide
    rw [inputs_threeInputs]
    intro input hMem typeId shape hShape
    have hId : (unplaced input).arg 2 ∈ [5, 8, 9] :=
      List.mem_map_of_mem (f := fun words => (unplaced words).arg 2) hMem
    rw [typesBefore_threeInputs _ hId] at hShape
    exact hSizes _ (OrderedMap.mem_of_get? hShape)

/-- The mask names the first and the third location, but the third input has no levels. -/
theorem specialize_keeps_iff_threeInputs :
    Code.ofWords threeInputsWords = .ok threeInputsTemplate ∧
    specialize threeInputsTemplate (.ofCode threeInputsTemplate) threeInputsBindings {} =
      .ok threeInputsBase ∧
    InputsApart threeInputsBase.bound threeInputsBase.listing ∧
    threeInputsBase.bound.toNat + idsTaken (setBits 5) threeInputsBase < UInt32.size ∧
    specialize threeInputsTemplate (.ofCode threeInputsTemplate) threeInputsBindings
      { unwrittenInputs := 5 } = .ok threeInputsSpecialized ∧
    (∃ pointee storage,
      (threeInputsBase.listing.typesBefore 5).get? 4 = some (.pointer pointee storage) ∧
      Privatized (threeInputsBase.listing.typesBefore 5) pointee threeInputsBase.listing
        threeInputsSpecialized.listing 5) ∧
    Keeps threeInputsBase.listing threeInputsSpecialized.listing 8 ∧
    Keeps threeInputsBase.listing threeInputsSpecialized.listing 9 := by
  have hTemplate : Code.ofWords threeInputsWords = .ok threeInputsTemplate := rfl
  have hBase : specialize threeInputsTemplate (.ofCode threeInputsTemplate) threeInputsBindings {} =
      .ok threeInputsBase := by cbv
  have hApart : InputsApart threeInputsBase.bound threeInputsBase.listing := by
    rw [listing_threeInputsBase]
    exact inputsApart_threeInputs
  have hBound : threeInputsBase.bound.toNat + idsTaken (setBits 5) threeInputsBase <
      UInt32.size := of_decide_eq_true (by cbv)
  have hResult : specialize threeInputsTemplate (.ofCode threeInputsTemplate) threeInputsBindings
      { unwrittenInputs := 5 } = .ok threeInputsSpecialized := by cbv
  have hExact (input : List UInt32) (hInput : input ∈ threeInputsBase.listing.inputs) :=
    specialize_keeps_iff hTemplate hBase hApart hBound hResult hInput
  rw [listing_threeInputsBase, inputs_threeInputs] at hExact
  rw [listing_threeInputsBase]
  have hFirst := hExact (encode Op.declareVariable [4, 5, Storage.input]) (by simp)
  have hSecond := hExact (encode Op.declareVariable [4, 8, Storage.input]) (by simp)
  have hThird := hExact (encode Op.declareVariable [6, 9, Storage.input]) (by simp)
  refine ⟨hTemplate, hBase, listing_threeInputsBase ▸ hApart, hBound, hResult, hFirst.2 ?_,
    hSecond.1.2 (Or.inl ?_), hThird.1.2 (Or.inr ?_)⟩
  · rw [hFirst.1]
    rintro (hNone | hLacks)
    · have hLocation : encode Op.decorate [5, Decoration.location, 0] ∈
          (threeInputs 0).locationsOf 5 := of_decide_eq_true (by cbv)
      exact absurd (hNone _ hLocation) (by decide)
    · rw [typesBefore_threeInputs _ (by decide)] at hLacks
      cases hLacks 3 Storage.input rfl
  · have hLocations : (threeInputs 0).locationsOf 8 =
        [encode Op.decorate [8, Decoration.location, 1]] := by cbv
    intro decoration hMem
    obtain rfl := List.mem_singleton.1 (hLocations ▸ hMem)
    decide
  · rw [typesBefore_threeInputs _ (by decide)]
    intro pointee storage hType
    cases hType
    rfl

end ShaderBackend.Spirv
