import Mathlib.Data.List.Basic
import ShaderBackend.Proofs.Spirv.Recorded
import ShaderBackend.Proofs.Spirv.Retyping

/-! What the removal of an input does to each variable of the module. The input becomes a private
variable that no entry point lists and that has no location. Any other variable keeps its
declaration, its locations, its places in the interfaces and the access chains below it. -/
namespace ShaderBackend.Spirv

/-- The listing after the removal of a found input. -/
structure Removed (ids : Nat → UInt32) (levels : List PrivateLevel) (types : TypeTable)
    (input : InputVariable) (before : Listing) (declaration : List UInt32)
    (later listing result : Listing) : Prop
    extends Found listing types input before declaration later where
  retyped : Listing.retype? levels input.id (fun _ => none)
    (((before ++ declarations ids levels input.id ++ later).map
      (withoutInterface input.id)).eraseP (locates input.id)) = some result

/-- Whether an instruction declares a variable. -/
def declaresVariable (words : List UInt32) : Bool := (unplaced words).is Op.declareVariable

/-- The variables of a listing in order. -/
def Listing.declaredVariables (listing : Listing) : Listing := listing.filter declaresVariable

/-- The ids of the variables. -/
def Listing.variableIds (listing : Listing) : List UInt32 :=
  listing.declaredVariables.map fun words => (unplaced words).arg 2

/-- The declarations of the variable with an id. -/
def Listing.variablesOf (listing : Listing) (id : UInt32) : Listing :=
  listing.declaredVariables.filter fun words => (unplaced words).arg 2 == id

/-- The instructions that give an id a location. -/
def Listing.locationsOf (listing : Listing) (id : UInt32) : Listing :=
  listing.filter (locates id)

/-- The interface ids of an entry point. -/
def interfaceIds (words : List UInt32) : List UInt32 :=
  words.drop (3 + (unplaced words).literalLength 3)

/-- The interface ids of all entry points. -/
def Listing.interfaces (listing : Listing) : List (List UInt32) :=
  (listing.filter fun words => (unplaced words).is Op.entryPoint).map interfaceIds

section Interfaces

/-- A literal that ends in front of the last word is not changed by what follows it. -/
theorem terminatedLength_take_append {words : List UInt32}
    (h : terminatedLength words < words.length) (rest : List UInt32) :
    terminatedLength (words.take (terminatedLength words) ++ rest) = terminatedLength words := by
  induction words with
  | nil => exact (Nat.not_lt_zero _ h).elim
  | cons word words ih =>
      rw [terminatedLength] at h ⊢
      split
      · rename_i hZero
        rw [List.take_succ_cons, List.take_zero, List.cons_append, terminatedLength, if_pos hZero]
      · rename_i hNonzero
        rw [if_neg hNonzero, List.length_cons, Nat.add_lt_add_iff_right] at h
        rw [List.take_succ_cons, List.cons_append, terminatedLength, if_neg hNonzero, ih h]

theorem drop_relength (words : List UInt32) (count : Nat) :
    (relength words).drop (count + 1) = words.drop (count + 1) := by
  cases words <;> rfl

/-- Leaving out an interface id drops its first mention. The literal name in front of the
ids stays whole. -/
theorem interfaceIds_withoutInterface (id : UInt32) {words : List UInt32}
    (hEntry : (unplaced words).is Op.entryPoint = true) :
    interfaceIds (withoutInterface id words) = (interfaceIds words).erase id := by
  by_cases hMem : id ∈ interfaceIds words
  · have hName : (unplaced words).literalLength 3 < (words.drop 3).length := by
      by_contra hLong
      rw [interfaceIds, ← List.drop_drop, List.drop_of_length_le (Nat.le_of_not_lt hLong)] at hMem
      cases hMem
    have hWithout : withoutInterface id words =
        relength (words.take (3 + (unplaced words).literalLength 3) ++
          (interfaceIds words).erase id) := by
      have hContains : (interfaceIds words).contains id = true := by simpa using hMem
      rw [withoutInterface, hEntry]
      exact if_pos hContains
    have hTake : (words.take (3 + (unplaced words).literalLength 3)).drop 3 =
        (words.drop 3).take ((unplaced words).literalLength 3) := by
      rw [List.drop_take, Nat.add_sub_cancel_left]
    have hLong : 3 ≤ (words.take (3 + (unplaced words).literalLength 3)).length := by
      rw [List.length_drop] at hName
      rw [List.length_take]
      omega
    have hOperands : (withoutInterface id words).drop 3 =
        (words.drop 3).take ((unplaced words).literalLength 3) ++
          (interfaceIds words).erase id := by
      rw [hWithout, drop_relength, List.drop_append_of_le_length hLong, hTake]
    have hSame : (unplaced (withoutInterface id words)).literalLength 3 =
        (unplaced words).literalLength 3 := by
      change terminatedLength ((withoutInterface id words).drop 3) = _
      rw [hOperands]
      exact terminatedLength_take_append hName _
    rw [interfaceIds, hSame, ← List.drop_drop, hOperands]
    exact List.drop_left' (by rw [List.length_take]; omega)
  · have hSame : withoutInterface id words = words := by
      have hContains : (interfaceIds words).contains id = false := by simpa using hMem
      rw [withoutInterface, hEntry]
      exact if_neg (by rw [Bool.true_and]; exact Bool.eq_false_iff.1 hContains)
    rw [hSame, List.erase_of_not_mem hMem]

end Interfaces

section Declarations

variable {ids : Nat → UInt32} {levels : List PrivateLevel} {id : UInt32}

/-- The only variable among the declarations is the last of them. -/
theorem declaredVariables_declarations (ids : Nat → UInt32) (levels : List PrivateLevel)
    (id : UInt32) :
    Listing.declaredVariables (declarations ids levels id) = [privateVariable ids levels id] := by
  have hOthers : Listing.declaredVariables (declarations ids levels id).dropLast = [] := by
    rw [dropLast_declarations, Listing.declaredVariables, List.filter_append,
      List.append_eq_nil_iff, List.filter_eq_nil_iff, List.filter_eq_nil_iff]
    constructor
    · intro words hMem
      obtain ⟨level, -, rfl⟩ := List.mem_map.1 hMem
      rw [declaresVariable, is_encode]
      decide
    · intro words hMem
      obtain ⟨depth, hDepth, rfl⟩ := List.mem_mapIdx.1 (List.mem_reverse.1 hMem)
      unfold zeroConstant
      split <;> rw [declaresVariable, is_encode] <;> decide
  have hVariable : declaresVariable (privateVariable ids levels id) = true := by
    rw [declaresVariable, privateVariable, is_encode]
    decide
  rw [dropLast_declarations, Listing.declaredVariables] at hOthers
  rw [declarations, Listing.declaredVariables, List.filter_append, hOthers, List.nil_append,
    List.filter_eq_self]
  simpa using hVariable

theorem filter_declarations_of_untouched {kind : List UInt32 → Bool}
    (hKind : ∀ words, kind words = true → touchedByRemoval words = true) :
    (declarations ids levels id).filter kind = [] := by
  rw [List.filter_eq_nil_iff]
  intro words hMem hHere
  cases (not_touched_of_mem_declarations hMem).symm.trans (hKind words hHere)

theorem touched_of_entryPoint {words : List UInt32}
    (h : (unplaced words).is Op.entryPoint = true) : touchedByRemoval words = true := by
  simp [touchedByRemoval, touchedByUnlisting, h]

theorem touched_of_locates {words : List UInt32} (h : locates id words = true) :
    touchedByRemoval words = true := by
  simp [touchedByRemoval, touchedByUnlisting, is_decorate_of_locates h]

end Declarations

theorem filter_eraseP_self (property : List UInt32 → Bool) (listing : Listing) :
    (listing.eraseP property).filter property = (listing.filter property).tail := by
  induction listing with
  | nil => rfl
  | cons words rest ih =>
      cases hHere : property words with
      | true => rw [List.eraseP_cons_of_pos hHere, List.filter_cons_of_pos hHere, List.tail_cons]
      | false =>
          have hNot : ¬property words = true := by simp [hHere]
          rw [List.eraseP_cons_of_neg hNot, List.filter_cons_of_neg hNot,
            List.filter_cons_of_neg hNot, ih]

namespace Removed

variable {ids : Nat → UInt32} {levels : List PrivateLevel} {types : TypeTable}
  {input : InputVariable} {before later listing result : Listing} {declaration : List UInt32}
  {id : UInt32}

theorem filter_eq (h : Removed ids levels types input before declaration later listing result)
    {kind : List UInt32 → Bool} (hKind : KeptKind input.id kind) :
    result.filter kind = before.filter kind ++ (declarations ids levels input.id).filter kind ++
      later.filter kind := by
  rw [filter_removal hKind h.retyped, List.filter_append, List.filter_append]

theorem declaredVariables
    (h : Removed ids levels types input before declaration later listing result) :
    listing.declaredVariables = before.declaredVariables ++ declaration :: later.declaredVariables ∧
      result.declaredVariables =
        before.declaredVariables ++
          privateVariable ids levels input.id :: later.declaredVariables := by
  have hDeclarations := declaredVariables_declarations ids levels input.id
  have hKept : KeptKind input.id declaresVariable := keptKind_of_variable fun _ hKind => hKind
  have hVariable : declaresVariable declaration = true := h.opcode
  rw [Listing.declaredVariables] at hDeclarations
  constructor
  · rw [Listing.declaredVariables, h.split, List.filter_append, List.filter_cons_of_pos hVariable]
    rfl
  · rw [Listing.declaredVariables, h.filter_eq hKept, hDeclarations]
    simp [Listing.declaredVariables]

/-- The private variable has the id of the input. -/
theorem variableIds (h : Removed ids levels types input before declaration later listing result) :
    result.variableIds = listing.variableIds := by
  rw [Listing.variableIds, Listing.variableIds, h.declaredVariables.1, h.declaredVariables.2,
    List.map_append, List.map_append, List.map_cons, List.map_cons, ← h.id]
  rfl

theorem variablesOf_of_ne
    (h : Removed ids levels types input before declaration later listing result)
    (hNe : id ≠ input.id) : result.variablesOf id = listing.variablesOf id := by
  have hOld : (unplaced declaration).arg 2 ≠ id := h.id ▸ hNe.symm
  have hNew : (unplaced (privateVariable ids levels input.id)).arg 2 ≠ id := hNe.symm
  rw [Listing.variablesOf, Listing.variablesOf, h.declaredVariables.1, h.declaredVariables.2]
  simp [hOld, hNew]

theorem variablesOf_self
    (h : Removed ids levels types input before declaration later listing result)
    (hDistinct : listing.variableIds.Nodup) :
    listing.variablesOf input.id = [declaration] ∧
      result.variablesOf input.id = [privateVariable ids levels input.id] := by
  rw [Listing.variableIds, h.declaredVariables.1, List.map_append, List.map_cons,
    List.nodup_append, List.nodup_cons, ← h.id] at hDistinct
  have hBefore :
      before.declaredVariables.filter (fun words => (unplaced words).arg 2 == input.id) = [] := by
    rw [List.filter_eq_nil_iff]
    intro words hMem hSame
    exact hDistinct.2.2 _ (List.mem_map_of_mem hMem) _ (List.mem_cons_self ..) (beq_iff_eq.1 hSame)
  have hLater :
      later.declaredVariables.filter (fun words => (unplaced words).arg 2 == input.id) = [] := by
    rw [List.filter_eq_nil_iff]
    intro words hMem hSame
    exact hDistinct.2.1.1 (beq_iff_eq.1 hSame ▸ List.mem_map_of_mem hMem)
  have hNew : (unplaced (privateVariable ids levels input.id)).arg 2 = input.id := rfl
  rw [Listing.variablesOf, Listing.variablesOf, h.declaredVariables.1, h.declaredVariables.2,
    List.filter_append, List.filter_append, hBefore]
  simp [← h.id, hNew, hLater]

theorem locationsOf_of_ne
    (h : Removed ids levels types input before declaration later listing result)
    (hNe : id ≠ input.id) : result.locationsOf id = listing.locationsOf id := by
  have hKept : KeptKind input.id (locates id) := by
    intro words hTouched
    rcases hTouched with hEntry | hChain | hLocates
    · rw [locates, not_decorates_of_is hEntry (by decide), Bool.false_and]
    · rcases Bool.or_eq_true_iff.1 hChain with hOpcode | hOpcode <;>
        rw [locates, not_decorates_of_is hOpcode (by decide), Bool.false_and]
    · rw [locates, Bool.and_eq_true, beq_iff_eq] at hLocates
      simp [locates, hLocates.2, hNe.symm]
  have hVariable : ¬locates id declaration = true := by
    rw [locates, not_decorates_of_is h.opcode (by decide), Bool.false_and]
    decide
  rw [Listing.locationsOf, h.filter_eq hKept,
    filter_declarations_of_untouched fun _ => touched_of_locates, List.append_nil,
    Listing.locationsOf, h.split, List.filter_append, List.filter_cons_of_neg hVariable]

/-- The removal drops the first location of the input. -/
theorem locationsOf_self
    (h : Removed ids levels types input before declaration later listing result) :
    result.locationsOf input.id = (listing.locationsOf input.id).tail := by
  have hChain (words : List UInt32) (hIs : (unplaced words).isAccessChain = true) :
      locates input.id words = false := by
    rcases Bool.or_eq_true_iff.1 hIs with hOpcode | hOpcode <;>
      rw [locates, not_decorates_of_is hOpcode (by decide), Bool.false_and]
  have hEntry (words : List UInt32) (hIs : (unplaced words).is Op.entryPoint = true) :
      locates input.id words = false := by
    rw [locates, not_decorates_of_is hIs (by decide), Bool.false_and]
  have hVariable : ¬locates input.id declaration = true := by
    rw [locates, not_decorates_of_is h.opcode (by decide), Bool.false_and]
    decide
  rw [Listing.locationsOf, (edited_retype? h.retyped).filter_eq hChain, filter_eraseP_self,
    (edited_withoutInterface _ _).filter_eq hEntry, List.filter_append, List.filter_append,
    filter_declarations_of_untouched fun _ => touched_of_locates, List.append_nil,
    Listing.locationsOf, h.split, List.filter_append, List.filter_cons_of_neg hVariable]

/-- Every entry point loses its first mention of the input. -/
theorem interfaces (h : Removed ids levels types input before declaration later listing result) :
    result.interfaces = listing.interfaces.map (·.erase input.id) := by
  have hChain (words : List UInt32) (hIs : (unplaced words).isAccessChain = true) :
      (unplaced words).is Op.entryPoint = false := by
    rcases Bool.or_eq_true_iff.1 hIs with hOpcode | hOpcode <;>
      exact is_eq_false hOpcode (by decide)
  have hLocates (words : List UInt32) (hIs : locates input.id words = true) :
      (unplaced words).is Op.entryPoint = false :=
    is_eq_false (is_decorate_of_locates hIs) (by decide)
  have hVariable : (unplaced declaration).is Op.entryPoint = false :=
    is_eq_false h.opcode (by decide)
  have hOpcode : ((fun words => (unplaced words).is Op.entryPoint) ∘ withoutInterface input.id) =
      fun words => (unplaced words).is Op.entryPoint := by
    funext words
    simp only [Function.comp_apply, Instruction.is, opcode_withoutInterface]
  have hEntries : (before ++ declarations ids levels input.id ++ later).filter
      (fun words => (unplaced words).is Op.entryPoint) =
        listing.filter fun words => (unplaced words).is Op.entryPoint := by
    rw [List.filter_append, List.filter_append,
      filter_declarations_of_untouched fun _ => touched_of_entryPoint, List.append_nil, h.split]
    simp [hVariable]
  rw [Listing.interfaces, (edited_retype? h.retyped).filter_eq hChain,
    filter_eraseP_of_imp hLocates, List.filter_map, hOpcode, hEntries, List.map_map,
    Listing.interfaces, List.map_map, List.map_inj_left]
  intro words hMem
  exact interfaceIds_withoutInterface input.id (List.mem_filter.1 hMem).2

/-- Every access chain below the input gets the pointer of its level. -/
theorem retypedFrom
    (h : Removed ids levels types input before declaration later listing result)
    (hDistinct : (listing.chains.map fun words => (unplaced words).arg 2).Nodup) :
    RetypedFrom levels input.id listing.chains 0 listing.chains result.chains := by
  have hEmpty : Tabulates input.id listing.chains 0 fun _ => none := by simp [Tabulates]
  have hPass := @retype?_chains levels input.id listing.chains
    (fun words hMem => (List.mem_filter.1 hMem).2) hDistinct [] listing.chains rfl _ hEmpty
  have hMap := map_chains_retype? levels input.id (fun _ => none)
    (((before ++ declarations ids levels input.id ++ later).map
      (withoutInterface input.id)).eraseP (locates input.id))
  rw [h.retyped, h.toFound.chains_unlisted ids levels, Option.map_some] at hMap
  rw [← hMap] at hPass
  exact hPass

/-- No type declaration is lost. -/
theorem hasType (h : Removed ids levels types input before declaration later listing result)
    {typeId : UInt32} {shape : TypeShape} (hType : HasType listing typeId shape) :
    HasType result typeId shape := by
  obtain ⟨words, hMem, hDeclares⟩ := hType
  have hKept : words ∈ result.filter declaresType := by
    have hFilter := h.filter_perm (edited_removal h.retyped)
      (fun words hTouched => (not_declares_of_touched hTouched).1) h.not_declares.1
    exact hFilter.symm.subset (List.mem_append_right _
      (List.mem_filter.2 ⟨hMem, declaresType_of_declares hDeclares⟩))
  exact ⟨words, (List.mem_filter.1 hKept).1, hDeclares⟩

/-- The pointers of all levels are declared. -/
theorem hasType_pointer
    (h : Removed ids (inputLevels types ids input) types input before declaration later listing
      result) {level : PrivateLevel} (hLevel : level ∈ inputLevels types ids input) :
    HasType result level.pointer (.pointer level.pointee Storage.privateClass) := by
  obtain ⟨front, back, hListing, hContext⟩ :=
    h.exists_levelContext (List.ne_nil_of_mem hLevel) (edited_removal h.retyped)
  rw [hListing]
  refine (Spirv.hasType_pointer hContext hLevel).mono ?_
  simp [declarations]

end Removed

/-- What a removal keeps of an access chain: its result, its base and its length. -/
def chainShape (words : List UInt32) : UInt32 × UInt32 × Nat :=
  ((unplaced words).arg 2, (unplaced words).arg 3, words.length)

theorem chainShape_set_one (words : List UInt32) (value : UInt32) :
    chainShape (words.set 1 value) = chainShape words := by
  simp [chainShape, unplaced, Instruction.arg, List.getD_eq_getElem?_getD]

theorem RetypedFrom.map_chainShape {levels : List PrivateLevel} {id : UInt32} {chains : Listing}
    {count : Nat} {rest rest' : Listing} (h : RetypedFrom levels id chains count rest rest') :
    rest'.map chainShape = rest.map chainShape := by
  induction h with
  | nil => rfl
  | @cons count words words' rest rest' hFirst _ ih =>
      have hSame : chainShape words' = chainShape words := by
        by_cases hRooted : ∃ depth, Rooted id chains (· ≠ id) count depth
        · obtain ⟨depth, hDepth⟩ := hRooted
          obtain ⟨level, -, rfl⟩ := hFirst.1 depth hDepth
          exact chainShape_set_one words level.pointer
        · rw [hFirst.2 (not_exists.1 hRooted)]
      rw [List.map_cons, List.map_cons, hSame, ih]

section Rooted

variable {id other : UInt32} {chains chains' : Listing} {index depth depth' : Nat}

theorem exists_of_map_chainShape (h : chains'.map chainShape = chains.map chainShape)
    {words : List UInt32} (hWords : chains[index]? = some words) :
    ∃ words', chains'[index]? = some words' ∧ chainShape words' = chainShape words := by
  have hShape : (chains'.map chainShape)[index]? = some (chainShape words) := by
    rw [h, List.getElem?_map, hWords, Option.map_some]
  rw [List.getElem?_map] at hShape
  exact Option.map_eq_some_iff.1 hShape

/-- Which chains start at a variable depends on what a removal keeps. -/
theorem Rooted.of_map_chainShape {follows : UInt32 → Prop}
    (hShape : chains'.map chainShape = chains.map chainShape)
    (h : Rooted id chains follows index depth) : Rooted id chains' follows index depth := by
  induction h with
  | direct hWords hBase =>
      obtain ⟨words', hWords', hSame⟩ := exists_of_map_chainShape hShape hWords
      simp only [chainShape, Prod.mk.injEq] at hSame
      rw [← hSame.2.2]
      exact .direct hWords' (hSame.2.1.trans hBase)
  | indirect hWords hBaseWords hEarlier hBase hFollows _ ih =>
      obtain ⟨words', hWords', hSame⟩ := exists_of_map_chainShape hShape hWords
      obtain ⟨base', hBaseWords', hBaseSame⟩ := exists_of_map_chainShape hShape hBaseWords
      simp only [chainShape, Prod.mk.injEq] at hSame hBaseSame
      rw [← hSame.2.2]
      exact .indirect hWords' hBaseWords' hEarlier
        (hSame.2.1.trans (hBase.trans hBaseSame.1.symm)) (hSame.2.1 ▸ hFollows) ih

/-- With distinct results, a chain starts at one variable at most. -/
theorem Rooted.unique (hDistinct : (chains.map fun words => (unplaced words).arg 2).Nodup)
    (hId : ∀ words ∈ chains, (unplaced words).arg 2 ≠ id)
    (hOther : ∀ words ∈ chains, (unplaced words).arg 2 ≠ other)
    (h : Rooted id chains (fun _ => True) index depth)
    (h' : Rooted other chains (fun _ => True) index depth') : id = other := by
  induction h generalizing depth' with
  | direct hWords hBase =>
      cases h' with
      | direct hSame hBase' =>
          cases hWords.symm.trans hSame
          exact hBase.symm.trans hBase'
      | indirect hSame hBaseWords _ hBase' _ _ =>
          cases hWords.symm.trans hSame
          exact (hId _ (List.mem_of_getElem? hBaseWords) (hBase'.symm.trans hBase)).elim
  | @indirect index earlier depth words base hWords hBaseWords _ hBase _ _ ih =>
      cases h' with
      | direct hSame hBase' =>
          cases hWords.symm.trans hSame
          exact (hOther _ (List.mem_of_getElem? hBaseWords) (hBase.symm.trans hBase')).elim
      | @indirect _ earlier' _ _ base' hSame hBaseWords' _ hBase' _ hAbove =>
          cases hWords.symm.trans hSame
          have hSameResult : (chains.map fun words => (unplaced words).arg 2)[earlier]? =
              (chains.map fun words => (unplaced words).arg 2)[earlier']? := by
            rw [List.getElem?_map, List.getElem?_map, hBaseWords, hBaseWords', Option.map_some,
              Option.map_some, ← hBase, ← hBase']
          obtain ⟨hInside, -⟩ := List.getElem?_eq_some_iff.1 hBaseWords
          obtain rfl := (List.getElem?_inj (by rwa [List.length_map]) hDistinct).1 hSameResult
          exact ih hAbove

end Rooted

section FreshIds

variable {code : Code} {levels : List PrivateLevel} {id : UInt32} {words : List UInt32}

/-- The only types among the declarations are new pointers to levels. -/
theorem pointer_of_mem_declarations {ids : Nat → UInt32} (h : words ∈ declarations ids levels id)
    (hType : declaresType words = true) :
    (unplaced words).is Op.typePointer = true ∧
      ∃ level ∈ levels, (unplaced words).arg 3 = level.pointee := by
  rcases mem_declarations h with ⟨level, hLevel, -, rfl⟩ | ⟨depth, level, -, rfl⟩ | rfl
  · refine ⟨?_, level, hLevel, rfl⟩
    rw [is_encode]
    decide
  · have hConstant : declaresType (zeroConstant ids levels depth level) = false := by
      rw [zeroConstant]
      split <;> simp only [declaresType, is_encode] <;> decide
    cases hConstant.symm.trans hType
  · cases (filter_privateVariable ids levels id).1.symm.trans hType

theorem searchedIds_of_not_type (hType : declaresType words = false)
    (hInput : declaresInput words = false) : searchedIds words = [] := by
  have hNone := hType
  simp only [declaresType, Bool.or_eq_false_iff] at hType
  simp [searchedIds, hNone, hInput, hType]

theorem arg_one_mem_definedIds {listing : Listing} (h : words ∈ listing)
    (hType : declaresType words = true) : (unplaced words).arg 1 ∈ definedIds listing :=
  List.mem_append_left _ (List.mem_map_of_mem (List.mem_filter.2 ⟨h, hType⟩))

theorem arg_two_mem_definedIds {listing : Listing} (h : words ∈ listing)
    (hConstant : declaresConstant words = true) : (unplaced words).arg 2 ∈ definedIds listing :=
  List.mem_append_right _ (List.mem_map_of_mem (List.mem_filter.2 ⟨h, hConstant⟩))

/-- The declarations for an input take the fresh ids in order. -/
theorem definedIds_inputLevels {types : TypeTable} {ids : Nat → UInt32} {input : InputVariable}
    (hLevels : inputLevels types ids input ≠ []) (id : UInt32) :
    definedIds (declarations ids (inputLevels types ids input) id) =
      (List.range (freshIds (inputLevels types ids input))).map ids := by
  obtain ⟨pointee, storage, -, hWalk⟩ := inputLevels_eq hLevels
  apply definedIds_declarations
  rw [hWalk]
  exact newPointer_ids

variable (hIds : definedIds (declarations code.freshId levels id) =
    (List.range (freshIds levels)).map code.freshId)
  (hBound : code.bound.toNat + freshIds levels < UInt32.size)

include hIds hBound

/-- The ids of the declarations are new, and the only types among them are pointers. -/
theorem adds_of_mem_declarations (h : words ∈ declarations code.freshId levels id) :
    Adds code.bound words where
  type constants shape hShape := by
    have hType : declaresType words = true := by
      by_contra hNot
      rw [declaredShape?_eq_none (Bool.not_eq_true _ ▸ hNot)] at hShape
      cases hShape
    have hMem := arg_one_mem_definedIds h hType
    rw [hIds] at hMem
    refine ⟨bound_le_of_mem_freshIds hBound hMem, ?_⟩
    have hPointer := (pointer_of_mem_declarations h hType).1
    have hOther (opcode : UInt32) (hNe : Op.typePointer ≠ opcode) := is_eq_false hPointer hNe
    simp only [declaredShape?, hOther Op.typeFloat (by decide), hOther Op.typeInt (by decide),
      hOther Op.typeVector (by decide), hOther Op.typeArray (by decide), hPointer] at hShape
    cases hShape
    rfl
  constant hConstant := by
    have hMem := arg_two_mem_definedIds h (by simp [declaresConstant, hConstant])
    rw [hIds] at hMem
    exact bound_le_of_mem_freshIds hBound hMem

/-- All ids in the declarations that a search reads are below the new bound. -/
theorem searchedIds_lt_freshId (h : words ∈ declarations code.freshId levels id)
    (hLevels : ∀ level ∈ levels, level.pointee < code.bound) {searchedId : UInt32}
    (hMem : searchedId ∈ searchedIds words) :
    searchedId.toNat < code.bound.toNat + freshIds levels := by
  have hInput := (not_places_of_mem_declarations h).1
  cases hType : declaresType words with
  | false =>
      rw [searchedIds_of_not_type hType hInput] at hMem
      cases hMem
  | true =>
      obtain ⟨hPointer, level, hLevel, hPointee⟩ := pointer_of_mem_declarations h hType
      have hVector := is_eq_false hPointer (by decide : Op.typePointer ≠ Op.typeVector)
      have hArray := is_eq_false hPointer (by decide : Op.typePointer ≠ Op.typeArray)
      have hCases : searchedId = (unplaced words).arg 1 ∨ searchedId = (unplaced words).arg 3 := by
        simpa [searchedIds, hType, hPointer, hVector, hArray] using hMem
      rcases hCases with rfl | rfl
      · have hNew := arg_one_mem_definedIds h hType
        rw [hIds, List.mem_map] at hNew
        obtain ⟨count, hCount, hSame⟩ := hNew
        have hInside := List.mem_range.1 hCount
        rw [← hSame, toNat_freshId hBound hInside]
        omega
      · have hOld := UInt32.lt_iff_toNat_lt.1 (hLevels level hLevel)
        rw [hPointee]
        omega

end FreshIds

/-- In front of any other input, the removal adds new pointers to the recorded types and changes
none of them. -/
theorem Removed.typesBefore {ids : Nat → UInt32} {levels : List PrivateLevel} {types : TypeTable}
    {input : InputVariable} {before later listing result : Listing} {declaration : List UInt32}
    (h : Removed ids levels types input before declaration later listing result)
    {bound : UInt32} (hBelow : ∀ words ∈ listing, ∀ id ∈ searchedIds words, id < bound)
    (hAdds : ∀ words ∈ declarations ids levels input.id, Adds bound words)
    {id : UInt32} (hNe : id ≠ input.id) :
    (∀ typeId < bound,
      (result.typesBefore id).get? typeId = (listing.typesBefore id).get? typeId) ∧
    ∀ typeId shape, bound ≤ typeId → (result.typesBefore id).get? typeId = some shape →
      shape.size = 0 := by
  let others : List UInt32 → Bool := fun words =>
    !(declaresInput words && (unplaced words).arg 2 == id)
  have hSearched : result.typesBefore id =
      (before ++ (declarations ids levels input.id ++ later)).typesBefore id := by
    rw [← typesBefore_filter, filter_removal (keptKind_searched input.id) h.retyped,
      typesBefore_filter, List.append_assoc]
  have hInserted : (declarations ids levels input.id ++ later).takeWhile others =
      declarations ids levels input.id ++ later.takeWhile others := by
    apply List.takeWhile_append_of_pos
    intro words hMem
    simp [others, (not_places_of_mem_declarations hMem).1]
  have hDeclaration : (declaration :: later).takeWhile others =
      declaration :: later.takeWhile others := by
    apply List.takeWhile_cons_of_pos
    simp [others, ← h.id, hNe.symm]
  have hStart : InputScan.Extends bound {} {} := ⟨fun _ _ => rfl, fun _ _ => rfl, by simp⟩
  have hBefore : ∀ words ∈ before, ∀ id ∈ searchedIds words, id < bound := fun words hMem =>
    hBelow words (h.split ▸ List.mem_append_left _ hMem)
  have hLater : ∀ words ∈ later.takeWhile others, ∀ id ∈ searchedIds words, id < bound :=
    fun words hMem => hBelow words (h.split ▸ List.mem_append_right _
      (List.mem_cons_of_mem _ ((List.takeWhile_sublist _).subset hMem)))
  have hExtends : InputScan.Extends bound (InputScan.after 0 {} (listing.takeWhile others))
      (InputScan.after 0 {}
        ((before ++ (declarations ids levels input.id ++ later)).takeWhile others)) := by
    rw [h.split, List.takeWhile_append, List.takeWhile_append, hInserted, hDeclaration]
    -- The other variable stands behind the removed one or in front of it.
    split
    · rw [after_append, after_append, after_append]
      exact (((hStart.after hBefore).skip h.not_declares.1
        (is_eq_false h.opcode (by decide))).insertAll hAdds).after hLater
    · exact hStart.after fun words hMem =>
        hBefore words ((List.takeWhile_sublist _).subset hMem)
  rw [hSearched]
  exact ⟨hExtends.types, hExtends.added⟩

end ShaderBackend.Spirv
