import ShaderBackend.Proofs.Spirv.Frame

/-! Two modules compared at one variable. Either everything about the variable is the same, or an
input has become a private variable. Both comparisons go through further removals, so that it is
enough to look at one of them. -/
namespace ShaderBackend.Spirv

/-- What removals keep of a module as a whole. -/
structure Evolves (listing result : Listing) : Prop where
  chains : result.chains.map chainShape = listing.chains.map chainShape
  types : ∀ typeId shape, HasType listing typeId shape → HasType result typeId shape

/-- A variable that is the same in both modules: its declaration, its locations, how often each
entry point lists it, and the words of each access chain below it. -/
structure Keeps (listing result : Listing) (id : UInt32) : Prop where
  declaration : result.variablesOf id = listing.variablesOf id
  locations : result.locationsOf id = listing.locationsOf id
  interfaces : result.interfaces.map (·.count id) = listing.interfaces.map (·.count id)
  chains : ∀ index depth, Rooted id listing.chains (fun _ => True) index depth →
    result.chains[index]? = listing.chains[index]?

/-- An input that is a private variable in the second module. It has no location, every entry
point lists it one time less, and each access chain below it has a private pointer to the type
that lies as deep below the pointee. -/
structure Privatized (types : TypeTable) (pointee : UInt32) (listing result : Listing)
    (id : UInt32) : Prop where
  declaration : ∃ pointer initializer,
    HasType result pointer (.pointer pointee Storage.privateClass) ∧
    result.variablesOf id =
      [encode Op.declareVariable [pointer, id, Storage.privateClass, initializer]]
  locations : result.locationsOf id = []
  interfaces : result.interfaces.map (·.count id) = listing.interfaces.map (·.count id - 1)
  chains : ∀ index depth words, Rooted id listing.chains (fun _ => True) index depth →
    listing.chains[index]? = some words →
    ∃ pointer, result.chains[index]? = some (words.set 1 pointer) ∧
      HasType result pointer (.pointer (elementType types pointee depth) Storage.privateClass)

section Composition

variable {listing middle result : Listing} {id pointee : UInt32} {types types' : TypeTable}

theorem Evolves.refl (listing : Listing) : Evolves listing listing := ⟨rfl, fun _ _ h => h⟩

theorem Evolves.trans (h : Evolves listing middle) (h' : Evolves middle result) :
    Evolves listing result where
  chains := h'.chains.trans h.chains
  types typeId shape hType := h'.types typeId shape (h.types typeId shape hType)

theorem Keeps.refl (listing : Listing) (id : UInt32) : Keeps listing listing id :=
  ⟨rfl, rfl, rfl, fun _ _ _ => rfl⟩

/-- What both steps keep is kept. The chains of the middle module have the same results and bases as
the first one's, so that a chain below the variable is one in both. -/
theorem Keeps.trans (hEvolves : Evolves listing middle) (h : Keeps listing middle id)
    (h' : Keeps middle result id) : Keeps listing result id where
  declaration := h'.declaration.trans h.declaration
  locations := h'.locations.trans h.locations
  interfaces := h'.interfaces.trans h.interfaces
  chains index depth hRooted :=
    (h'.chains index depth (hRooted.of_map_chainShape hEvolves.chains)).trans
      (h.chains index depth hRooted)

/-- The removal of a variable that was the same before. -/
theorem Keeps.privatized (hEvolves : Evolves listing middle) (h : Keeps listing middle id)
    (h' : Privatized types pointee middle result id) :
    Privatized types pointee listing result id where
  declaration := h'.declaration
  locations := h'.locations
  interfaces := by
    have hCounts := congrArg (List.map (· - 1)) h.interfaces
    rw [List.map_map, List.map_map] at hCounts
    exact h'.interfaces.trans hCounts
  chains index depth words hRooted hWords :=
    h'.chains index depth words (hRooted.of_map_chainShape hEvolves.chains)
      ((h.chains index depth hRooted).trans hWords)

/-- A removed variable that is the same afterwards. -/
theorem Privatized.keeps (hEvolves : Evolves listing middle) (hLater : Evolves middle result)
    (h : Privatized types pointee listing middle id) (h' : Keeps middle result id) :
    Privatized types pointee listing result id where
  declaration := by
    obtain ⟨pointer, initializer, hType, hVariable⟩ := h.declaration
    exact ⟨pointer, initializer, hLater.types _ _ hType, h'.declaration.trans hVariable⟩
  locations := h'.locations.trans h.locations
  interfaces := h'.interfaces.trans h.interfaces
  chains index depth words hRooted hWords := by
    obtain ⟨pointer, hChain, hType⟩ := h.chains index depth words hRooted hWords
    have hSame := h'.chains index depth (hRooted.of_map_chainShape hEvolves.chains)
    exact ⟨pointer, hSame.trans hChain, hLater.types _ _ hType⟩

/-- Only the types below the pointee matter, so tables that agree on them may be exchanged. -/
theorem Privatized.congr (h : Privatized types pointee listing result id)
    (hTypes : ∀ depth, elementType types pointee depth = elementType types' pointee depth) :
    Privatized types' pointee listing result id where
  declaration := h.declaration
  locations := h.locations
  interfaces := h.interfaces
  chains index depth words hRooted hWords := by
    rw [← hTypes depth]
    exact h.chains index depth words hRooted hWords

/-- A variable cannot be an input and private. -/
theorem Privatized.not_keeps (h : Privatized types pointee listing result id)
    {input : List UInt32} (hMem : input ∈ listing.variablesOf id)
    (hInput : declaresInput input = true) : ¬Keeps listing result id := by
  intro hKeeps
  obtain ⟨pointer, initializer, -, hVariable⟩ := h.declaration
  rw [← hKeeps.declaration, hVariable, List.mem_singleton] at hMem
  rw [hMem] at hInput
  cases hInput.symm.trans (Bool.and_false _)

end Composition

/-- Variables and access chains have ids of their own. -/
def DistinctIds (listing : Listing) : Prop :=
  (listing.variableIds ++ listing.chains.map fun words => (unplaced words).arg 2).Nodup

instance : DecidablePred DistinctIds := fun listing =>
  inferInstanceAs (Decidable
    (listing.variableIds ++ listing.chains.map fun words => (unplaced words).arg 2).Nodup)

section DistinctIds

variable {listing : Listing} {id : UInt32}

theorem DistinctIds.variableIds (h : DistinctIds listing) : listing.variableIds.Nodup :=
  (List.nodup_append.1 h).1

theorem DistinctIds.chains (h : DistinctIds listing) :
    (listing.chains.map fun words => (unplaced words).arg 2).Nodup := (List.nodup_append.1 h).2.1

/-- No access chain has a variable as its result. -/
theorem DistinctIds.chains_ne (h : DistinctIds listing) (hMem : id ∈ listing.variableIds) :
    ∀ words ∈ listing.chains, (unplaced words).arg 2 ≠ id := by
  intro words hWords hSame
  exact (List.nodup_append.1 h).2.2 _ hMem _ (List.mem_map_of_mem hWords) hSame.symm

end DistinctIds

namespace Removed

variable {ids : Nat → UInt32} {levels : List PrivateLevel} {types : TypeTable}
  {input : InputVariable} {before later listing result : Listing} {declaration : List UInt32}
  {id : UInt32}

theorem id_mem (h : Removed ids levels types input before declaration later listing result) :
    input.id ∈ listing.variableIds := by
  rw [Listing.variableIds, h.declaredVariables.1, h.id]
  simp

theorem evolves (h : Removed ids levels types input before declaration later listing result)
    (hDistinct : DistinctIds listing) : Evolves listing result where
  chains := (h.retypedFrom hDistinct.chains).map_chainShape
  types _ _ := h.hasType

/-- The removal keeps all other variables. An access chain below another variable is not below
the input, since no chain has either of them as its result. -/
theorem keeps (h : Removed ids levels types input before declaration later listing result)
    (hDistinct : DistinctIds listing) (hMem : id ∈ listing.variableIds) (hNe : id ≠ input.id) :
    Keeps listing result id where
  declaration := h.variablesOf_of_ne hNe
  locations := h.locationsOf_of_ne hNe
  interfaces := by
    rw [h.interfaces, List.map_map, List.map_inj_left]
    intro interface _
    exact List.count_erase_of_ne hNe
  chains index depth hRooted := by
    obtain ⟨words, hWords⟩ := hRooted.exists_getElem?
    obtain ⟨words', hWords', -, hOther⟩ :=
      (h.retypedFrom hDistinct.chains).exists_getElem? hWords
    rw [Nat.zero_add] at hOther
    have hNot (other : Nat) : ¬Rooted input.id listing.chains (· ≠ input.id) index other := by
      intro hInput
      rw [← rooted_iff_of_forall_ne (hDistinct.chains_ne h.id_mem)] at hInput
      exact hNe (Rooted.unique hDistinct.chains (hDistinct.chains_ne hMem)
        (hDistinct.chains_ne h.id_mem) hRooted hInput)
    rw [hWords', hWords, hOther hNot]

/-- The removal makes the input private. -/
theorem privatized
    (h : Removed ids (inputLevels types ids input) types input before declaration later listing
      result)
    (hLevels : inputLevels types ids input ≠ []) (hDistinct : DistinctIds listing)
    (hOne : (listing.locationsOf input.id).length ≤ 1) {pointee storage : UInt32}
    (hType : types.get? input.typeId = some (.pointer pointee storage)) :
    Privatized types pointee listing result input.id where
  declaration := by
    obtain ⟨outermost, inner, hCons⟩ := List.exists_cons_of_ne_nil hLevels
    have hOutermost : (inputLevels types ids input)[0]? = some outermost := by rw [hCons]; rfl
    have hRoot : outermost.pointee = pointee := inputLevels_pointee hType hOutermost
    refine ⟨outermost.pointer, constantId ids (inputLevels types ids input) 0, ?_, ?_⟩
    · rw [← hRoot]
      exact h.hasType_pointer (List.mem_of_getElem? hOutermost)
    · rw [← privateVariable_eq ids hOutermost]
      exact (h.variablesOf_self hDistinct.variableIds).2
  locations := by
    rw [h.locationsOf_self, ← List.length_eq_zero_iff, List.length_tail]
    omega
  interfaces := by
    rw [h.interfaces, List.map_map, List.map_inj_left]
    intro interface _
    exact List.count_erase_self
  chains index depth words hRooted hWords := by
    obtain ⟨words', hWords', hPointer, -⟩ :=
      (h.retypedFrom hDistinct.chains).exists_getElem? hWords
    rw [Nat.zero_add] at hPointer
    obtain ⟨level, hLevel, rfl⟩ :=
      hPointer depth ((rooted_iff_of_forall_ne (hDistinct.chains_ne h.id_mem) _ _).1 hRooted)
    refine ⟨level.pointer, hWords', ?_⟩
    rw [← inputLevels_pointee hType hLevel]
    exact h.hasType_pointer (List.mem_of_getElem? hLevel)

end Removed

end ShaderBackend.Spirv
