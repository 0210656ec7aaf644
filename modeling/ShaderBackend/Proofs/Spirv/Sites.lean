import ShaderBackend.Proofs.Spirv.Remapping

/-! What a survey records, for every stream of words. The two maps of the second blend output are
filled in one pass in which later decorations overwrite earlier ones, and an id keeps the place of
its first location. What they select can be said without them, and without the order in which an id
gets its location and its index. -/
namespace ShaderBackend.Spirv

namespace Instruction

/-- Whether the instruction puts some id at location one. -/
def locatesOne (ins : Instruction) : Bool :=
  ins.decorates Decoration.location && ins.arg 3 == 1

/-- Whether the instruction gives some id an index. -/
def indexes (ins : Instruction) : Bool := ins.decorates Decoration.index

end Instruction

/-- Whether an id has a location of one and an index, wherever in the stream they stand. -/
def BlendsSecond (stream : List Instruction) (id : UInt32) : Prop :=
  (∃ ins ∈ stream, ins.locatesOne = true ∧ ins.arg 1 = id) ∧
    ∃ ins ∈ stream, ins.indexes = true ∧ ins.arg 1 = id

/-- The id of the second blend output and the decorations that count for it. Of the ids with
both decorations it is the one whose first location of one stands in front of the others', and of
its own decorations the last ones count. -/
structure SecondBlendOutput (stream : List Instruction) (id : UInt32)
    (located indexed : Instruction) : Prop where
  located : (stream.filter fun ins => ins.locatesOne && ins.arg 1 == id).getLast? = some located
  indexed : (stream.filter fun ins => ins.indexes && ins.arg 1 == id).getLast? = some indexed
  earliest : ∃ first, (stream.find? fun ins => ins.locatesOne && ins.arg 1 == id) = some first ∧
    ∀ other, other ≠ id → BlendsSecond stream other →
      ∀ ins ∈ stream, ins.locatesOne = true → ins.arg 1 = other → first.offset < ins.offset

section Selection

variable {stream : List Instruction} {id : UInt32}

theorem filterMap_ite {α β : Type} (p : α → Bool) (f : α → β) (list : List α) :
    (list.filterMap fun a => if p a then some (f a) else none) = (list.filter p).map f := by
  induction list with
  | nil => rfl
  | cons a list ih => cases hp : p a <;> simp [hp, ih]

theorem filterMap_locationOne? (stream : List Instruction) :
    stream.filterMap Instruction.locationOne? =
      (stream.filter (·.locatesOne)).map fun ins => (ins.arg 1, ins.decorationLiteral) :=
  filterMap_ite Instruction.locatesOne _ stream

theorem filterMap_blendIndex? (stream : List Instruction) :
    stream.filterMap Instruction.blendIndex? =
      (stream.filter (·.indexes)).map fun ins => (ins.arg 1, ins.decorationLiteral) :=
  filterMap_ite Instruction.indexes _ stream

/-- The literal that a map of decorations holds for an id is that of the last one. -/
theorem get?_ofList_decorations (p : Instruction → Bool) (stream : List Instruction)
    (id : UInt32) :
    (OrderedMap.ofList
        ((stream.filter p).map fun ins => (ins.arg 1, ins.decorationLiteral))).get? id =
      (stream.filter fun ins => p ins && ins.arg 1 == id).getLast?.map (·.decorationLiteral) := by
  have hSame (ins : Instruction) :
      (decide (ins.arg 1 = id) && p ins) = (p ins && ins.arg 1 == id) := Bool.and_comm ..
  rw [OrderedMap.get?_ofList, List.filter_map, List.getLast?_map, Option.map_map,
    List.filter_filter]
  exact congrArg (fun list : List Instruction => list.getLast?.map (·.decorationLiteral))
    (List.filter_congr fun ins _ => hSame ins)

theorem isSome_get?_ofList_decorations {p : Instruction → Bool} :
    ((OrderedMap.ofList
        ((stream.filter p).map fun ins => (ins.arg 1, ins.decorationLiteral))).get? id).isSome =
      true ↔ ∃ ins ∈ stream, p ins = true ∧ ins.arg 1 = id := by
  rw [get?_ofList_decorations, Option.isSome_map, List.getLast?_isSome, ne_eq,
    List.filter_eq_nil_iff]
  simp

/-- The ids at location one are searched in the order of their first location. -/
theorem find?_keys_locations (p : UInt32 → Bool) (stream : List Instruction) :
    (OrderedMap.ofList (stream.filterMap Instruction.locationOne?)).keys.find? p =
      (stream.find? fun ins => ins.locatesOne && p (ins.arg 1)).map (·.arg 1) := by
  rw [OrderedMap.find?_keys_ofList, filterMap_locationOne?, List.map_map, List.find?_map,
    List.find?_filter]
  simp only [Function.comp_def, Bool.decide_and, Bool.decide_eq_true]

/-- The first instruction of all that puts an id with an index at location one is also the first
one for its own id, and the others stand behind it. -/
theorem earliest_of_find?
    (hOffsets : stream.Pairwise fun first second => first.offset < second.offset)
    {p : UInt32 → Bool}
    (hp : ∀ id, p id = true ↔ ∃ ins ∈ stream, ins.indexes = true ∧ ins.arg 1 = id)
    {first : Instruction}
    (h : (stream.find? fun ins => ins.locatesOne && p (ins.arg 1)) = some first) :
    (stream.find? fun ins => ins.locatesOne && ins.arg 1 == first.arg 1) = some first ∧
      ∀ other, other ≠ first.arg 1 → BlendsSecond stream other →
        ∀ ins ∈ stream, ins.locatesOne = true → ins.arg 1 = other → first.offset < ins.offset := by
  obtain ⟨hFirst, before, after, hSplit, hBefore⟩ := List.find?_eq_some_iff_append.1 h
  rw [Bool.and_eq_true] at hFirst
  refine ⟨List.find?_eq_some_iff_append.2 ⟨by simp [hFirst.1], before, after, hSplit, ?_⟩, ?_⟩
  · intro ins hIns
    have hNot := hBefore ins hIns
    by_contra hFinds
    simp only [Bool.not_eq_true', Bool.not_eq_false, Bool.and_eq_true, beq_iff_eq] at hFinds
    rw [hFinds.1, hFinds.2, hFirst.2] at hNot
    cases hNot
  · rintro other hOther hBlends ins hIns hLocates rfl
    rw [hSplit, List.mem_append, List.mem_cons] at hIns
    rcases hIns with hIns | rfl | hIns
    · have hNot := hBefore ins hIns
      rw [hLocates, (hp _).2 hBlends.2] at hNot
      cases hNot
    · exact absurd rfl hOther
    · rw [hSplit] at hOffsets
      exact (List.pairwise_cons.1 (List.pairwise_append.1 hOffsets).2.1).1 ins hIns

/-- The selection finds the second blend output and its literals. -/
theorem exists_secondBlendOutput
    (hOffsets : stream.Pairwise fun first second => first.offset < second.offset)
    {location index : Nat} (h : secondBlendOutput? stream = some (location, index)) :
    ∃ id located indexed, SecondBlendOutput stream id located indexed ∧
      location = located.decorationLiteral ∧ index = indexed.decorationLiteral := by
  obtain ⟨id, hFirst, hLocation, hIndex⟩ :=
    OrderedMap.exists_of_findSome?_entries (OrderedMap.nodup_keys_ofList _) h
  rw [find?_keys_locations] at hFirst
  obtain ⟨first, hFind, rfl⟩ := Option.map_eq_some_iff.1 hFirst
  rw [filterMap_locationOne?, get?_ofList_decorations] at hLocation
  rw [filterMap_blendIndex?] at hFind hIndex
  rw [get?_ofList_decorations] at hIndex
  obtain ⟨located, hLocated, hLocationOffset⟩ := Option.map_eq_some_iff.1 hLocation
  obtain ⟨indexed, hIndexed, hIndexOffset⟩ := Option.map_eq_some_iff.1 hIndex
  exact ⟨first.arg 1, located, indexed, ⟨hLocated, hIndexed, first, earliest_of_find? hOffsets
    (fun id => isSome_get?_ofList_decorations) hFind⟩, hLocationOffset.symm, hIndexOffset.symm⟩

/-- Nothing is selected only if no id has both decorations. -/
theorem not_blendsSecond (h : secondBlendOutput? stream = none) (id : UInt32) :
    ¬BlendsSecond stream id := by
  rintro ⟨⟨located, hLocated, hLocates, rfl⟩, hIndexed⟩
  have hKey : located.arg 1 ∈
      (OrderedMap.ofList (stream.filterMap Instruction.locationOne?)).keys := by
    rw [OrderedMap.mem_keys_ofList, filterMap_locationOne?, List.map_map]
    exact List.mem_map.2 ⟨located, List.mem_filter.2 ⟨hLocated, hLocates⟩, rfl⟩
  obtain ⟨entry, hEntry, hSame⟩ := List.mem_map.1 hKey
  have hNone := Option.map_eq_none_iff.1 (List.findSome?_eq_none_iff.1 h entry hEntry)
  have hSome := isSome_get?_ofList_decorations.2 hIndexed
  rw [← filterMap_blendIndex?, ← hSame, hNone] at hSome
  cases hSome

end Selection

namespace Survey

/-- The offsets of all sites: those of the slots, then those of the second blend output. -/
theorem map_offset_sites (code : Code) :
    (ofCode code).sites.map (·.offset) = (ofCode code).slotOffsets ++
      match secondBlendOutput? code.instructions with
      | some (location, index) => [location, index]
      | none => [] := by
  have hSlots : (code.instructions.filterMap Instruction.site?).filter (fun site =>
      site.kind = .bindingId || site.kind = .specConstantId) =
        code.instructions.filterMap Instruction.site? := by
    rw [List.filter_eq_self]
    intro site hSite
    obtain ⟨ins, -, hSome⟩ := List.mem_filterMap.1 hSite
    simpa using (Instruction.of_site?_eq_some hSome).2.2
  rw [slotOffsets_ofCode, ← filter_sites, hSlots, ofCode, List.map_append]
  cases secondBlendOutput? code.instructions <;> rfl

/-- No two sites share an offset. -/
theorem nodup_map_offset_sites (code : Code) : ((ofCode code).sites.map (·.offset)).Nodup := by
  rw [map_offset_sites]
  cases hPair : secondBlendOutput? code.instructions with
  | none => simpa using nodup_slotOffsets code
  | some pair =>
      obtain ⟨hNe, hLocation, hIndex⟩ := secondBlendOutput?_distinct hPair
      refine List.nodup_append.2 ⟨nodup_slotOffsets code, by simpa using hNe, ?_⟩
      intro offset hOffset other hOther hSame
      subst hSame
      simp only [List.mem_cons, List.not_mem_nil, or_false] at hOther
      rcases hOther with rfl | rfl
      · exact hLocation hOffset
      · exact hIndex hOffset

/-- A survey records the literals of exactly the binding and specialization constant decorations,
in stream order, and those of the second blend output if some id is one. It never records only one
of the two, and no offset twice. -/
theorem ofCode_records (code : Code) :
    let stream := code.instructions
    let survey := ofCode code
    let slots := stream.filterMap Instruction.site?
    survey.slotOffsets = (stream.filter (·.bindsSlot)).map (·.offset + 3) ∧
    survey.slotOffsets.Pairwise (· < ·) ∧
    ((∃ id located indexed, SecondBlendOutput stream id located indexed ∧
        survey.sites = slots ++
          [⟨.outputLocation1, located.offset + 3⟩, ⟨.outputIndex1, indexed.offset + 3⟩] ∧
        survey.offset? .outputLocation1 = some (located.offset + 3) ∧
        survey.offset? .outputIndex1 = some (indexed.offset + 3)) ∨
      (∀ id, ¬BlendsSecond stream id) ∧ survey.sites = slots ∧
        survey.offset? .outputLocation1 = none ∧ survey.offset? .outputIndex1 = none) ∧
    (survey.sites.map (·.offset)).Nodup := by
  intro stream survey slots
  refine ⟨slotOffsets_ofCode code, pairwise_slotOffsets code, ?_, nodup_map_offset_sites code⟩
  obtain ⟨hLocation, hIndex⟩ := offset?_ofCode code
  have hSites : survey.sites = slots ++ match secondBlendOutput? stream with
      | some (location, index) => [⟨.outputLocation1, location⟩, ⟨.outputIndex1, index⟩]
      | none => [] := rfl
  cases hPair : secondBlendOutput? stream with
  | some pair =>
      obtain ⟨location, index⟩ := pair
      obtain ⟨id, located, indexed, hOutput, rfl, rfl⟩ :=
        exists_secondBlendOutput code.pairwise_offset hPair
      rw [hPair] at hLocation hIndex hSites
      exact Or.inl ⟨id, located, indexed, hOutput, hSites, hLocation, hIndex⟩
  | none =>
      rw [hPair] at hLocation hIndex hSites
      exact Or.inr ⟨not_blendsSecond hPair, by rw [hSites, List.append_nil], hLocation, hIndex⟩

end Survey

end ShaderBackend.Spirv
