import ShaderBackend.Proofs.Spirv.Sites

/-! Where a specialization reads and writes before it removes inputs. A survey takes the word behind
target and decoration for the literal and does not look at the length of the decoration. If the
literal has been cut off, its site is the word behind the instruction: the opening word of the next
one, a word that no instruction covers, or no word of the stream at all. -/
namespace ShaderBackend.Spirv

theorem Code.offset_add_lt_length {code : Code} {ins : Instruction} (h : ins ∈ code.instructions)
    {index : Nat} (hIndex : index < ins.length) : ins.offset + index < code.length :=
  (List.getElem?_eq_some_iff.1 (Code.word?_of_mem h hIndex)).1

/-- The opening word of an instruction announces its length, which is not zero. -/
theorem Code.announcedLength_of_mem {code : Code} {ins : Instruction}
    (h : ins ∈ code.instructions) :
    announcedLength (ins.arg 0) = ins.length ∧ 0 < ins.length := by
  obtain ⟨listing, tail, hSized, -, -, hPlaced⟩ := code.exists_place
  have hMem : ins.words ∈ listing := by
    rw [← map_words_place code.layout.start listing, ← hPlaced]
    exact List.mem_map_of_mem h
  obtain ⟨offset, words⟩ := ins
  cases words with
  | nil => exact (hSized _ hMem).elim
  | cons opening operands => exact ⟨hSized _ hMem, Nat.succ_pos _⟩

theorem Instruction.of_decorates {ins : Instruction} {decoration : UInt32}
    (h : ins.decorates decoration = true) (hNe : decoration ≠ 0) :
    ins.is Op.decorate = true ∧ 3 ≤ ins.length := by
  simp only [decorates, Bool.and_eq_true, beq_iff_eq] at h
  exact ⟨h.1, lt_length_of_arg_ne_zero (h.2 ▸ hNe)⟩

/-- An opening word is larger than every slot, so no slot is read from it. -/
theorem finalId?_of_announcedLength_pos (bindings : Bindings) {word : UInt32}
    (h : 0 < announcedLength word) : finalId? bindings word = some word := by
  rw [announcedLength_eq] at h
  have hLimit : slotLimit.toNat = 1216 := rfl
  have hLarge : ¬word < slotLimit := by
    rw [UInt32.lt_iff_toNat_lt, hLimit]
    omega
  rw [finalId?, if_neg hLarge]

namespace Survey

variable {code : Code} {position : Nat}

theorem mem_map_offset_sites :
    position ∈ (ofCode code).sites.map (·.offset) ↔
      position ∈ (ofCode code).slotOffsets ∨
        ∃ location index, secondBlendOutput? code.instructions = some (location, index) ∧
          (position = location ∨ position = index) := by
  rw [map_offset_sites, List.mem_append]
  cases secondBlendOutput? code.instructions with
  | none => simp
  | some pair => simp [Prod.ext_iff]

/-- Every site was recorded for a decoration that has a target and a decoration at least. -/
theorem exists_decoration (h : position ∈ (ofCode code).sites.map (·.offset)) :
    ∃ ins ∈ code.instructions, ins.is Op.decorate = true ∧ position = ins.offset + 3 ∧
      3 ≤ ins.length := by
  have hDecorates : ∃ ins ∈ code.instructions, position = ins.offset + 3 ∧
      ∃ decoration, decoration ≠ 0 ∧ ins.decorates decoration = true := by
    rcases mem_map_offset_sites.1 h with hOffset | ⟨location, index, hPair, hPosition⟩
    · obtain ⟨ins, hMem, hSlot, hPosition⟩ := mem_slotOffsets_iff.1 hOffset
      rcases Bool.or_eq_true_iff.1 hSlot with hBinding | hConstant
      · exact ⟨ins, hMem, hPosition, _, by decide, hBinding⟩
      · exact ⟨ins, hMem, hPosition, _, by decide, hConstant⟩
    · obtain ⟨located, hLocated, indexed, hIndexed, hLocates, -, hIndexes, -, rfl, rfl⟩ :=
        secondBlendOutput?_eq_some hPair
      rcases hPosition with hLocation | hIndex
      · exact ⟨located, hLocated, hLocation, _, by decide, hLocates⟩
      · exact ⟨indexed, hIndexed, hIndex, _, by decide, hIndexes⟩
  obtain ⟨ins, hMem, hPosition, decoration, hNe, hDecorates⟩ := hDecorates
  obtain ⟨hOpcode, hLength⟩ := Instruction.of_decorates hDecorates hNe
  exact ⟨ins, hMem, hOpcode, hPosition, hLength⟩

/-- A site is a word of the template or the place right behind the last one. -/
theorem le_length_of_mem_sites (h : position ∈ (ofCode code).sites.map (·.offset)) :
    position ≤ code.length := by
  obtain ⟨ins, hMem, -, rfl, hLength⟩ := exists_decoration h
  exact Code.offset_add_lt_length hMem hLength

theorem eq_length_of_word?_eq_none (h : position ∈ (ofCode code).sites.map (·.offset))
    (hNone : code.word? position = none) : position = code.length :=
  Nat.le_antisymm (le_length_of_mem_sites h) (List.getElem?_eq_none_iff.1 hNone)

end Survey

section Specialize

variable {code result : Code} {bindings : Bindings} {dual : Bool}

/-- A specialization without removals leaves the stream only at a site behind its last word. -/
theorem exists_site_of_outsideCode {offset : Nat}
    (h : specialize code (.ofCode code) bindings { dualSourceBlend := dual } =
      .error (.outsideCode offset)) :
    code.length ∈ (Survey.ofCode code).sites.map (·.offset) := by
  rcases specialize_cases code bindings dual with
    ⟨slot, hSlot, -, hError⟩ | ⟨location, index, hPair, hOutside, -⟩ | ⟨-, -, result, hOk, -⟩
  · have hSite := Survey.mem_map_offset_sites.2 (Or.inl hSlot)
    rw [hError, remapError] at h
    split at h
    · cases h
    · rename_i hNone
      exact Survey.eq_length_of_word?_eq_none hSite hNone ▸ hSite
  · rw [exchangedPair?, Option.ite_none_right_eq_some] at hPair
    have hSite := Survey.mem_map_offset_sites.2 (Or.inr ⟨location, index, hPair.2, Or.inr rfl⟩)
    exact Survey.eq_length_of_word?_eq_none hSite hOutside ▸ hSite
  · cases hOk.symm.trans h

/-- If some site lies behind the last word, specializations for two blend sources leave the stream
once all slots have final ids. -/
theorem exists_outsideCode (h : code.length ∈ (Survey.ofCode code).sites.map (·.offset)) :
    ∃ offset, specialize code (.ofCode code) (fun _ => some 0) { dualSourceBlend := true } =
      .error (.outsideCode offset) := by
  have hOutside : ¬(code.word? code.length).isSome := by
    rw [Code.word?, isSome_getElem?]
    exact Nat.lt_irrefl _
  -- These bindings know every slot, so remapping can end only where a word is missing.
  rcases specialize_cases code (fun _ => some 0) true with
    ⟨slot, hSlot, hLiteral, hError⟩ | ⟨location, index, -, -, hError⟩ | ⟨hSlots, hIndex, -⟩
  · cases hWord : code.word? slot with
    | none => exact ⟨slot, by rw [hError, remapError, hWord]⟩
    | some word =>
        rw [hWord, Option.bind_some, finalId?_eq_none_iff] at hLiteral
        cases hLiteral.2
  · exact ⟨index, hError⟩
  · rcases Survey.mem_map_offset_sites.1 h with hSlot | ⟨location, index, hPair, rfl | rfl⟩
    · exact absurd (hSlots _ hSlot) hOutside
    · rw [word?_outputLocation hPair] at hOutside
      exact absurd rfl hOutside
    · exact absurd (hIndex location _ hPair) hOutside

/-- What a specialization without removals has written is known word by word. -/
theorem word?_of_specialize
    (h : specialize code (.ofCode code) bindings { dualSourceBlend := dual } = .ok result)
    (position : Nat) :
    result.word? position =
      remappedWord? code bindings (tradePlaces (exchangedPair? code dual) position) := by
  rcases specialize_cases code bindings dual with
    ⟨slot, -, -, hError⟩ | ⟨location, index, -, -, hError⟩ | ⟨-, -, written, hOk, -, -, hWords⟩
  · cases h.symm.trans hError
  · cases h.symm.trans hError
  · cases h.symm.trans hOk
    exact hWords position

/-- Only words at sites are changed. -/
theorem mem_sites_of_word?_ne
    (h : specialize code (.ofCode code) bindings { dualSourceBlend := dual } = .ok result)
    {position : Nat} (hChanged : result.word? position ≠ code.word? position) :
    position ∈ (Survey.ofCode code).sites.map (·.offset) := by
  by_contra hFree
  rw [Survey.mem_map_offset_sites, not_or] at hFree
  refine hChanged (word?_other (word?_of_specialize h) ?_ ?_)
  · exact fun ins hMem hSlot hSame => hFree.1 (mem_slotOffsets_iff.2 ⟨ins, hMem, hSlot, hSame⟩)
  · intro location index hPair
    exact ⟨fun hSame => hFree.2 ⟨location, index, hPair, Or.inl hSame⟩,
      fun hSame => hFree.2 ⟨location, index, hPair, Or.inr hSame⟩⟩

/-- The word behind a decoration that has been cut short is changed in two cases: the exchange
takes it for an index, or no instruction begins there. Remapping alone spares the opening words. -/
theorem index_or_uncovered
    (h : specialize code (.ofCode code) bindings { dualSourceBlend := dual } = .ok result)
    {ins : Instruction} (hMem : ins ∈ code.instructions) (hLength : ins.length = 3)
    (hChanged : result.word? (ins.offset + 3) ≠ code.word? (ins.offset + 3)) :
    (dual = true ∧ (Survey.ofCode code).offset? .outputIndex1 = some (ins.offset + 3)) ∨
      ∀ next ∈ code.instructions, next.offset ≠ ins.offset + 3 := by
  rcases Survey.mem_map_offset_sites.1 (mem_sites_of_word?_ne h hChanged) with
    hSlot | ⟨location, index, hPair, hSame | hSame⟩
  -- An opening word would be taken for a final id and stay.
  · refine Or.inr fun next hNext hOffset => hChanged ?_
    obtain ⟨hAnnounced, hPositive⟩ := Code.announcedLength_of_mem hNext
    have hWord : code.word? (ins.offset + 3) = some (next.arg 0) :=
      hOffset ▸ Code.word?_of_mem hNext hPositive
    rw [word?_of_specialize h, tradePlaces_of_mem_slotOffsets hSlot, remappedWord?, if_pos hSlot,
      hWord, Option.bind_some, finalId?_of_announcedLength_pos bindings (hAnnounced ▸ hPositive)]
  -- A location of one has its literal.
  · obtain ⟨located, hLocated, -, -, -, hOne, -, -, hLiteral, -⟩ := secondBlendOutput?_eq_some hPair
    obtain rfl := decorationLiteral_inj hMem hLocated (hSame.trans hLiteral)
    have hLong : 3 < ins.length := Instruction.lt_length_of_arg_ne_zero (by rw [hOne]; decide)
    omega
  · have hIndex := (Survey.offset?_ofCode code).2
    rw [hPair, Option.map_some, ← hSame] at hIndex
    cases dual with
    | true => exact Or.inl ⟨rfl, hIndex⟩
    | false =>
        refine absurd ?_ hChanged
        rw [word?_of_specialize h, hSame]
        exact if_neg (secondBlendOutput?_distinct hPair).2.2

/-- The exchange leaves a one at the index, and a one opens no instruction. -/
theorem word?_index_of_specialize
    (h : specialize code (.ofCode code) bindings { dualSourceBlend := true } = .ok result)
    {index : Nat} (hIndex : (Survey.ofCode code).offset? .outputIndex1 = some index) :
    result.word? index = some 1 ∧ ∀ ins ∈ result.instructions, ins.offset ≠ index := by
  rw [(Survey.offset?_ofCode code).2] at hIndex
  obtain ⟨pair, hPair, rfl⟩ := Option.map_eq_some_iff.1 hIndex
  have hOne : result.word? pair.2 = some 1 :=
    (word?_blend (word?_of_specialize h) hPair).2.trans (word?_outputLocation hPair)
  refine ⟨hOne, ?_⟩
  intro ins hMem hOffset
  obtain ⟨hAnnounced, hPositive⟩ := Code.announcedLength_of_mem hMem
  rw [← hOffset, ← Nat.add_zero ins.offset, Code.word?_of_mem hMem hPositive,
    Option.some.injEq] at hOne
  rw [hOne] at hAnnounced
  exact absurd (hAnnounced.symm.trans rfl) (Nat.ne_of_gt hPositive)

/-- A site lies inside the decoration it was recorded for if that has more than three words, and
right behind it otherwise. A specialization leaves the stream for some bindings exactly if a site
lies behind the last word. It changes words at sites only; those that are no operands of a
decoration are the index of the exchange, for which the next instruction is lost, and words that no
instruction begins with. -/
theorem specialize_writes (code : Code) :
    let survey := Survey.ofCode code
    let specialized := fun bindings dual =>
      specialize code survey bindings { dualSourceBlend := dual }
    (∀ site ∈ survey.sites, ∃ ins ∈ code.instructions, ins.is Op.decorate = true ∧
      site.offset = ins.offset + 3 ∧ 3 ≤ ins.length ∧
      (site.offset < ins.offset + ins.length ↔ ins.length ≠ 3)) ∧
    ((∃ bindings dual offset, specialized bindings dual = .error (.outsideCode offset)) ↔
      ∃ site ∈ survey.sites, site.offset = code.length) ∧
    (∀ bindings dual result, specialized bindings dual = .ok result →
      ∀ position, result.word? position ≠ code.word? position →
        ∃ ins ∈ code.instructions, ins.is Op.decorate = true ∧ position = ins.offset + 3 ∧
          (∃ site ∈ survey.sites, site.offset = position) ∧
          (position < ins.offset + ins.length ∨
            (dual = true ∧ survey.offset? .outputIndex1 = some position) ∨
            ∀ next ∈ code.instructions, next.offset ≠ position)) ∧
    ∀ bindings result, specialized bindings true = .ok result →
      ∀ index, survey.offset? .outputIndex1 = some index →
        result.word? index = some 1 ∧ ∀ ins ∈ result.instructions, ins.offset ≠ index := by
  intro survey specialized
  have hSites (position : Nat) : position ∈ survey.sites.map (·.offset) ↔
      ∃ site ∈ survey.sites, site.offset = position := List.mem_map
  refine ⟨?_, ⟨?_, ?_⟩, ?_, ?_⟩
  · intro site hSite
    obtain ⟨ins, hMem, hOpcode, hOffset, hLength⟩ :=
      Survey.exists_decoration (List.mem_map_of_mem hSite)
    exact ⟨ins, hMem, hOpcode, hOffset, hLength, by omega⟩
  · rintro ⟨bindings, dual, offset, hOutside⟩
    exact (hSites _).1 (exists_site_of_outsideCode hOutside)
  · intro hEnd
    obtain ⟨offset, hOutside⟩ := exists_outsideCode ((hSites _).2 hEnd)
    exact ⟨_, true, offset, hOutside⟩
  · intro bindings dual result hOk position hChanged
    have hSite := mem_sites_of_word?_ne hOk hChanged
    obtain ⟨ins, hMem, hOpcode, rfl, hLength⟩ := Survey.exists_decoration hSite
    refine ⟨ins, hMem, hOpcode, rfl, (hSites _).1 hSite, ?_⟩
    rcases Nat.eq_or_lt_of_le hLength with hCut | hLong
    · exact Or.inr (index_or_uncovered hOk hMem hCut.symm hChanged)
    · exact Or.inl (Nat.add_lt_add_left hLong _)
  · intro bindings result hOk index hIndex
    exact word?_index_of_specialize hOk hIndex

end Specialize

/-- A module that ends in a binding without its literal. -/
def cutBinding : Code :=
  ⟨.headed, [Header.magic, Header.version, 0, 20, 0] ++
    encode Op.decorate [5, Decoration.binding]⟩

/-- A second blend output whose index has no literal, in front of a binding. -/
def cutIndex : Code :=
  ⟨.headed, [Header.magic, Header.version, 0, 20, 0] ++
    [encode Op.decorate [9, Decoration.location, 1],
      encode Op.decorate [9, Decoration.index],
      encode Op.decorate [7, Decoration.binding, 2000]].flatten⟩

/-- The same module with the opening word of the last decoration in the place of the location. -/
def cutIndexExchanged : Code :=
  ⟨.headed, [Header.magic, Header.version, 0, 20, 0] ++
    [encode Op.decorate [9, Decoration.location, openingWord Op.decorate 4],
      encode Op.decorate [9, Decoration.index], [1, 7, Decoration.binding, 2000]].flatten⟩

/-- The site of the cut binding lies behind all instructions, and reading it ends the
specialization. The exchange with the cut index takes away the opening word of the next decoration,
and only two of the three instructions are left. -/
theorem cutDecorations_left :
    Code.ofWords cutBinding.words = .ok cutBinding ∧
    (∃ site ∈ (Survey.ofCode cutBinding).sites, ∀ ins ∈ cutBinding.instructions,
      ins.offset + ins.length ≤ site.offset) ∧
    specialize cutBinding (.ofCode cutBinding) (fun _ => none) {} = .error (.outsideCode 8) ∧
    Code.ofWords cutIndex.words = .ok cutIndex ∧
    specialize cutIndex (.ofCode cutIndex) (fun _ => none) { dualSourceBlend := true } =
      .ok cutIndexExchanged ∧
    cutIndex.instructions.map (·.offset) = [5, 9, 12] ∧
    cutIndexExchanged.instructions.map (·.offset) = [5, 9] := by
  have hSites : (Survey.ofCode cutBinding).sites = [⟨.bindingId, 8⟩] := by cbv
  have hInstructions : cutBinding.instructions =
      [⟨5, encode Op.decorate [5, Decoration.binding]⟩] := by cbv
  refine ⟨by cbv, ⟨⟨.bindingId, 8⟩, ?_, ?_⟩, by cbv, by cbv, by cbv, by cbv, by cbv⟩
  · rw [hSites]
    exact List.mem_singleton_self _
  · intro ins hMem
    rw [hInstructions, List.mem_singleton] at hMem
    rw [hMem]
    decide

end ShaderBackend.Spirv
