import Mathlib.Data.List.Permutation
import ShaderBackend.Proofs.Spirv.Search
import ShaderBackend.Spirv.Specialization

/-! A template that is specialized without removing inputs. The survey has recorded
one literal for each binding and specialization constant, and two for the second
blend output. They are operands of different instructions, so each write changes
a word that no other write reads, and all other words stay as they are. -/
namespace ShaderBackend.Spirv

/-- An operand of a placed instruction is the word that stands that far behind its offset. -/
theorem getElem?_flatten_of_mem_place {offset index : Nat} {listing : Listing} {ins : Instruction}
    (h : ins ∈ place offset listing) (hIndex : index < ins.length) :
    ∃ position, ins.offset = offset + position ∧
      listing.flatten[position + index]? = some (ins.arg index) := by
  induction listing generalizing offset with
  | nil => simp at h
  | cons words rest ih =>
      rw [place_cons, List.mem_cons] at h
      rcases h with rfl | h
      · refine ⟨0, rfl, ?_⟩
        change index < words.length at hIndex
        rw [List.flatten_cons, Nat.zero_add, List.getElem?_append_left hIndex]
        simp [Instruction.arg, hIndex]
      · obtain ⟨position, hOffset, hWord⟩ := ih h
        refine ⟨words.length + position, by omega, ?_⟩
        rw [List.flatten_cons, Nat.add_assoc, List.getElem?_append_right (by omega),
          Nat.add_sub_cancel_left, hWord]

/-- A word of an instruction is the word of the stream at its place. -/
theorem Code.word?_of_mem {code : Code} {ins : Instruction} (h : ins ∈ code.instructions)
    {index : Nat} (hIndex : index < ins.length) :
    code.word? (ins.offset + index) = some (ins.arg index) := by
  obtain ⟨listing, tail, -, -, hWords, hPlaced⟩ := code.exists_place
  rw [hPlaced] at h
  obtain ⟨position, hOffset, hWord⟩ := getElem?_flatten_of_mem_place h hIndex
  have hInside := (List.getElem?_eq_some_iff.1 hWord).1
  rw [Code.word?, hOffset, Nat.add_assoc, ← List.getElem?_drop, hWords,
    List.getElem?_append_left hInside, hWord]

theorem Code.start_le_offset {code : Code} {ins : Instruction} (h : ins ∈ code.instructions) :
    code.layout.start ≤ ins.offset := by
  obtain ⟨listing, tail, -, -, -, hPlaced⟩ := code.exists_place
  rw [hPlaced] at h
  exact (bounds_of_mem_place h).1

/-- Instructions do not overlap, so an offset belongs to one of them. -/
theorem Code.eq_of_offset_eq {code : Code} {first second : Instruction}
    (hFirst : first ∈ code.instructions) (hSecond : second ∈ code.instructions)
    (h : first.offset = second.offset) : first = second := by
  obtain ⟨listing, tail, hSized, -, -, hPlaced⟩ := code.exists_place
  rw [hPlaced] at hFirst hSecond
  exact eq_of_mem_place hSized hFirst hSecond h

/-- Instructions that lie one behind the other have increasing offsets. -/
theorem pairwise_offset_place (offset : Nat) {listing : Listing}
    (hSized : ∀ words ∈ listing, Sized words) :
    (place offset listing).Pairwise fun first second => first.offset < second.offset := by
  induction listing generalizing offset with
  | nil => exact List.Pairwise.nil
  | cons words rest ih =>
      rw [List.forall_mem_cons] at hSized
      rw [place_cons, List.pairwise_cons]
      refine ⟨?_, ih _ hSized.2⟩
      intro later hLater
      have hBounds := bounds_of_mem_place hLater
      have hPositive := hSized.1.length_pos
      change offset < later.offset
      omega

theorem Code.pairwise_offset (code : Code) :
    code.instructions.Pairwise fun first second => first.offset < second.offset := by
  obtain ⟨listing, tail, hSized, -, -, hPlaced⟩ := code.exists_place
  rw [hPlaced]
  exact pairwise_offset_place _ hSized

namespace Instruction

/-- Whether the literal of the instruction is a slot: it decorates some id with a
binding or a specialization constant. -/
def bindsSlot (ins : Instruction) : Bool :=
  ins.decorates Decoration.binding || ins.decorates Decoration.specId

/-- An instruction has one decoration at most. -/
theorem decoration_unique {ins : Instruction} {first second : UInt32}
    (hFirst : ins.decorates first = true) (hSecond : ins.decorates second = true) :
    first = second := by
  simp only [decorates, Bool.and_eq_true, beq_iff_eq] at hFirst hSecond
  exact hFirst.2.symm.trans hSecond.2

/-- An instruction is recorded as a site exactly when it decorates an id with a slot. -/
theorem site?_eq_none_iff {ins : Instruction} : ins.site? = none ↔ ins.bindsSlot = false := by
  simp only [site?, bindsSlot]
  split <;> simp_all

theorem of_site?_eq_some {ins : Instruction} {site : Site} (h : ins.site? = some site) :
    ins.bindsSlot = true ∧ site.offset = ins.decorationLiteral ∧
      (site.kind = .bindingId ∨ site.kind = .specConstantId) := by
  simp only [site?] at h
  split at h
  · rename_i hBinding
    cases h
    exact ⟨by simp [bindsSlot, hBinding], rfl, Or.inl rfl⟩
  · split at h
    · rename_i hConstant
      cases h
      exact ⟨by simp [bindsSlot, hConstant], rfl, Or.inr rfl⟩
    · cases h

end Instruction

namespace Survey

theorem filter_sites (stream : List Instruction) :
    ((stream.filterMap Instruction.site?).filter fun site =>
      site.kind = .bindingId || site.kind = .specConstantId).map (·.offset) =
      (stream.filter (·.bindsSlot)).map (·.decorationLiteral) := by
  induction stream with
  | nil => rfl
  | cons ins stream ih =>
      cases hSite : ins.site? with
      | none =>
          have hOther := Instruction.site?_eq_none_iff.1 hSite
          rw [List.filterMap_cons_none hSite, ih, List.filter_cons_of_neg (by simp [hOther])]
      | some site =>
          obtain ⟨hSlot, hOffset, hKind⟩ := Instruction.of_site?_eq_some hSite
          rw [List.filterMap_cons_some hSite, List.filter_cons_of_pos (by simpa using hKind),
            List.map_cons, ih, List.filter_cons_of_pos hSlot, List.map_cons, hOffset]

/-- The survey has recorded the literals of exactly the slot decorations. -/
theorem slotOffsets_ofCode (code : Code) :
    (ofCode code).slotOffsets =
      (code.instructions.filter (·.bindsSlot)).map (·.decorationLiteral) := by
  rw [slotOffsets, ofCode, List.filter_append, List.map_append, filter_sites]
  cases secondBlendOutput? code.instructions <;> simp

/-- No site of a slot has one of the kinds of the second blend output. -/
theorem find?_sites (kind : SiteKind) (hKind : kind ≠ .bindingId ∧ kind ≠ .specConstantId)
    (stream : List Instruction) :
    (stream.filterMap Instruction.site?).find? (·.kind = kind) = none := by
  rw [List.find?_eq_none]
  intro site hMem hSame
  obtain ⟨ins, -, hSite⟩ := List.mem_filterMap.1 hMem
  have hSlot := (Instruction.of_site?_eq_some hSite).2.2
  rw [of_decide_eq_true hSame] at hSlot
  exact hSlot.elim hKind.1 hKind.2

/-- The two markers of dual-source blending are those of the same output, or both are missing. -/
theorem offset?_ofCode (code : Code) :
    (ofCode code).offset? .outputLocation1 =
        (secondBlendOutput? code.instructions).map (·.1) ∧
      (ofCode code).offset? .outputIndex1 =
        (secondBlendOutput? code.instructions).map (·.2) := by
  simp only [offset?, ofCode, List.find?_append, find?_sites .outputLocation1 (by decide),
    find?_sites .outputIndex1 (by decide), Option.none_or]
  cases secondBlendOutput? code.instructions <;> simp

end Survey

section SecondBlendOutput

/-- The two recorded literals are those of a location one and of an index. -/
theorem secondBlendOutput?_eq_some {stream : List Instruction} {location index : Nat}
    (h : secondBlendOutput? stream = some (location, index)) :
    ∃ located ∈ stream, ∃ indexed ∈ stream,
      located.decorates Decoration.location = true ∧ located.arg 3 = 1 ∧
      indexed.decorates Decoration.index = true ∧ located.arg 1 = indexed.arg 1 ∧
      location = located.decorationLiteral ∧ index = indexed.decorationLiteral := by
  obtain ⟨⟨id, offset⟩, hEntry, hIndex⟩ := List.exists_of_findSome?_eq_some h
  obtain ⟨found, hFound, hPair⟩ := Option.map_eq_some_iff.1 hIndex
  cases hPair
  obtain ⟨located, hLocated, hOne⟩ := List.mem_filterMap.1 (OrderedMap.mem_of_mem_ofList hEntry)
  obtain ⟨indexed, hIndexed, hBlend⟩ :=
    List.mem_filterMap.1 (OrderedMap.mem_of_mem_ofList (OrderedMap.mem_of_get? hFound))
  simp only [Instruction.locationOne?, Option.ite_none_right_eq_some, Bool.and_eq_true, beq_iff_eq,
    Option.some.injEq, Prod.mk.injEq] at hOne
  simp only [Instruction.blendIndex?, Option.ite_none_right_eq_some, Option.some.injEq,
    Prod.mk.injEq] at hBlend
  exact ⟨located, hLocated, indexed, hIndexed, hOne.1.1, hOne.1.2, hBlend.1,
    hOne.2.1.trans hBlend.2.1.symm, hOne.2.2.symm, hBlend.2.2.symm⟩

end SecondBlendOutput

/-- What a slot literal becomes: the final id of a slot, and the literal itself if it is
one already. There is none for a slot that is not declared. -/
def finalId? (bindings : Bindings) (literal : UInt32) : Option UInt32 :=
  if literal < slotLimit then bindings literal else some literal

/-- A literal has no final id exactly when it is a slot that the bindings do not know. -/
theorem finalId?_eq_none_iff {bindings : Bindings} {literal : UInt32} :
    finalId? bindings literal = none ↔ literal < slotLimit ∧ bindings literal = none := by
  rw [finalId?]
  split <;> simp [*]

section Writes

variable {bindings : Bindings} {code : Code} {offset : Nat} {word value : UInt32}

theorem readWord_eq_ok (h : code.word? offset = some word) : code.readWord offset = .ok word := by
  rw [Code.readWord, h]

theorem writeWord_eq_ok (h : code.word? offset = some word) (value : UInt32) :
    code.writeWord offset value = .ok { code with words := code.words.set offset value } := by
  have hInside : offset < code.length := (List.getElem?_eq_some_iff.1 h).1
  rw [Code.writeWord, Code.setWord?, if_pos hInside]

/-- One write of the loop: the literal is replaced by its final id, and no other word changes. -/
theorem remapSlot_eq_ok (h : code.word? offset = some word)
    (hFinal : finalId? bindings word = some value) :
    remapSlot bindings code offset =
      .ok { code with words := code.words.set offset value } := by
  rw [remapSlot, readWord_eq_ok h]
  change (if word < slotLimit then _ else _) = _
  rw [finalId?] at hFinal
  split at hFinal
  · rename_i hSlot
    rw [if_pos hSlot, hFinal]
    exact writeWord_eq_ok h value
  · rename_i hFixed
    obtain ⟨hInside, hSame⟩ := List.getElem?_eq_some_iff.1 h
    cases hFinal
    rw [if_neg hFixed, ← hSame, List.set_getElem_self]
    rfl

/-- How the pass ends at a literal that has no final id. -/
def remapError (code : Code) (offset : Nat) : PatchError :=
  match code.word? offset with
  | some word => .unboundSlot word
  | none => .outsideCode offset

theorem remapSlot_eq_error (h : (code.word? offset).bind (finalId? bindings) = none) :
    remapSlot bindings code offset = .error (remapError code offset) := by
  cases hWord : code.word? offset with
  | none =>
      rw [remapSlot, Code.readWord, remapError, hWord]
      rfl
  | some word =>
      rw [hWord, Option.bind_some] at h
      obtain ⟨hSlot, hNone⟩ := finalId?_eq_none_iff.1 h
      rw [remapSlot, readWord_eq_ok hWord, remapError, hWord]
      change (if word < slotLimit then _ else _) = _
      rw [if_pos hSlot, hNone]

end Writes

section Offsets

variable (bindings : Bindings) {offsets : List Nat}

/-- Distinct literals are each read before they are written. The pass succeeds if all
of them have a final id, and no literal is remapped twice. -/
theorem foldlM_remapSlot_eq_ok (code : Code) (hNodup : offsets.Nodup)
    (hFinal : ∀ offset ∈ offsets, ((code.word? offset).bind (finalId? bindings)).isSome) :
    ∃ result, offsets.foldlM (remapSlot bindings) code = .ok result ∧
      result.layout = code.layout ∧ result.length = code.length ∧
      ∀ position, result.word? position =
        if position ∈ offsets then (code.word? position).bind (finalId? bindings)
        else code.word? position := by
  induction offsets generalizing code with
  | nil => exact ⟨code, rfl, rfl, rfl, by simp⟩
  | cons offset rest ih =>
      rw [List.nodup_cons] at hNodup
      rw [List.forall_mem_cons] at hFinal
      obtain ⟨value, hValue⟩ := Option.isSome_iff_exists.1 hFinal.1
      obtain ⟨word, hWord, hId⟩ := Option.bind_eq_some_iff.1 hValue
      have hInside := (List.getElem?_eq_some_iff.1 hWord).1
      let written : Code := { code with words := code.words.set offset value }
      have hOther (position : Nat) (hNe : position ≠ offset) :
          written.word? position = code.word? position := List.getElem?_set_ne hNe.symm
      obtain ⟨result, hRun, hLayout, hLength, hWords⟩ := ih written hNodup.2 (by
        intro other hMem
        rw [hOther other fun hSame => hNodup.1 (hSame ▸ hMem)]
        exact hFinal.2 other hMem)
      refine ⟨result, ?_, hLayout, hLength.trans List.length_set, ?_⟩
      · rw [List.foldlM_cons, remapSlot_eq_ok hWord hId]
        exact hRun
      · intro position
        rw [hWords position]
        by_cases hSame : position = offset
        · subst hSame
          rw [if_neg hNodup.1, if_pos (List.mem_cons_self ..), hValue]
          exact List.getElem?_set_self hInside
        · rw [hOther position hSame]
          simp [hSame]

/-- The first literal without a final id ends the pass. Those in front of it have been
written by then, which does not change the word that stands there. -/
theorem foldlM_remapSlot_eq_error (code : Code) (hNodup : offsets.Nodup)
    (hNone : ∃ offset ∈ offsets, (code.word? offset).bind (finalId? bindings) = none) :
    ∃ offset ∈ offsets, (code.word? offset).bind (finalId? bindings) = none ∧
      offsets.foldlM (remapSlot bindings) code = .error (remapError code offset) := by
  obtain ⟨first, hFirst⟩ := Option.isSome_iff_exists.1
    (List.find?_isSome (p := fun offset =>
      ((code.word? offset).bind (finalId? bindings)).isNone).2 (by simpa using hNone))
  obtain ⟨hLiteral, before, after, rfl, hBefore⟩ := List.find?_eq_some_iff_append.1 hFirst
  have hFree : first ∉ before := fun hMem =>
    (List.nodup_append.1 hNodup).2.2 first hMem first (List.mem_cons_self ..) rfl
  obtain ⟨middle, hRun, -, -, hWords⟩ := foldlM_remapSlot_eq_ok bindings code
    (List.nodup_append.1 hNodup).1 (fun offset hMem => by simpa using hBefore offset hMem)
  have hSame : middle.word? first = code.word? first := by rw [hWords, if_neg hFree]
  refine ⟨first, by simp, by simpa using hLiteral, ?_⟩
  rw [List.foldlM_append, hRun]
  change List.foldlM (remapSlot bindings) middle (first :: after) = _
  rw [List.foldlM_cons, remapSlot_eq_error (by simpa [hSame] using hLiteral), remapError, hSame]
  rfl

/-- The exchange of two different literals. -/
theorem swapBlendOutput_eq_ok {survey : Survey} {location index : Nat}
    (hLocation : survey.offset? .outputLocation1 = some location)
    (hIndex : survey.offset? .outputIndex1 = some index) (hNe : location ≠ index) {code : Code}
    (hLocationInside : (code.word? location).isSome) (hIndexInside : (code.word? index).isSome) :
    ∃ result, swapBlendOutput survey code = .ok result ∧
      result.layout = code.layout ∧ result.length = code.length ∧
      ∀ position, result.word? position = code.word?
        (if position = location then index else if position = index then location
          else position) := by
  obtain ⟨l, hL⟩ := Option.isSome_iff_exists.1 hLocationInside
  obtain ⟨i, hI⟩ := Option.isSome_iff_exists.1 hIndexInside
  have hL' := (List.getElem?_eq_some_iff.1 hL).1
  have hI' := (List.getElem?_eq_some_iff.1 hI).1
  have hKept : (Code.mk code.layout (code.words.set location i)).word? index = some i :=
    (List.getElem?_set_ne hNe).trans hI
  refine ⟨⟨code.layout, (code.words.set location i).set index l⟩, ?_, rfl, ?_, ?_⟩
  · rw [swapBlendOutput, hLocation, hIndex]
    simp only [readWord_eq_ok hL, readWord_eq_ok hI, bind, Except.bind, writeWord_eq_ok hL,
      writeWord_eq_ok hKept]
  · simp only [Code.length, List.length_set]
  · intro position
    simp only [Code.word?] at hL hI ⊢
    by_cases hFirst : position = location
    · subst hFirst
      rw [if_pos rfl, List.getElem?_set_ne hNe.symm, List.getElem?_set_self hL', hI]
    · rw [if_neg hFirst]
      by_cases hSecond : position = index
      · subst hSecond
        rw [if_pos rfl, List.getElem?_set_self (by rwa [List.length_set]), hL]
      · rw [if_neg hSecond, List.getElem?_set_ne (Ne.symm hSecond),
          List.getElem?_set_ne (Ne.symm hFirst)]

/-- The exchange ends at an index literal that is not there. -/
theorem swapBlendOutput_eq_error {survey : Survey} {location index : Nat}
    (hLocation : survey.offset? .outputLocation1 = some location)
    (hIndex : survey.offset? .outputIndex1 = some index) {code : Code}
    (hLocationInside : (code.word? location).isSome) (hIndexOutside : code.word? index = none) :
    swapBlendOutput survey code = .error (.outsideCode index) := by
  obtain ⟨l, hL⟩ := Option.isSome_iff_exists.1 hLocationInside
  have hError : code.readWord index = .error (.outsideCode index) := by
    rw [Code.readWord, hIndexOutside]
  rw [swapBlendOutput, hLocation, hIndex]
  simp only [readWord_eq_ok hL, hError, bind, Except.bind]

end Offsets

section Sizes

variable {code code' : Code} {survey : Survey} {bindings : Bindings}

theorem size_writeWord {offset : Nat} {value : UInt32}
    (h : code.writeWord offset value = .ok code') :
    code'.layout = code.layout ∧ code'.length = code.length := by
  rw [Code.writeWord, Code.setWord?] at h
  split at h
  · rename_i changed hChanged
    rw [Option.ite_none_right_eq_some] at hChanged
    cases h
    cases hChanged.2
    exact ⟨rfl, List.length_set⟩
  · cases h

/-- No write moves a word, so offsets that were recorded before stay right. -/
theorem size_remapSlot {offset : Nat} (h : remapSlot bindings code offset = .ok code') :
    code'.layout = code.layout ∧ code'.length = code.length := by
  rw [remapSlot] at h
  cases hRead : code.readWord offset with
  | error error =>
      rw [hRead] at h
      cases h
  | ok slot =>
      rw [hRead] at h
      change (if slot < slotLimit then _ else _) = _ at h
      split at h
      · split at h
        · exact size_writeWord h
        · cases h
      · cases h
        exact ⟨rfl, rfl⟩

/-- Remapping writes words in place, whatever the offsets are. -/
theorem size_foldlM_remapSlot {offsets : List Nat}
    (h : offsets.foldlM (remapSlot bindings) code = .ok code') :
    code'.layout = code.layout ∧ code'.length = code.length := by
  induction offsets generalizing code with
  | nil =>
      cases h
      exact ⟨rfl, rfl⟩
  | cons offset rest ih =>
      rw [List.foldlM_cons] at h
      cases hFirst : remapSlot bindings code offset with
      | error error =>
          rw [hFirst] at h
          cases h
      | ok middle =>
          rw [hFirst] at h
          have hSize := size_remapSlot hFirst
          have hRest := ih h
          exact ⟨hRest.1.trans hSize.1, hRest.2.trans hSize.2⟩

theorem size_swapBlendOutput (h : swapBlendOutput survey code = .ok code') :
    code'.layout = code.layout ∧ code'.length = code.length := by
  rw [swapBlendOutput] at h
  split at h
  · rename_i location index _ _
    cases hLocation : code.readWord location with
    | error error =>
        rw [hLocation] at h
        cases h
    | ok l =>
        cases hIndex : code.readWord index with
        | error error =>
            rw [hLocation, hIndex] at h
            cases h
        | ok i =>
            rw [hLocation, hIndex] at h
            change (code.writeWord location i).bind (fun code => code.writeWord index l) = _ at h
            cases hWritten : code.writeWord location i with
            | error error =>
                rw [hWritten] at h
                cases h
            | ok middle =>
                rw [hWritten] at h
                have hSize := size_writeWord hWritten
                have hLast := size_writeWord h
                exact ⟨hLast.1.trans hSize.1, hLast.2.trans hSize.2⟩
  · cases h
    exact ⟨rfl, rfl⟩

end Sizes

section Literals

variable {template : Code}

/-- The literal of a decoration of four words is its last operand. -/
theorem word?_decorationLiteral {ins : Instruction} (h : ins ∈ template.instructions)
    (hLong : 4 ≤ ins.length) : template.word? ins.decorationLiteral = some (ins.arg 3) :=
  Code.word?_of_mem h hLong

/-- No two instructions share a literal. -/
theorem decorationLiteral_inj {first second : Instruction} (hFirst : first ∈ template.instructions)
    (hSecond : second ∈ template.instructions)
    (h : first.decorationLiteral = second.decorationLiteral) : first = second :=
  Code.eq_of_offset_eq hFirst hSecond (Nat.add_right_cancel h)

/-- The slots are recorded in stream order. -/
theorem pairwise_slotOffsets (template : Code) :
    (Survey.ofCode template).slotOffsets.Pairwise (· < ·) := by
  rw [Survey.slotOffsets_ofCode, List.pairwise_map]
  exact (template.pairwise_offset.filter _).imp fun h => Nat.add_lt_add_right h 3

theorem nodup_slotOffsets (template : Code) : (Survey.ofCode template).slotOffsets.Nodup :=
  (pairwise_slotOffsets template).imp Nat.ne_of_lt

/-- The loop visits the literals of the slot decorations and nothing else. -/
theorem mem_slotOffsets_iff {position : Nat} :
    position ∈ (Survey.ofCode template).slotOffsets ↔
      ∃ ins ∈ template.instructions, ins.bindsSlot = true ∧ position = ins.decorationLiteral := by
  rw [Survey.slotOffsets_ofCode, List.mem_map]
  simp only [List.mem_filter, and_assoc, eq_comm]

/-- The literal of another decoration is not that of a slot. -/
theorem decorationLiteral_not_mem_slotOffsets {ins : Instruction} {decoration : UInt32}
    (h : ins ∈ template.instructions) (hDecorates : ins.decorates decoration = true)
    (hNe : decoration ≠ Decoration.binding ∧ decoration ≠ Decoration.specId) :
    ins.decorationLiteral ∉ (Survey.ofCode template).slotOffsets := by
  rw [mem_slotOffsets_iff]
  rintro ⟨other, hOther, hSlot, hSame⟩
  obtain rfl := decorationLiteral_inj h hOther hSame
  rcases Bool.or_eq_true_iff.1 hSlot with hBinding | hConstant
  · exact hNe.1 (Instruction.decoration_unique hDecorates hBinding)
  · exact hNe.2 (Instruction.decoration_unique hDecorates hConstant)

/-- Whether every decoration whose literal may be rewritten has one. -/
def CompleteDecorations (template : Code) : Prop :=
  ∀ ins ∈ template.instructions,
    ins.bindsSlot = true ∨ ins.decorates Decoration.index = true → 4 ≤ ins.length

/-- The literals of the second blend output lie apart from each other and from all slots. -/
theorem secondBlendOutput?_distinct {location index : Nat}
    (h : secondBlendOutput? template.instructions = some (location, index)) :
    location ≠ index ∧ location ∉ (Survey.ofCode template).slotOffsets ∧
      index ∉ (Survey.ofCode template).slotOffsets := by
  obtain ⟨located, hLocated, indexed, hIndexed, hLocation, -, hIndex, -, rfl, rfl⟩ :=
    secondBlendOutput?_eq_some h
  refine ⟨?_, decorationLiteral_not_mem_slotOffsets hLocated hLocation (by decide),
    decorationLiteral_not_mem_slotOffsets hIndexed hIndex (by decide)⟩
  intro hSame
  obtain rfl := decorationLiteral_inj hLocated hIndexed hSame
  exact absurd (Instruction.decoration_unique hLocation hIndex) (by decide)

/-- A missing operand reads as zero. -/
theorem Instruction.lt_length_of_arg_ne_zero {ins : Instruction} {index : Nat}
    (h : ins.arg index ≠ 0) : index < ins.length := by
  by_contra hShort
  have hMissing : ins.words[index]? = none := List.getElem?_eq_none (Nat.le_of_not_lt hShort)
  rw [Instruction.arg, List.getD_eq_getElem?_getD, hMissing] at h
  exact h rfl

/-- The location literal of the second blend output is one. -/
theorem word?_outputLocation {location index : Nat}
    (h : secondBlendOutput? template.instructions = some (location, index)) :
    template.word? location = some 1 := by
  obtain ⟨located, hLocated, -, -, -, hOne, -, -, rfl, -⟩ := secondBlendOutput?_eq_some h
  have hLong : 3 < located.length :=
    Instruction.lt_length_of_arg_ne_zero (by rw [hOne]; decide)
  rw [word?_decorationLiteral hLocated hLong, hOne]

/-- With complete decorations, both literals of the second blend output lie in the template. -/
theorem secondBlendOutput?_apart (hComplete : CompleteDecorations template) {location index : Nat}
    (h : secondBlendOutput? template.instructions = some (location, index)) :
    location ≠ index ∧ location ∉ (Survey.ofCode template).slotOffsets ∧
      index ∉ (Survey.ofCode template).slotOffsets ∧
      (template.word? location).isSome ∧ (template.word? index).isSome := by
  obtain ⟨hNe, hLocation, hIndex⟩ := secondBlendOutput?_distinct h
  refine ⟨hNe, hLocation, hIndex, ?_, ?_⟩
  · rw [word?_outputLocation h]
    rfl
  · obtain ⟨-, -, indexed, hIndexed, -, -, hIndexes, -, -, rfl⟩ := secondBlendOutput?_eq_some h
    rw [word?_decorationLiteral hIndexed (hComplete indexed hIndexed (Or.inr hIndexes))]
    rfl

end Literals

/-- A template with final ids in the place of its slots. If `dual` asks for it and there is a
second blend output, the two literals of that output have changed places. Nothing else differs. -/
structure Remaps (template : Code) (bindings : Bindings) (dual : Bool) (result : Code) :
    Prop where
  layout : result.layout = template.layout
  length : result.length = template.length
  header : result.words.take template.layout.start = template.words.take template.layout.start
  slot : ∀ ins ∈ template.instructions, ins.bindsSlot = true →
    template.word? ins.decorationLiteral = some (ins.arg 3) ∧
      result.word? ins.decorationLiteral = finalId? bindings (ins.arg 3)
  blend : ∀ location index,
    (Survey.ofCode template).offset? .outputLocation1 = some location →
    (Survey.ofCode template).offset? .outputIndex1 = some index →
    result.word? location = template.word? (if dual then index else location) ∧
      result.word? index = template.word? (if dual then location else index)
  other : ∀ position,
    (∀ ins ∈ template.instructions, ins.bindsSlot = true → position ≠ ins.decorationLiteral) →
    (∀ location index, (Survey.ofCode template).offset? .outputLocation1 = some location →
      (Survey.ofCode template).offset? .outputIndex1 = some index →
      position ≠ location ∧ position ≠ index) →
    result.word? position = template.word? position

section Specialize

variable {template : Code} {bindings : Bindings}

/-- The three passes of a specialization, one after the other. -/
theorem specialize_eq (template : Code) (survey : Survey) (bindings : Bindings)
    (variant : Variant) :
    specialize template survey bindings variant =
      (remapSlots survey bindings template).bind fun code =>
        (if variant.dualSourceBlend then swapBlendOutput survey code else .ok code).bind
          (eliminateAll variant.unwrittenInputs) := by
  rw [specialize]
  cases remapSlots survey bindings template with
  | error e => rfl
  | ok code => cases variant.dualSourceBlend <;> rfl

/-- The inputs are removed last, from the module that a specialization without removals gives. -/
theorem specialize_eq_bind (template : Code) (survey : Survey) (bindings : Bindings)
    (variant : Variant) :
    specialize template survey bindings variant =
      (specialize template survey bindings { variant with unwrittenInputs := 0 }).bind
        (eliminateAll variant.unwrittenInputs) := by
  have hNone (code : Code) : eliminateAll 0 code = .ok code := by rw [eliminateAll, dif_pos rfl]
  rw [specialize_eq, specialize_eq]
  cases remapSlots survey bindings template with
  | error error => rfl
  | ok code =>
      change _ = ((if variant.dualSourceBlend then swapBlendOutput survey code else .ok code).bind
        (eliminateAll 0)).bind _
      change (if variant.dualSourceBlend then swapBlendOutput survey code else .ok code).bind _ = _
      cases (if variant.dualSourceBlend then swapBlendOutput survey code else .ok code) with
      | error error => rfl
      | ok code =>
          change _ = (eliminateAll 0 code).bind _
          rw [hNone]

theorem size_specialize {survey : Survey} {dual : Bool} {result : Code}
    (h : specialize template survey bindings { dualSourceBlend := dual } = .ok result) :
    result.layout = template.layout ∧ result.length = template.length := by
  rw [specialize_eq] at h
  cases hRemapped : remapSlots survey bindings template with
  | error error =>
      rw [hRemapped] at h
      cases h
  | ok code =>
      rw [hRemapped] at h
      have hSize := size_foldlM_remapSlot hRemapped
      change (if dual then swapBlendOutput survey code else .ok code).bind (eliminateAll 0) = _ at h
      cases hSwapped : (if dual then swapBlendOutput survey code else .ok code) with
      | error error =>
          rw [hSwapped] at h
          cases h
      | ok exchanged =>
          rw [hSwapped] at h
          change eliminateAll 0 exchanged = _ at h
          rw [eliminateAll, dif_pos rfl] at h
          cases h
          cases dual with
          | false =>
              cases hSwapped
              exact hSize
          | true =>
              have hLast := size_swapBlendOutput hSwapped
              exact ⟨hLast.1.trans hSize.1, hLast.2.trans hSize.2⟩

/-- Some slot of a template has no final id. -/
def HasUnboundSlot (template : Code) (bindings : Bindings) : Prop :=
  ∃ ins ∈ template.instructions, ins.bindsSlot = true ∧ ins.arg 3 < slotLimit ∧
    bindings (ins.arg 3) = none

theorem specialize_eq_error (hComplete : CompleteDecorations template) (dual : Bool)
    (hUnbound : HasUnboundSlot template bindings) :
    ∃ slot, specialize template (.ofCode template) bindings { dualSourceBlend := dual } =
      .error (.unboundSlot slot) := by
  obtain ⟨ins, hMem, hSlot, hBelow, hNone⟩ := hUnbound
  obtain ⟨offset, hOffset, -, hError⟩ := foldlM_remapSlot_eq_error bindings template
    (nodup_slotOffsets template)
    ⟨ins.decorationLiteral, mem_slotOffsets_iff.2 ⟨ins, hMem, hSlot, rfl⟩, by
      rw [word?_decorationLiteral hMem (hComplete ins hMem (Or.inl hSlot)), Option.bind_some,
        finalId?_eq_none_iff]
      exact ⟨hBelow, hNone⟩⟩
  obtain ⟨other, hOther, hOtherSlot, rfl⟩ := mem_slotOffsets_iff.1 hOffset
  rw [remapError, word?_decorationLiteral hOther (hComplete other hOther (Or.inl hOtherSlot))]
    at hError
  exact ⟨other.arg 3, by rw [specialize, remapSlots, hError]; rfl⟩

/-- Where the word at a position comes from if two literals trade places. -/
def tradePlaces (pair : Option (Nat × Nat)) (position : Nat) : Nat :=
  match pair with
  | none => position
  | some (location, index) =>
    if position = location then index else if position = index then location else position

/-- Only the two literals that trade places come from somewhere else. -/
theorem tradePlaces_of_ne {pair : Option (Nat × Nat)} {position : Nat}
    (h : ∀ location index, pair = some (location, index) →
      position ≠ location ∧ position ≠ index) : tradePlaces pair position = position := by
  cases pair with
  | none => rfl
  | some pair =>
      obtain ⟨hLocation, hIndex⟩ := h pair.1 pair.2 rfl
      rw [tradePlaces, if_neg hLocation, if_neg hIndex]

/-- The two literals that a specialization exchanges. -/
def exchangedPair? (template : Code) (dual : Bool) : Option (Nat × Nat) :=
  if dual then secondBlendOutput? template.instructions else none

/-- On every code that is as long as the template, the exchange goes through unless the index
literal is not there. -/
theorem exchange_cases (dual : Bool) {code : Code} (hLength : code.length = template.length) :
    let exchanged := if dual then swapBlendOutput (.ofCode template) code else .ok code
    (∃ location index, exchangedPair? template dual = some (location, index) ∧
        template.word? index = none ∧ exchanged = .error (.outsideCode index)) ∨
    (∀ location index, exchangedPair? template dual = some (location, index) →
        (template.word? index).isSome) ∧
      ∃ result, exchanged = .ok result ∧ result.layout = code.layout ∧
        result.length = code.length ∧ ∀ position, result.word? position =
          code.word? (tradePlaces (exchangedPair? template dual) position) := by
  obtain ⟨hLocation, hIndex⟩ := Survey.offset?_ofCode template
  have hInside (position : Nat) :
      (code.word? position).isSome = (template.word? position).isSome := by
    have hWords : code.words.length = template.words.length := hLength
    rw [Bool.eq_iff_iff, Code.word?, Code.word?, isSome_getElem?, isSome_getElem?, hWords]
  cases dual with
  | false =>
      refine Or.inr ⟨?_, code, rfl, rfl, rfl, fun _ => rfl⟩
      rintro location index ⟨⟩
  | true =>
      rw [if_pos rfl, exchangedPair?, if_pos rfl]
      cases hPair : secondBlendOutput? template.instructions with
      | none =>
          rw [hPair] at hLocation
          refine Or.inr ⟨?_, code, ?_, rfl, rfl, fun _ => rfl⟩
          · rintro location index ⟨⟩
          · rw [swapBlendOutput, hLocation]
            rfl
      | some pair =>
          obtain ⟨location, index⟩ := pair
          rw [hPair] at hLocation hIndex
          have hLocationInside : (code.word? location).isSome := by
            rw [hInside, word?_outputLocation hPair]
            rfl
          cases hWord : template.word? index with
          | none =>
              have hOutside : code.word? index = none := by
                rw [← Option.not_isSome_iff_eq_none, hInside, hWord]
                decide
              exact Or.inl ⟨location, index, rfl, hWord,
                swapBlendOutput_eq_error hLocation hIndex hLocationInside hOutside⟩
          | some word =>
              refine Or.inr ⟨?_, swapBlendOutput_eq_ok hLocation hIndex
                (secondBlendOutput?_distinct hPair).1 hLocationInside ?_⟩
              · rintro _ _ ⟨⟩
                rw [hWord]
                rfl
              · rw [hInside, hWord]
                rfl

/-- The word of the remapped template at a position, before any exchange. -/
def remappedWord? (template : Code) (bindings : Bindings) (position : Nat) : Option UInt32 :=
  if position ∈ (Survey.ofCode template).slotOffsets then
    (template.word? position).bind (finalId? bindings)
  else template.word? position

/-- The paths of a specialization without removals. It ends at a slot that has no final id or is
not there, or at an index literal that is not there, and otherwise it is given word by word. -/
theorem specialize_cases (template : Code) (bindings : Bindings) (dual : Bool) :
    let specialized := specialize template (.ofCode template) bindings { dualSourceBlend := dual }
    (∃ offset ∈ (Survey.ofCode template).slotOffsets,
        (template.word? offset).bind (finalId? bindings) = none ∧
        specialized = .error (remapError template offset)) ∨
    (∃ location index, exchangedPair? template dual = some (location, index) ∧
        template.word? index = none ∧ specialized = .error (.outsideCode index)) ∨
    (∀ offset ∈ (Survey.ofCode template).slotOffsets, (template.word? offset).isSome) ∧
      (∀ location index, exchangedPair? template dual = some (location, index) →
        (template.word? index).isSome) ∧
      ∃ result, specialized = .ok result ∧ result.layout = template.layout ∧
        result.length = template.length ∧ ∀ position, result.word? position = remappedWord? template
          bindings (tradePlaces (exchangedPair? template dual) position) := by
  by_cases hNone : ∃ offset ∈ (Survey.ofCode template).slotOffsets,
      (template.word? offset).bind (finalId? bindings) = none
  · obtain ⟨offset, hOffset, hLiteral, hError⟩ :=
      foldlM_remapSlot_eq_error bindings template (nodup_slotOffsets template) hNone
    exact Or.inl ⟨offset, hOffset, hLiteral, by rw [specialize, remapSlots, hError]; rfl⟩
  · have hFinal : ∀ offset ∈ (Survey.ofCode template).slotOffsets,
        ((template.word? offset).bind (finalId? bindings)).isSome := fun offset hOffset =>
      Option.isSome_iff_ne_none.2 fun hLiteral => hNone ⟨offset, hOffset, hLiteral⟩
    obtain ⟨remapped, hRun, hLayout, hLength, hWords⟩ :=
      foldlM_remapSlot_eq_ok bindings template (nodup_slotOffsets template) hFinal
    have hExchange : specialize template (.ofCode template) bindings { dualSourceBlend := dual } =
        (if dual then swapBlendOutput (.ofCode template) remapped else .ok remapped).bind
          (eliminateAll 0) := by
      rw [specialize_eq, remapSlots, hRun]
      rfl
    rcases exchange_cases dual hLength with
      ⟨location, index, hPair, hOutside, hError⟩ |
      ⟨hInside, result, hOk, hSwapLayout, hSwapLength, hSwapWords⟩
    · exact Or.inr (Or.inl ⟨location, index, hPair, hOutside, by rw [hExchange, hError]; rfl⟩)
    · have hSlots : ∀ offset ∈ (Survey.ofCode template).slotOffsets,
          (template.word? offset).isSome := fun offset hOffset =>
        Option.isSome_of_isSome_bind (hFinal offset hOffset)
      refine Or.inr (Or.inr ⟨hSlots, hInside, result, ?_, hSwapLayout.trans hLayout,
        hSwapLength.trans hLength, fun position => (hSwapWords position).trans (hWords _)⟩)
      rw [hExchange, hOk]
      change eliminateAll 0 result = _
      rw [eliminateAll, dif_pos rfl]

/-- Without removals, a template whose slots all have final ids is specialized word by word. -/
theorem exists_specialized (hComplete : CompleteDecorations template) (dual : Bool)
    (hBound : ¬HasUnboundSlot template bindings) :
    ∃ result, specialize template (.ofCode template) bindings { dualSourceBlend := dual } =
        .ok result ∧
      result.layout = template.layout ∧ result.length = template.length ∧
      ∀ position, result.word? position = remappedWord? template bindings
        (tradePlaces (exchangedPair? template dual) position) := by
  rcases specialize_cases template bindings dual with
    ⟨offset, hOffset, hLiteral, -⟩ | ⟨location, index, hPair, hOutside, -⟩ | ⟨-, -, hOk⟩
  · obtain ⟨ins, hMem, hSlot, rfl⟩ := mem_slotOffsets_iff.1 hOffset
    rw [word?_decorationLiteral hMem (hComplete ins hMem (Or.inl hSlot)), Option.bind_some,
      finalId?_eq_none_iff] at hLiteral
    exact absurd ⟨ins, hMem, hSlot, hLiteral⟩ hBound
  · rw [exchangedPair?, Option.ite_none_right_eq_some] at hPair
    have hInside := (secondBlendOutput?_apart hComplete hPair.2).2.2.2.2
    rw [hOutside] at hInside
    cases hInside
  · exact hOk

theorem secondBlendOutput?_of_offset? {location index : Nat}
    (hLocation : (Survey.ofCode template).offset? .outputLocation1 = some location)
    (hIndex : (Survey.ofCode template).offset? .outputIndex1 = some index) :
    secondBlendOutput? template.instructions = some (location, index) := by
  rw [(Survey.offset?_ofCode template).1] at hLocation
  rw [(Survey.offset?_ofCode template).2] at hIndex
  obtain ⟨pair, hPair, rfl⟩ := Option.map_eq_some_iff.1 hLocation
  rw [hPair, Option.map_some, Option.some.injEq] at hIndex
  rw [hPair, ← hIndex]

theorem tradePlaces_exchangedPair?_of_ne {dual : Bool} {position : Nat}
    (h : ∀ location index, secondBlendOutput? template.instructions = some (location, index) →
      position ≠ location ∧ position ≠ index) :
    tradePlaces (exchangedPair? template dual) position = position := by
  apply tradePlaces_of_ne
  intro location index hPair
  rw [exchangedPair?, Option.ite_none_right_eq_some] at hPair
  exact h location index hPair.2

/-- The exchange touches no slot, whatever the flag. -/
theorem tradePlaces_of_mem_slotOffsets {dual : Bool} {position : Nat}
    (h : position ∈ (Survey.ofCode template).slotOffsets) :
    tradePlaces (exchangedPair? template dual) position = position := by
  apply tradePlaces_exchangedPair?_of_ne
  intro location index hPair
  obtain ⟨-, hLocation, hIndex⟩ := secondBlendOutput?_distinct hPair
  exact ⟨fun hSame => hLocation (hSame ▸ h), fun hSame => hIndex (hSame ▸ h)⟩

variable {dual : Bool} {result : Code}

/-- The literal of a slot is the final id of what it was, and the exchange does not reach it. -/
theorem word?_slot (hComplete : CompleteDecorations template)
    (hWords : ∀ position, result.word? position = remappedWord? template bindings
      (tradePlaces (exchangedPair? template dual) position))
    {ins : Instruction} (hMem : ins ∈ template.instructions) (hSlot : ins.bindsSlot = true) :
    template.word? ins.decorationLiteral = some (ins.arg 3) ∧
      result.word? ins.decorationLiteral = finalId? bindings (ins.arg 3) := by
  have hWord := word?_decorationLiteral hMem (hComplete ins hMem (Or.inl hSlot))
  have hSite := mem_slotOffsets_iff.2 ⟨ins, hMem, hSlot, rfl⟩
  refine ⟨hWord, ?_⟩
  rw [hWords, tradePlaces_of_mem_slotOffsets hSite, remappedWord?, if_pos hSite, hWord,
    Option.bind_some]

/-- The two blend literals stay or trade places, as the variant says. -/
theorem word?_blend
    (hWords : ∀ position, result.word? position = remappedWord? template bindings
      (tradePlaces (exchangedPair? template dual) position))
    {location index : Nat}
    (hPair : secondBlendOutput? template.instructions = some (location, index)) :
    result.word? location = template.word? (if dual then index else location) ∧
      result.word? index = template.word? (if dual then location else index) := by
  obtain ⟨hNe, hLocation, hIndex⟩ := secondBlendOutput?_distinct hPair
  have hLocationWord : remappedWord? template bindings location = template.word? location :=
    if_neg hLocation
  have hIndexWord : remappedWord? template bindings index = template.word? index := if_neg hIndex
  rw [hWords, hWords, exchangedPair?, hPair]
  cases dual with
  | false => exact ⟨hLocationWord, hIndexWord⟩
  | true =>
      simp only [if_true, tradePlaces, if_neg hNe.symm]
      exact ⟨hIndexWord, hLocationWord⟩

/-- Every other word is the one of the template. -/
theorem word?_other
    (hWords : ∀ position, result.word? position = remappedWord? template bindings
      (tradePlaces (exchangedPair? template dual) position))
    {position : Nat}
    (hSlots : ∀ ins ∈ template.instructions, ins.bindsSlot = true →
      position ≠ ins.decorationLiteral)
    (hBlend : ∀ location index, secondBlendOutput? template.instructions = some (location, index) →
      position ≠ location ∧ position ≠ index) :
    result.word? position = template.word? position := by
  rw [hWords, tradePlaces_exchangedPair?_of_ne hBlend, remappedWord?, if_neg]
  rw [mem_slotOffsets_iff]
  rintro ⟨ins, hMem, hSlot, hSame⟩
  exact hSlots ins hMem hSlot hSame

/-- No literal that may be rewritten lies in the header. -/
theorem word?_header
    (hWords : ∀ position, result.word? position = remappedWord? template bindings
      (tradePlaces (exchangedPair? template dual) position)) :
    result.words.take template.layout.start = template.words.take template.layout.start := by
  have hBehind (ins : Instruction) (hMem : ins ∈ template.instructions) :
      template.layout.start < ins.decorationLiteral := by
    have hStart := Code.start_le_offset hMem
    rw [Instruction.decorationLiteral]
    omega
  apply List.ext_getElem?
  intro position
  rw [List.getElem?_take, List.getElem?_take]
  split
  · rename_i hHeader
    apply word?_other hWords
    · intro ins hMem _
      have hLater := hBehind ins hMem
      omega
    · intro location index hPair
      obtain ⟨located, hLocated, indexed, hIndexed, -, -, -, -, rfl, rfl⟩ :=
        secondBlendOutput?_eq_some hPair
      have hLocatedLater := hBehind located hLocated
      have hIndexedLater := hBehind indexed hIndexed
      omega
  · rfl

/-- Without removals, a template whose slots all have final ids is remapped and nothing else. -/
theorem exists_remaps (bindings : Bindings) (hComplete : CompleteDecorations template) (dual : Bool)
    (hBound : ¬HasUnboundSlot template bindings) :
    ∃ result, specialize template (.ofCode template) bindings { dualSourceBlend := dual } =
      .ok result ∧ Remaps template bindings dual result := by
  obtain ⟨result, hRun, hLayout, hLength, hWords⟩ := exists_specialized hComplete dual hBound
  refine ⟨result, hRun, hLayout, hLength, word?_header hWords, ?_, ?_, ?_⟩
  · exact fun ins hMem hSlot => word?_slot hComplete hWords hMem hSlot
  · intro location index hLocation hIndex
    exact word?_blend hWords (secondBlendOutput?_of_offset? hLocation hIndex)
  · intro position hSlots hBlend
    apply word?_other hWords hSlots
    intro location index hPair
    apply hBlend
    · rw [(Survey.offset?_ofCode template).1, hPair]
      rfl
    · rw [(Survey.offset?_ofCode template).2, hPair]
      rfl

/-- A specialization that removes no input fails exactly if some slot has no final id, and
otherwise it remaps each slot once and exchanges the literals of the second blend output. The
literals are apart from each other, so no word is written twice. -/
theorem specialize_remaps (template : Code) (bindings : Bindings) (dual : Bool)
    (hComplete : CompleteDecorations template) :
    let survey := Survey.ofCode template
    let specialized := specialize template survey bindings { dualSourceBlend := dual }
    ((∃ error text, specialized = .error error ∧ error.failure = .fault (.patch text)) ↔
      ∃ ins ∈ template.instructions, ins.bindsSlot = true ∧ ins.arg 3 < slotLimit ∧
        bindings (ins.arg 3) = none) ∧
    ((¬∃ ins ∈ template.instructions, ins.bindsSlot = true ∧ ins.arg 3 < slotLimit ∧
        bindings (ins.arg 3) = none) →
      ∃ result, specialized = .ok result ∧ Remaps template bindings dual result) ∧
    survey.slotOffsets.Nodup ∧
    ∀ location index, survey.offset? .outputLocation1 = some location →
      survey.offset? .outputIndex1 = some index →
      location ≠ index ∧ location ∉ survey.slotOffsets ∧ index ∉ survey.slotOffsets := by
  intro survey specialized
  refine ⟨⟨?_, ?_⟩, exists_remaps bindings hComplete dual, nodup_slotOffsets template, ?_⟩
  · rintro ⟨error, text, hError, -⟩
    by_contra hBound
    obtain ⟨result, hOk, -⟩ := exists_remaps bindings hComplete dual hBound
    cases hError.symm.trans hOk
  · intro hUnbound
    obtain ⟨slot, hError⟩ := specialize_eq_error hComplete dual hUnbound
    exact ⟨_, _, hError, rfl⟩
  · intro location index hLocation hIndex
    obtain ⟨hNe, hLocationFree, hIndexFree, -⟩ :=
      secondBlendOutput?_apart hComplete (secondBlendOutput?_of_offset? hLocation hIndex)
    exact ⟨hNe, hLocationFree, hIndexFree⟩

end Specialize

/-- A template with two slots, a constant whose id is final already, and a second blend output. -/
def blendTemplate : Code :=
  ⟨.headed, [Header.magic, Header.version, 0, 20, 0] ++
    [encode Op.decorate [7, Decoration.binding, 5],
      encode Op.decorate [8, Decoration.specId, 2000],
      encode Op.decorate [9, Decoration.location, 1],
      encode Op.decorate [9, Decoration.index, 0],
      encode Op.decorate [10, Decoration.binding, 3]].flatten⟩

/-- Slot five comes first and slot three second. -/
def blendBindings : Bindings := fun slot =>
  if slot = 5 then some 0 else if slot = 3 then some 1 else none

def blendSpecialized : Code :=
  ⟨.headed, [Header.magic, Header.version, 0, 20, 0] ++
    [encode Op.decorate [7, Decoration.binding, 0],
      encode Op.decorate [8, Decoration.specId, 2000],
      encode Op.decorate [9, Decoration.location, 0],
      encode Op.decorate [9, Decoration.index, 1],
      encode Op.decorate [10, Decoration.binding, 1]].flatten⟩

theorem completeDecorations_blendTemplate : CompleteDecorations blendTemplate := by
  have hAll : (blendTemplate.instructions.all fun ins => decide (4 ≤ ins.length)) = true := by cbv
  exact fun ins hMem _ => of_decide_eq_true (List.all_eq_true.1 hAll ins hMem)

theorem specialize_remaps_blendTemplate :
    CompleteDecorations blendTemplate ∧
    specialize blendTemplate (.ofCode blendTemplate) blendBindings { dualSourceBlend := true } =
      .ok blendSpecialized ∧
    Remaps blendTemplate blendBindings true blendSpecialized := by
  have hRun : specialize blendTemplate (.ofCode blendTemplate) blendBindings
      { dualSourceBlend := true } = .ok blendSpecialized := by cbv
  have hSpecialized := specialize_remaps blendTemplate blendBindings true
    completeDecorations_blendTemplate
  have hBound : ¬∃ ins ∈ blendTemplate.instructions, ins.bindsSlot = true ∧
      ins.arg 3 < slotLimit ∧ blendBindings (ins.arg 3) = none := by
    intro hUnbound
    obtain ⟨error, text, hError, -⟩ := hSpecialized.1.2 hUnbound
    cases hRun.symm.trans hError
  obtain ⟨result, hOk, hRemaps⟩ := hSpecialized.2.1 hBound
  cases hRun.symm.trans hOk
  exact ⟨completeDecorations_blendTemplate, hRun, hRemaps⟩

end ShaderBackend.Spirv
