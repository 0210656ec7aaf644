import Mathlib.Data.List.Perm.Subperm
import ShaderBackend.Proofs.Spirv.Remapping
import ShaderBackend.Shader.Basic

/-! Registration of slots, followed over any number of calls. The slots of a mapping are
distinct and only ever grow at the end, so an id is the rank of a slot and no later call
gives it to another one. What a specialization has once looked up it finds again. -/
namespace ShaderBackend.Spirv

section Growth

variable {bindings larger : Bindings}

/-- Whether the second bindings give every id that the first ones give. -/
def Bindings.Grows (bindings larger : Bindings) : Prop :=
  ∀ slot id, bindings slot = some id → larger slot = some id

/-- A literal that a mapping already translates gets the same id from any mapping that has grown out
of it. -/
theorem remapSlot_mono (hGrows : bindings.Grows larger) {code result : Code} {offset : Nat}
    (h : remapSlot bindings code offset = .ok result) :
    remapSlot larger code offset = .ok result := by
  rw [remapSlot] at h ⊢
  cases hRead : code.readWord offset with
  | error e =>
      rw [hRead] at h
      cases h
  | ok slot =>
      rw [hRead] at h
      change (if slot < slotLimit then _ else _) = _ at h
      change (if slot < slotLimit then _ else _) = _
      split at h
      · rename_i hSlot
        rw [if_pos hSlot]
        cases hId : bindings slot with
        | none =>
            rw [hId] at h
            cases h
        | some id =>
            rw [hGrows slot id hId]
            rw [hId] at h
            exact h
      · rename_i hFixed
        rw [if_neg hFixed]
        exact h

theorem foldlM_remapSlot_mono (hGrows : bindings.Grows larger) {offsets : List Nat}
    {code result : Code} (h : offsets.foldlM (remapSlot bindings) code = .ok result) :
    offsets.foldlM (remapSlot larger) code = .ok result := by
  induction offsets generalizing code with
  | nil => exact h
  | cons offset rest ih =>
      rw [List.foldlM_cons] at h ⊢
      cases hFirst : remapSlot bindings code offset with
      | error e =>
          rw [hFirst] at h
          cases h
      | ok next =>
          rw [hFirst] at h
          rw [remapSlot_mono hGrows hFirst]
          exact ih h

/-- A specialization that has found all its slots comes out the same with more of them. -/
theorem specialize_mono (hGrows : bindings.Grows larger) {template result : Code}
    {survey : Survey} {variant : Variant}
    (h : specialize template survey bindings variant = .ok result) :
    specialize template survey larger variant = .ok result := by
  rw [specialize_eq, remapSlots] at h ⊢
  cases hRemapped : survey.slotOffsets.foldlM (remapSlot bindings) template with
  | error e =>
      rw [hRemapped] at h
      cases h
  | ok remapped =>
      rw [hRemapped] at h
      rw [foldlM_remapSlot_mono hGrows hRemapped]
      exact h

end Growth

end ShaderBackend.Spirv

namespace ShaderBackend.Shader

namespace DescriptorMapping

/-- The slots in the order of their ids. -/
def slots (m : DescriptorMapping) : List UInt32 := m.bindings.map (·.slot)

/-- A declaration appends its slot unless the slot is known. -/
theorem map_slot_merge (stage : Stage) (decl : ResourceSlot) (bindings : List DescriptorBinding) :
    (merge stage decl bindings).map (·.slot) =
      if decl.slot ∈ bindings.map (·.slot) then bindings.map (·.slot)
      else bindings.map (·.slot) ++ [decl.slot] := by
  induction bindings with
  | nil => rfl
  | cons binding rest ih =>
      rw [merge]
      by_cases hSame : binding.slot = decl.slot
      · simp [hSame]
      · rw [if_neg hSame, List.map_cons, ih]
        by_cases hLater : decl.slot ∈ rest.map (·.slot)
        · simp [hLater]
        · simp [hLater, Ne.symm hSame]

/-- A declaration appends its slot if the mapping does not have it, and moves no other slot. -/
theorem slots_declare (m : DescriptorMapping) (stage : Stage) (decl : ResourceSlot) :
    (m.declare stage decl).slots =
      if decl.slot ∈ m.slots then m.slots else m.slots ++ [decl.slot] :=
  map_slot_merge stage decl m.bindings

/-- The second mapping comes from the first one by appending new slots. -/
structure Grows (m larger : DescriptorMapping) : Prop where
  slots : m.slots <+: larger.slots
  nodup : m.slots.Nodup → larger.slots.Nodup

namespace Grows

variable {m middle larger : DescriptorMapping}

theorem refl (m : DescriptorMapping) : m.Grows m := ⟨List.prefix_rfl, id⟩

theorem trans (hFirst : m.Grows middle) (hSecond : middle.Grows larger) : m.Grows larger :=
  ⟨hFirst.slots.trans hSecond.slots, hSecond.nodup ∘ hFirst.nodup⟩

end Grows

theorem grows_declare (m : DescriptorMapping) (stage : Stage) (decl : ResourceSlot) :
    m.Grows (m.declare stage decl) := by
  constructor
  · rw [slots_declare]
    split
    · exact List.prefix_rfl
    · exact List.prefix_append _ _
  · intro hNodup
    rw [slots_declare]
    split
    · exact hNodup
    · rename_i hNew
      rw [← List.concat_eq_append]
      exact hNodup.concat hNew

theorem grows_foldl_declare (m : DescriptorMapping) (stage : Stage) (decls : List ResourceSlot) :
    m.Grows (decls.foldl (fun m decl => m.declare stage decl) m) := by
  induction decls generalizing m with
  | nil => exact .refl m
  | cons decl rest ih => exact (grows_declare m stage decl).trans (ih _)

/-- No declaration is lost, since later ones keep the slots of earlier ones. -/
theorem mem_slots_foldl_declare (m : DescriptorMapping) (stage : Stage)
    {decls : List ResourceSlot} {decl : ResourceSlot} (h : decl ∈ decls) :
    decl.slot ∈ (decls.foldl (fun m decl => m.declare stage decl) m).slots := by
  induction decls generalizing m with
  | nil => simp at h
  | cons first rest ih =>
      rw [List.foldl_cons]
      rcases List.mem_cons.1 h with rfl | hRest
      · apply (grows_foldl_declare _ stage rest).slots.subset
        rw [slots_declare]
        split
        · assumption
        · simp
      · exact ih _ hRest

end DescriptorMapping

/-- Push constants do not touch the slots. -/
theorem slots_declareSlots (s : Shader) (m : DescriptorMapping) :
    (s.declareSlots m).slots = (s.slots.foldl (fun m slot => m.declare s.stage slot) m).slots := by
  rw [declareSlots]
  split <;> rfl

theorem grows_declareSlots (s : Shader) (m : DescriptorMapping) : m.Grows (s.declareSlots m) := by
  have hGrows := DescriptorMapping.grows_foldl_declare m s.stage s.slots
  exact ⟨slots_declareSlots s m ▸ hGrows.slots, slots_declareSlots s m ▸ hGrows.nodup⟩

/-- One call that registers slots. -/
inductive Registration where
  | slot (stage : Stage) (decl : ResourceSlot)
  /-- All slots of a shader, and its push constants. -/
  | shader (s : Shader)

namespace DescriptorMapping

def register (m : DescriptorMapping) : Registration → DescriptorMapping
  | .slot stage decl => m.declare stage decl
  | .shader s => s.declareSlots m

/-- The mapping that a run of calls makes of an empty one. -/
def ofCalls (calls : List Registration) : DescriptorMapping := calls.foldl register {}

/-- Every call grows the mapping, whether it declares a slot or a whole shader. -/
theorem grows_register (m : DescriptorMapping) (call : Registration) :
    m.Grows (m.register call) := by
  cases call with
  | slot stage decl => exact grows_declare m stage decl
  | shader s => exact grows_declareSlots s m

theorem grows_foldl_register (m : DescriptorMapping) (calls : List Registration) :
    m.Grows (calls.foldl register m) := by
  induction calls generalizing m with
  | nil => exact .refl m
  | cons call rest ih => exact (grows_register m call).trans (ih _)

/-- What is known after some calls is known after more of them, at the same places. -/
theorem grows_ofCalls_append (calls later : List Registration) :
    (ofCalls calls).Grows (ofCalls (calls ++ later)) := by
  rw [ofCalls, ofCalls, List.foldl_append]
  exact grows_foldl_register _ later

theorem nodup_slots_ofCalls (calls : List Registration) : (ofCalls calls).slots.Nodup :=
  (grows_foldl_register {} calls).nodup List.nodup_nil

/-- The slots of a shader are known from its registration on. -/
theorem mem_slots_ofCalls {calls : List Registration} {s : Shader}
    (hCall : Registration.shader s ∈ calls) {decl : ResourceSlot} (hDecl : decl ∈ s.slots) :
    decl.slot ∈ (ofCalls calls).slots := by
  obtain ⟨before, later, rfl⟩ := List.append_of_mem hCall
  rw [ofCalls, List.foldl_append, List.foldl_cons]
  apply (grows_foldl_register _ later).slots.subset
  rw [register, slots_declareSlots]
  exact mem_slots_foldl_declare _ _ hDecl

section Ids

variable {m larger : DescriptorMapping} {slot : UInt32}

/-- The id of a slot is its place among the slots. -/
theorem idOf?_eq (m : DescriptorMapping) (slot : UInt32) :
    m.idOf? slot = (m.slots.findIdx? (· = slot)).map UInt32.ofNat := by
  rw [idOf?, slots, List.findIdx?_map]
  rfl

/-- A known slot keeps its id while others join behind it. -/
theorem Grows.idOf? (h : m.Grows larger) {id : UInt32} (hId : m.idOf? slot = some id) :
    larger.idOf? slot = some id := by
  obtain ⟨new, hNew⟩ := h.slots
  rw [idOf?_eq, Option.map_eq_some_iff] at hId
  obtain ⟨index, hIndex, rfl⟩ := hId
  rw [idOf?_eq, ← hNew, List.findIdx?_append, hIndex]
  rfl

/-- There are no more slots than words, so no index is cut off. -/
theorem length_slots_le (h : m.slots.Nodup) : m.slots.length ≤ UInt32.size := by
  have hNumbers : (m.slots.map UInt32.toNat).Nodup :=
    h.map fun _ _ hSame => UInt32.toNat_inj.1 hSame
  have hSubset : m.slots.map UInt32.toNat ⊆ List.range UInt32.size := by
    intro number hMem
    obtain ⟨slot, -, rfl⟩ := List.mem_map.1 hMem
    exact List.mem_range.2 slot.toNat_lt
  have hLength := (hNumbers.subperm hSubset).length_le
  rwa [List.length_map, List.length_range] at hLength

/-- The id of a known slot is the index of its entry, and it has no other entry. -/
theorem exists_idOf? (hNodup : m.slots.Nodup) (h : slot ∈ m.slots) :
    ∃ id, m.idOf? slot = some id ∧
      ∀ index, (m.bindings[index]?).map (·.slot) = some slot ↔ index = id.toNat := by
  obtain ⟨index, hIndex⟩ : ∃ index, m.slots.findIdx? (· = slot) = some index := by
    rw [← Option.isSome_iff_exists, List.findIdx?_isSome, List.any_eq_true]
    exact ⟨slot, h, by simp⟩
  obtain ⟨hInside, hSlot, -⟩ := List.findIdx?_eq_some_iff_getElem.1 hIndex
  have hEntry : m.slots[index]? = some slot := by
    rw [List.getElem?_eq_getElem hInside, of_decide_eq_true hSlot]
  have hFits : (UInt32.ofNat index).toNat = index :=
    UInt32.toNat_ofNat_of_lt' (Nat.lt_of_lt_of_le hInside (length_slots_le hNodup))
  refine ⟨UInt32.ofNat index, by rw [idOf?_eq, hIndex]; rfl, fun other => ?_⟩
  rw [← List.getElem?_map, hFits]
  change m.slots[other]? = some slot ↔ other = index
  constructor
  · intro hOther
    have hOtherInside := (List.getElem?_eq_some_iff.1 hOther).1
    exact (List.getElem?_inj hOtherInside hNodup).1 (hOther.trans hEntry.symm)
  · rintro rfl
    exact hEntry

/-- Ids that are the indices of entries are equal exactly if the slots are. -/
theorem id_eq_iff {first second : UInt32} {id other : UInt32}
    (hFirst : ∀ index, (m.bindings[index]?).map (·.slot) = some first ↔ index = id.toNat)
    (hSecond : ∀ index, (m.bindings[index]?).map (·.slot) = some second ↔ index = other.toNat) :
    id = other ↔ first = second := by
  constructor
  · rintro rfl
    exact Option.some.inj (((hFirst id.toNat).2 rfl).symm.trans ((hSecond id.toNat).2 rfl))
  · rintro rfl
    exact UInt32.toNat_inj.1 ((hSecond id.toNat).1 ((hFirst id.toNat).2 rfl))

end Ids

end DescriptorMapping

/-- A specialization depends on a mapping through the slots that it looks up only, and later calls
keep their ids. Once a shader is registered with all slots of its template, its specialization
succeeds, and each slot gets the index of its entry wherever it occurs. -/
theorem specialize_registered (calls : List Registration) :
    (∀ (later : List Registration) (s : Shader) (options : ModuleOptions) (code : Spirv.Code),
      s.specialize (.ofCalls calls) options = .ok code →
      s.specialize (.ofCalls (calls ++ later)) options = .ok code) ∧
    ∀ (stage : Stage) (decls : List ResourceSlot) (interface : Interface) (template : Spirv.Code)
      (constants : List UInt32) (threshold : Log.Threshold) (dual : Bool),
      let s := Shader.new stage decls interface template constants threshold
      let m := DescriptorMapping.ofCalls calls
      Registration.shader s ∈ calls →
      Spirv.CompleteDecorations template →
      (∀ ins ∈ template.instructions, ins.bindsSlot = true → ins.arg 3 < Spirv.slotLimit →
        ∃ decl ∈ decls, decl.slot = ins.arg 3) →
      ∃ code, s.specialize m { dualSourceBlend := dual } = .ok code ∧
        (∀ ins ∈ template.instructions, ins.bindsSlot = true → ins.arg 3 < Spirv.slotLimit →
          ∃ id, code.word? ins.decorationLiteral = some id ∧
            ∀ index, (m.bindings[index]?).map (·.slot) = some (ins.arg 3) ↔ index = id.toNat) ∧
        ∀ first ∈ template.instructions, first.bindsSlot = true → first.arg 3 < Spirv.slotLimit →
          ∀ second ∈ template.instructions, second.bindsSlot = true →
            second.arg 3 < Spirv.slotLimit →
            (code.word? first.decorationLiteral = code.word? second.decorationLiteral ↔
              first.arg 3 = second.arg 3) := by
  refine ⟨fun later s options code h => Spirv.specialize_mono ?_ h, ?_⟩
  · exact fun slot id => (DescriptorMapping.grows_ofCalls_append calls later).idOf?
  intro stage decls interface template constants threshold dual s m hCall hComplete hDeclared
  have hNodup := DescriptorMapping.nodup_slots_ofCalls calls
  have hKnown (ins : Spirv.Instruction) (hMem : ins ∈ template.instructions)
      (hSlot : ins.bindsSlot = true) (hBelow : ins.arg 3 < Spirv.slotLimit) :
      ∃ id, m.idOf? (ins.arg 3) = some id ∧
        ∀ index, (m.bindings[index]?).map (·.slot) = some (ins.arg 3) ↔ index = id.toNat := by
    obtain ⟨decl, hDecl, hSame⟩ := hDeclared ins hMem hSlot hBelow
    exact DescriptorMapping.exists_idOf? hNodup
      (hSame ▸ DescriptorMapping.mem_slots_ofCalls hCall hDecl)
  obtain ⟨code, hRun, hRemaps⟩ := Spirv.exists_remaps m.idOf? hComplete dual (by
    rintro ⟨ins, hMem, hSlot, hBelow, hNone⟩
    obtain ⟨id, hId, -⟩ := hKnown ins hMem hSlot hBelow
    cases hNone.symm.trans hId)
  have hWord (ins : Spirv.Instruction) (hMem : ins ∈ template.instructions)
      (hSlot : ins.bindsSlot = true) (hBelow : ins.arg 3 < Spirv.slotLimit) :
      ∃ id, code.word? ins.decorationLiteral = some id ∧
        ∀ index, (m.bindings[index]?).map (·.slot) = some (ins.arg 3) ↔ index = id.toNat := by
    obtain ⟨id, hId, hEntry⟩ := hKnown ins hMem hSlot hBelow
    refine ⟨id, ?_, hEntry⟩
    rw [(hRemaps.slot ins hMem hSlot).2, Spirv.finalId?, if_pos hBelow, hId]
  refine ⟨code, hRun, hWord, ?_⟩
  intro first hFirst hFirstSlot hFirstBelow second hSecond hSecondSlot hSecondBelow
  obtain ⟨id, hFirstWord, hFirstEntry⟩ := hWord first hFirst hFirstSlot hFirstBelow
  obtain ⟨other, hSecondWord, hSecondEntry⟩ := hWord second hSecond hSecondSlot hSecondBelow
  rw [hFirstWord, hSecondWord, Option.some.injEq]
  exact DescriptorMapping.id_eq_iff hFirstEntry hSecondEntry

/-- A shader with two slots and the template that names them. -/
def blendShader : Shader :=
  Shader.new .fragment
    [{ slot := 3, descriptorType := .sampler }, { slot := 5, descriptorType := .uniformBuffer }]
    {} Spirv.blendTemplate [] none

/-- A slot of another stage is registered before the shader. -/
def blendCalls : List Registration :=
  [.slot .vertex { slot := 9, descriptorType := .uniformBuffer }, .shader blendShader]

/-- Slot three has the second entry and slot five the third one. -/
def blendRegistered : Spirv.Code :=
  ⟨.headed, [Spirv.Header.magic, Spirv.Header.version, 0, 20, 0] ++
    [Spirv.encode Spirv.Op.decorate [7, Spirv.Decoration.binding, 2],
      Spirv.encode Spirv.Op.decorate [8, Spirv.Decoration.specId, 2000],
      Spirv.encode Spirv.Op.decorate [9, Spirv.Decoration.location, 1],
      Spirv.encode Spirv.Op.decorate [9, Spirv.Decoration.index, 0],
      Spirv.encode Spirv.Op.decorate [10, Spirv.Decoration.binding, 1]].flatten⟩

theorem specialize_registered_blendShader :
    blendShader.specialize (.ofCalls blendCalls) {} = .ok blendRegistered ∧
    blendShader.specialize (.ofCalls (blendCalls ++
      [.slot .vertex { slot := 7, descriptorType := .sampler }])) {} = .ok blendRegistered ∧
    Registration.shader blendShader ∈ blendCalls ∧
    Spirv.CompleteDecorations Spirv.blendTemplate ∧
    (∀ ins ∈ Spirv.blendTemplate.instructions, ins.bindsSlot = true →
      ins.arg 3 < Spirv.slotLimit → ∃ decl ∈ blendShader.slots, decl.slot = ins.arg 3) ∧
    ∃ code, blendShader.specialize (.ofCalls blendCalls) { dualSourceBlend := false } = .ok code ∧
      ∀ ins ∈ Spirv.blendTemplate.instructions, ins.bindsSlot = true →
        ins.arg 3 < Spirv.slotLimit →
        ∃ id, code.word? ins.decorationLiteral = some id ∧
          ∀ index, ((DescriptorMapping.ofCalls blendCalls).bindings[index]?).map (·.slot) =
            some (ins.arg 3) ↔ index = id.toNat := by
  have hRun : blendShader.specialize (.ofCalls blendCalls) {} = .ok blendRegistered := by cbv
  have hCall : Registration.shader blendShader ∈ blendCalls := by simp [blendCalls]
  have hDeclared : ∀ ins ∈ Spirv.blendTemplate.instructions, ins.bindsSlot = true →
      ins.arg 3 < Spirv.slotLimit → ∃ decl ∈ blendShader.slots, decl.slot = ins.arg 3 := by
    have hAll : (Spirv.blendTemplate.instructions.all fun ins =>
        !ins.bindsSlot || !decide (ins.arg 3 < Spirv.slotLimit) ||
          blendShader.slots.any (·.slot == ins.arg 3)) = true := by cbv
    intro ins hMem hSlot hBelow
    simpa [hSlot, hBelow] using List.all_eq_true.1 hAll ins hMem
  obtain ⟨hStable, hRegistered⟩ := specialize_registered blendCalls
  obtain ⟨code, hOk, hIds, -⟩ := hRegistered .fragment blendShader.slots {} Spirv.blendTemplate []
    none false hCall Spirv.completeDecorations_blendTemplate hDeclared
  exact ⟨hRun, hStable _ blendShader {} _ hRun, hCall,
    Spirv.completeDecorations_blendTemplate, hDeclared, code, hOk, hIds⟩

end ShaderBackend.Shader
