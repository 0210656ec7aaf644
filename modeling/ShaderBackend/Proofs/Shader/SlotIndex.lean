import ShaderBackend.Fault
import ShaderBackend.OrderedMap
import ShaderBackend.Proofs.Shader.Registration

/-! Bindings with a table of ids beside them. A declaration asks the table for the id of its slot
and widens the entry under that id, which would abort if there were none. The table and the entries
stay in step, and what they hold together is what the plain bindings hold. -/
namespace ShaderBackend.Shader

/-- One stage's declaration of a slot. -/
structure Declaration where
  stage : Stage
  decl : ResourceSlot
  deriving DecidableEq

namespace Declaration

def slot (d : Declaration) : UInt32 := d.decl.slot

/-- The entry of a slot after its first declaration. -/
def opens (d : Declaration) : DescriptorBinding where
  slot := d.slot
  descriptorType := d.decl.descriptorType
  viewType := d.decl.viewType
  stages := d.stage.flag
  access := d.decl.access

/-- What every further declaration does to the entry. -/
def widens (d : Declaration) (binding : DescriptorBinding) : DescriptorBinding :=
  { binding with stages := binding.stages ||| d.stage.flag
                 access := binding.access ||| d.decl.access }

@[simp] theorem slot_opens (d : Declaration) : d.opens.slot = d.slot := rfl

@[simp] theorem slot_widens (d : Declaration) (binding : DescriptorBinding) :
    (d.widens binding).slot = binding.slot := rfl

end Declaration

namespace DescriptorMapping

/-- Adds a declaration to a mapping. -/
def add (m : DescriptorMapping) (d : Declaration) : DescriptorMapping := m.declare d.stage d.decl

/-- A new slot goes to the end of the order, a known one changes nothing there. -/
theorem slots_add (m : DescriptorMapping) (d : Declaration) :
    (m.add d).slots = if d.slot ∈ m.slots then m.slots else m.slots ++ [d.slot] :=
  slots_declare m d.stage d.decl

section Merge

variable {d : Declaration} {bindings : List DescriptorBinding}

theorem merge_nil (d : Declaration) : merge d.stage d.decl [] = [d.opens] := rfl

theorem merge_cons (d : Declaration) (binding : DescriptorBinding) (rest : List DescriptorBinding) :
    merge d.stage d.decl (binding :: rest) =
      if binding.slot = d.slot then d.widens binding :: rest
      else binding :: merge d.stage d.decl rest := rfl

/-- A slot without an entry gets one behind the others. -/
theorem merge_of_findIdx?_eq_none (h : bindings.findIdx? (·.slot = d.slot) = none) :
    merge d.stage d.decl bindings = bindings ++ [d.opens] := by
  induction bindings with
  | nil => rfl
  | cons binding rest ih =>
      have hOther : binding.slot ≠ d.slot := by
        simpa using List.findIdx?_eq_none_iff.1 h binding List.mem_cons_self
      have hRest : rest.findIdx? (·.slot = d.slot) = none :=
        List.findIdx?_eq_none_iff.2 fun other hMem =>
          List.findIdx?_eq_none_iff.1 h other (List.mem_cons_of_mem _ hMem)
      rw [merge_cons, if_neg hOther, ih hRest, List.cons_append]

/-- An entry is widened where it stands. -/
theorem exists_merge_eq_set {index : Nat} (h : bindings.findIdx? (·.slot = d.slot) = some index) :
    ∃ binding, bindings[index]? = some binding ∧
      merge d.stage d.decl bindings = bindings.set index (d.widens binding) := by
  induction bindings generalizing index with
  | nil => cases h
  | cons binding rest ih =>
      rw [List.findIdx?_cons] at h
      by_cases hSame : binding.slot = d.slot
      · rw [if_pos (by simpa using hSame), Option.some.injEq] at h
        subst h
        exact ⟨binding, rfl, by rw [merge_cons, if_pos hSame]; rfl⟩
      · rw [if_neg (by simpa using hSame), Option.map_eq_some_iff] at h
        obtain ⟨later, hLater, rfl⟩ := h
        obtain ⟨found, hFound, hMerge⟩ := ih hLater
        exact ⟨found, hFound, by rw [merge_cons, if_neg hSame, hMerge]; rfl⟩

end Merge

section Ids

variable {m : DescriptorMapping} {slot id : UInt32}

/-- Each entry has one slot, so places among slots are places among entries. -/
theorem length_slots (m : DescriptorMapping) : m.slots.length = m.bindings.length :=
  List.length_map _

/-- An id is the index of an entry. -/
theorem idOf?_eq_some_iff (hNodup : m.slots.Nodup) :
    m.idOf? slot = some id ↔ m.bindings.findIdx? (·.slot = slot) = some id.toNat := by
  rw [idOf?, Option.map_eq_some_iff]
  constructor
  · rintro ⟨index, hIndex, rfl⟩
    have hInside : index < m.bindings.length := (List.findIdx?_eq_some_iff_getElem.1 hIndex).1
    have hFits : index < UInt32.size :=
      Nat.lt_of_lt_of_le hInside (length_slots m ▸ length_slots_le hNodup)
    rw [UInt32.toNat_ofNat_of_lt' hFits, hIndex]
  · exact fun h => ⟨id.toNat, h, UInt32.ofNat_toNat⟩

/-- Read backwards, an id is the place of the entry of its slot. -/
theorem slot_of_idOf? (hNodup : m.slots.Nodup) (hId : m.idOf? slot = some id) :
    (m.bindings[id.toNat]?).map (·.slot) = some slot := by
  obtain ⟨hInside, hSlot, -⟩ :=
    List.findIdx?_eq_some_iff_getElem.1 ((idOf?_eq_some_iff hNodup).1 hId)
  rw [List.getElem?_eq_getElem hInside, Option.map_some, of_decide_eq_true hSlot]

theorem idOf?_eq_none_iff : m.idOf? slot = none ↔ m.bindings.findIdx? (·.slot = slot) = none := by
  rw [idOf?, Option.map_eq_none_iff]

theorem findIdx?_slots (m : DescriptorMapping) (slot : UInt32) :
    m.slots.findIdx? (· = slot) = m.bindings.findIdx? (·.slot = slot) := by
  rw [slots, List.findIdx?_map]
  rfl

/-- A slot has an id exactly when it has been declared. -/
theorem exists_idOf?_iff_mem : (∃ id, m.idOf? slot = some id) ↔ slot ∈ m.slots := by
  rw [← Option.isSome_iff_exists, idOf?_eq, Option.isSome_map, List.findIdx?_isSome]
  simp

theorem findIdx?_slots_eq_none (h : slot ∉ m.slots) : m.slots.findIdx? (· = slot) = none := by
  rw [List.findIdx?_eq_none_iff]
  intro other hMem
  simpa using fun hSame : other = slot => h (hSame ▸ hMem)

/-- A known slot keeps the ids of all slots as they are. -/
theorem idOf?_add_of_mem {d : Declaration} (h : d.slot ∈ m.slots) (slot : UInt32) :
    (m.add d).idOf? slot = m.idOf? slot := by
  rw [idOf?_eq, slots_add, if_pos h, ← idOf?_eq]

/-- A new slot gets the next id, and the others keep theirs. -/
theorem idOf?_add_of_not_mem {d : Declaration} (h : d.slot ∉ m.slots) (slot : UInt32) :
    (m.add d).idOf? slot =
      if d.slot = slot then some (UInt32.ofNat m.bindings.length) else m.idOf? slot := by
  rw [idOf?_eq, slots_add, if_neg h, List.findIdx?_append, idOf?_eq]
  by_cases hSame : d.slot = slot
  · simp [findIdx?_slots_eq_none (hSame ▸ h), hSame, length_slots]
  · simp [hSame]

end Ids

end DescriptorMapping

/-- Bindings in the order of their ids, and a table of the ids. -/
structure IndexedMapping where
  bindings : List DescriptorBinding := []
  index : OrderedMap UInt32 UInt32 := {}

namespace IndexedMapping

/-- Takes a declaration to the entry that the table names, or to a new entry and a new id. -/
def add (m : IndexedMapping) (d : Declaration) : Except Failure IndexedMapping :=
  match m.index.get? d.slot with
  | some id =>
    match m.bindings[id.toNat]? with
    | some binding => .ok { m with bindings := m.bindings.set id.toNat (d.widens binding) }
    | none => .error .abort
  | none =>
    .ok { bindings := m.bindings ++ [d.opens]
          index := m.index.insert d.slot (UInt32.ofNat m.bindings.length) }

/-- The table says of every slot what searching the bindings says. -/
structure Mirrors (indexed : IndexedMapping) (m : DescriptorMapping) : Prop where
  bindings : indexed.bindings = m.bindings
  index : ∀ slot, indexed.index.get? slot = m.idOf? slot

variable {indexed : IndexedMapping} {m : DescriptorMapping}

/-- The entry of a known slot is found under its id, and the table need not change. -/
theorem Mirrors.add_known (h : indexed.Mirrors m) (hNodup : m.slots.Nodup) {d : Declaration}
    {id : UInt32} (hId : m.idOf? d.slot = some id) :
    ∃ next, indexed.add d = .ok next ∧ next.Mirrors (m.add d) := by
  obtain ⟨binding, hEntry, hMerge⟩ :=
    DescriptorMapping.exists_merge_eq_set ((DescriptorMapping.idOf?_eq_some_iff hNodup).1 hId)
  have hKnown : d.slot ∈ m.slots := DescriptorMapping.exists_idOf?_iff_mem.1 ⟨id, hId⟩
  refine ⟨{ indexed with bindings := indexed.bindings.set id.toNat (d.widens binding) }, ?_, ?_, ?_⟩
  · simp only [IndexedMapping.add, h.index, hId, h.bindings, hEntry]
  · rw [h.bindings]
    exact hMerge.symm
  · intro slot
    rw [DescriptorMapping.idOf?_add_of_mem hKnown]
    exact h.index slot

/-- A new slot gets the last entry, and the table its index. -/
theorem Mirrors.add_new (h : indexed.Mirrors m) {d : Declaration} (hId : m.idOf? d.slot = none) :
    ∃ next, indexed.add d = .ok next ∧ next.Mirrors (m.add d) := by
  have hNew : d.slot ∉ m.slots := by
    intro hMem
    obtain ⟨id, hSome⟩ := DescriptorMapping.exists_idOf?_iff_mem.2 hMem
    cases hId.symm.trans hSome
  refine ⟨{ bindings := indexed.bindings ++ [d.opens]
            index := indexed.index.insert d.slot (UInt32.ofNat indexed.bindings.length) },
    ?_, ?_, ?_⟩
  · simp only [IndexedMapping.add, h.index, hId]
  · rw [h.bindings]
    exact (DescriptorMapping.merge_of_findIdx?_eq_none
      (DescriptorMapping.idOf?_eq_none_iff.1 hId)).symm
  · intro slot
    rw [OrderedMap.get?_insert, DescriptorMapping.idOf?_add_of_not_mem hNew, h.bindings, h.index]

/-- The index and the entries stay in step through every declaration, and the checked access by
index finds its entry. -/
theorem Mirrors.add (h : indexed.Mirrors m) (hNodup : m.slots.Nodup) (d : Declaration) :
    ∃ next, indexed.add d = .ok next ∧ next.Mirrors (m.add d) := by
  cases hId : m.idOf? d.slot with
  | some id => exact h.add_known hNodup hId
  | none => exact h.add_new hId

/-- No run of declarations leaves the bounds of the entries. -/
theorem Mirrors.exists_run (h : indexed.Mirrors m) (hNodup : m.slots.Nodup)
    (declarations : List Declaration) :
    ∃ final, declarations.foldlM IndexedMapping.add indexed = .ok final ∧
      final.Mirrors (declarations.foldl DescriptorMapping.add m) := by
  induction declarations generalizing indexed m with
  | nil => exact ⟨indexed, rfl, h⟩
  | cons d rest ih =>
      obtain ⟨next, hNext, hMirrors⟩ := h.add hNodup d
      obtain ⟨final, hRun, hFinal⟩ :=
        ih hMirrors ((DescriptorMapping.grows_declare m d.stage d.decl).nodup hNodup)
      exact ⟨final, by rw [List.foldlM_cons, hNext]; exact hRun, hFinal⟩

end IndexedMapping
end ShaderBackend.Shader
