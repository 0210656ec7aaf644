import Mathlib.Data.Finset.Card
import ShaderBackend.Proofs.Shader.SlotIndex

/-! A mapping as a function of the declarations that were made. The id of a slot counts the slots
in front of it. Its entry is what its own declarations say together, and of their order only the
first one shows. -/
namespace ShaderBackend.Shader

/-- Declarations in the order in which they were made. -/
abbrev History := List Declaration

namespace History

/-- The declared slots, as often as they are declared. -/
def slots (h : History) : List UInt32 := h.map (·.slot)

/-- The declarations of one slot. -/
def about (h : History) (slot : UInt32) : History := h.filter (·.slot = slot)

def stages (h : History) : StageSet := .ofStages (h.map (·.stage))

def access (h : History) : Render.AccessFlags := h.foldl (fun set d => set ||| d.decl.access) 0

/-- What the declarations of a slot say together. Type and view are those of the first of them. -/
def bindingOf? (h : History) (slot : UInt32) : Option DescriptorBinding :=
  (about h slot).head?.map fun first =>
    { slot := slot
      descriptorType := first.decl.descriptorType
      viewType := first.decl.viewType
      stages := stages (about h slot)
      access := access (about h slot) }

/-- How many slots were declared before this one was. -/
def rank (h : History) (slot : UInt32) : Nat :=
  (slots (h.takeWhile (·.slot ≠ slot))).toFinset.card

section Closed

variable {h : History} {d : Declaration} {slot : UInt32}

/-- What is said about a slot grows by the declarations of this slot and by no other. -/
theorem about_concat_of_eq (hSame : d.slot = slot) :
    about (h ++ [d]) slot = about h slot ++ [d] := by
  simp [about, hSame]

theorem about_concat_of_ne (hOther : d.slot ≠ slot) : about (h ++ [d]) slot = about h slot := by
  simp [about, hOther]

theorem stages_concat (h : History) (d : Declaration) :
    stages (h ++ [d]) = stages h ||| d.stage.flag := by
  simp [stages, StageSet.ofStages]

/-- Accesses are joined, so none that was declared is lost. -/
theorem access_concat (h : History) (d : Declaration) :
    access (h ++ [d]) = access h ||| d.decl.access := by
  simp [access]

/-- A declaration opens the entry of its slot or widens it, and leaves the other entries alone. -/
theorem bindingOf?_concat (h : History) (d : Declaration) (slot : UInt32) :
    bindingOf? (h ++ [d]) slot =
      if d.slot = slot then some (((bindingOf? h slot).map d.widens).getD d.opens)
      else bindingOf? h slot := by
  by_cases hSame : d.slot = slot
  · rw [if_pos hSame, bindingOf?, bindingOf?, about_concat_of_eq hSame, stages_concat,
      access_concat]
    cases about h slot with
    | nil => simp [Declaration.opens, stages, access, StageSet.ofStages, hSame]
    | cons first rest => simp [Declaration.widens]
  · rw [if_neg hSame, bindingOf?, bindingOf?, about_concat_of_ne hSame]

/-- The first declaration of a slot stands behind those that its rank counts. -/
theorem exists_first (hMem : slot ∈ slots h) :
    ∃ d rest, d.slot = slot ∧ h = h.takeWhile (·.slot ≠ slot) ++ d :: rest := by
  induction h with
  | nil => cases hMem
  | cons d rest ih =>
      by_cases hSame : d.slot = slot
      · exact ⟨d, rest, hSame, by simp [hSame]⟩
      · have hLater : slot ∈ slots rest := (List.mem_cons.1 hMem).resolve_left (Ne.symm hSame)
        obtain ⟨first, later, hFirst, hRest⟩ := ih hLater
        refine ⟨first, later, hFirst, ?_⟩
        rw [List.takeWhile_cons_of_pos (by simpa using hSame), List.cons_append, ← hRest]

/-- In front of the first declaration of a slot there is none of it. -/
theorem not_mem_slots_takeWhile (h : History) (slot : UInt32) :
    slot ∉ slots (h.takeWhile (·.slot ≠ slot)) := by
  intro hMem
  obtain ⟨d, hMem, hSame⟩ := List.mem_map.1 hMem
  simpa [hSame] using List.all_eq_true.1 List.all_takeWhile d hMem

end Closed

section Orders

variable {h other : History}

/-- Whether the declarations of a slot all say the same of something. -/
def Agrees {α : Type} (h : History) (slot : UInt32) (field : ResourceSlot → α) : Prop :=
  ∀ d ∈ about h slot, ∀ e ∈ about h slot, field d.decl = field e.decl

/-- A union does not depend on an order. -/
theorem foldl_or_perm {α : Type} (bits : α → UInt32) {as bs : List α} (hPerm : as.Perm bs) :
    as.foldl (fun set a => set ||| bits a) 0 = bs.foldl (fun set a => set ||| bits a) 0 := by
  refine hPerm.foldl_eq' (fun a _ b _ set => ?_) 0
  rw [UInt32.or_assoc, UInt32.or_comm (bits a), ← UInt32.or_assoc]

/-- The joined stages do not depend on the order of the declarations. -/
theorem stages_perm (hPerm : h.Perm other) : stages h = stages other :=
  foldl_or_perm Stage.flag (hPerm.map _)

theorem access_perm (hPerm : h.Perm other) : access h = access other :=
  foldl_or_perm (fun d : Declaration => d.decl.access) hPerm

end Orders

end History

/-- Entries that differ at most where the declarations of their slot do. -/
structure DescriptorBinding.SameUse (h : History) (a b : DescriptorBinding) : Prop where
  slot : a.slot = b.slot
  stages : a.stages = b.stages
  access : a.access = b.access
  descriptorType : History.Agrees h a.slot (·.descriptorType) → a.descriptorType = b.descriptorType
  viewType : History.Agrees h a.slot (·.viewType) → a.viewType = b.viewType

/-- In another order a slot has the same entry, except for what its first declaration decides. -/
theorem History.rel_bindingOf? {h other : History} (hPerm : h.Perm other) (slot : UInt32) :
    Option.Rel (DescriptorBinding.SameUse h) (bindingOf? h slot) (bindingOf? other slot) := by
  have hAbout : (about h slot).Perm (about other slot) := hPerm.filter _
  rw [bindingOf?, bindingOf?, stages_perm hAbout, access_perm hAbout]
  cases hFirst : about h slot with
  | nil =>
      rw [hFirst] at hAbout
      rw [← hAbout.nil_eq]
      exact .none
  | cons first rest =>
      cases hSecond : about other slot with
      | nil =>
          rw [hSecond] at hAbout
          cases hFirst.symm.trans hAbout.eq_nil
      | cons second later =>
          have hBoth : first ∈ about h slot ∧ second ∈ about h slot :=
            ⟨hFirst ▸ List.mem_cons_self, hAbout.mem_iff.2 (hSecond ▸ List.mem_cons_self)⟩
          exact .some ⟨rfl, rfl, rfl, fun hAgrees => hAgrees _ hBoth.1 _ hBoth.2,
            fun hAgrees => hAgrees _ hBoth.1 _ hBoth.2⟩

namespace DescriptorMapping

/-- The mapping that a history makes of an empty one. -/
def ofHistory (h : History) : DescriptorMapping := h.foldl add {}

/-- The entry of a slot, looked up through its id. -/
def bindingOf? (m : DescriptorMapping) (slot : UInt32) : Option DescriptorBinding :=
  (m.idOf? slot).bind fun id => m.bindings[id.toNat]?

section Histories

theorem ofHistory_concat (h : History) (d : Declaration) :
    ofHistory (h ++ [d]) = (ofHistory h).add d := List.foldl_concat _ _ _ _

/-- A history is a run of calls. -/
theorem ofHistory_eq_ofCalls (h : History) :
    ofHistory h = ofCalls (h.map fun d => .slot d.stage d.decl) := by
  rw [ofCalls, List.foldl_map]
  rfl

theorem nodup_slots_ofHistory (h : History) : (ofHistory h).slots.Nodup :=
  ofHistory_eq_ofCalls h ▸ nodup_slots_ofCalls _

/-- Later declarations move no entry. -/
theorem grows_ofHistory_append (h later : History) :
    (ofHistory h).Grows (ofHistory (h ++ later)) := by
  rw [ofHistory_eq_ofCalls, ofHistory_eq_ofCalls, List.map_append]
  exact grows_ofCalls_append _ _

theorem pushConst_ofHistory (h : History) : (ofHistory h).pushConst = none := by
  induction h using List.reverseRecOn with
  | nil => rfl
  | append_singleton h d ih => rw [ofHistory_concat]; exact ih

end Histories

section Entries

variable {m : DescriptorMapping}

/-- What a declaration does to the entry of any slot. -/
theorem find?_merge (d : Declaration) (bindings : List DescriptorBinding) (slot : UInt32) :
    (merge d.stage d.decl bindings).find? (·.slot = slot) =
      if d.slot = slot then
        some (((bindings.find? (·.slot = slot)).map d.widens).getD d.opens)
      else bindings.find? (·.slot = slot) := by
  induction bindings with
  | nil =>
      rw [merge_nil]
      by_cases hSame : d.slot = slot <;> simp [hSame]
  | cons binding rest ih =>
      rw [merge_cons]
      by_cases hHere : binding.slot = d.slot
      · by_cases hSame : d.slot = slot <;> simp [hHere, hSame]
      · by_cases hSlot : binding.slot = slot
        · have hOther : d.slot ≠ slot := fun hSame => hHere (hSlot.trans hSame.symm)
          rw [if_neg hHere]
          simp [hSlot, hOther]
        · rw [if_neg hHere, List.find?_cons_of_neg (by simpa using hSlot), ih,
            List.find?_cons_of_neg (by simpa using hSlot)]

/-- The entry of a slot holds what the whole history says about it. -/
theorem find?_ofHistory (h : History) (slot : UInt32) :
    (ofHistory h).bindings.find? (·.slot = slot) = History.bindingOf? h slot := by
  induction h using List.reverseRecOn with
  | nil => rfl
  | append_singleton h d ih =>
      rw [ofHistory_concat, History.bindingOf?_concat, ← ih]
      exact find?_merge d _ slot

/-- Searching the entries leads to the same one as the id does. -/
theorem bindingOf?_eq_find? (hNodup : m.slots.Nodup) (slot : UInt32) :
    m.bindingOf? slot = m.bindings.find? (·.slot = slot) := by
  rw [bindingOf?, List.find?_eq_bind_findIdx?_getElem?]
  cases hId : m.idOf? slot with
  | none => rw [idOf?_eq_none_iff.1 hId]; rfl
  | some id => rw [(idOf?_eq_some_iff hNodup).1 hId]; rfl

theorem bindingOf?_ofHistory (h : History) (slot : UInt32) :
    (ofHistory h).bindingOf? slot = History.bindingOf? h slot := by
  rw [bindingOf?_eq_find? (nodup_slots_ofHistory h), find?_ofHistory]

end Entries

section Ranks

variable {m : DescriptorMapping} {h : History} {slot id : UInt32}

/-- The mapping knows the slots of its history. -/
theorem mem_slots_ofHistory : slot ∈ (ofHistory h).slots ↔ slot ∈ History.slots h := by
  induction h using List.reverseRecOn with
  | nil => rfl
  | append_singleton h d ih =>
      rw [ofHistory_concat, slots_add, History.slots, List.map_append, List.mem_append,
        ← History.slots, ← ih]
      by_cases hKnown : d.slot ∈ (ofHistory h).slots
      · rw [if_pos hKnown]
        simp only [List.map_cons, List.map_nil, List.mem_singleton]
        exact ⟨.inl, fun hMem => hMem.elim id fun hSame => hSame ▸ hKnown⟩
      · rw [if_neg hKnown, List.mem_append]
        rfl

/-- Every slot has one entry, however often it is declared. -/
theorem length_bindings_ofHistory (h : History) :
    (ofHistory h).bindings.length = (History.slots h).toFinset.card := by
  have hSame : (ofHistory h).slots.toFinset = (History.slots h).toFinset := by
    ext slot
    rw [List.mem_toFinset, List.mem_toFinset, mem_slots_ofHistory]
  rw [← length_slots, ← List.toFinset_card_of_nodup (nodup_slots_ofHistory h), hSame]

theorem bindings_ofHistory_eq_nil_iff : (ofHistory h).bindings = [] ↔ h = [] := by
  rw [← List.length_eq_zero_iff, length_bindings_ofHistory, Finset.card_eq_zero,
    List.toFinset_eq_empty_iff, History.slots, List.map_eq_nil_iff]

/-- A slot stands behind those that were declared before it. -/
theorem findIdx?_slots_ofHistory (hMem : slot ∈ History.slots h) :
    (ofHistory h).slots.findIdx? (· = slot) = some (History.rank h slot) := by
  -- What follows the first declaration only adds slots behind the one that it has added.
  obtain ⟨d, rest, rfl, hSplit⟩ := History.exists_first hMem
  have hNew : d.slot ∉ (ofHistory (h.takeWhile (·.slot ≠ d.slot))).slots := fun hOld =>
    History.not_mem_slots_takeWhile h d.slot (mem_slots_ofHistory.1 hOld)
  obtain ⟨later, hLater⟩ :=
    (grows_ofHistory_append (h.takeWhile (·.slot ≠ d.slot) ++ [d]) rest).slots
  rw [List.append_assoc, List.singleton_append, ← hSplit, ofHistory_concat, slots_add,
    if_neg hNew] at hLater
  rw [← hLater, List.append_assoc, List.findIdx?_append, findIdx?_slots_eq_none hNew, length_slots,
    length_bindings_ofHistory]
  simp [History.rank, List.findIdx?_cons]

/-- An id is the number of slots that appeared before, counted without repetition. -/
theorem toNat_of_idOf?_ofHistory (hId : (ofHistory h).idOf? slot = some id) :
    id.toNat = History.rank h slot := by
  have hMem := mem_slots_ofHistory.1 (exists_idOf?_iff_mem.1 ⟨id, hId⟩)
  have hIndex := findIdx?_slots_ofHistory hMem
  rw [findIdx?_slots, (idOf?_eq_some_iff (nodup_slots_ofHistory h)).1 hId] at hIndex
  exact Option.some.inj hIndex

end Ranks

section Range

variable {m : DescriptorMapping} {id : UInt32}

/-- Every id belongs to an entry, and every entry has one. -/
theorem exists_idOf?_iff_lt (hNodup : m.slots.Nodup) :
    (∃ slot, m.idOf? slot = some id) ↔ id.toNat < m.bindings.length := by
  constructor
  · rintro ⟨slot, hId⟩
    exact (List.findIdx?_eq_some_iff_getElem.1 ((idOf?_eq_some_iff hNodup).1 hId)).1
  · intro hInside
    have hMem : m.bindings[id.toNat].slot ∈ m.slots :=
      List.mem_map_of_mem (List.getElem_mem hInside)
    obtain ⟨other, hOther, hOnly⟩ := exists_idOf? hNodup hMem
    have hIndex : id.toNat = other.toNat := by
      rw [← hOnly, List.getElem?_eq_getElem hInside]
      rfl
    exact ⟨_, (UInt32.toNat_inj.1 hIndex).symm ▸ hOther⟩

/-- The last id is one below the count, also where the count of all slots is cut off to zero. -/
theorem lt_length_iff_le_count (hNodup : m.slots.Nodup) :
    id.toNat < m.bindings.length ↔ m.bindings ≠ [] ∧ id ≤ m.count - 1 := by
  have hFew : m.bindings.length ≤ UInt32.size := length_slots m ▸ length_slots_le hNodup
  have hOne : (1 : UInt32).toNat = 1 := rfl
  have hId := id.toNat_lt
  rw [UInt32.le_iff_toNat_le, count, UInt32.toNat_sub, UInt32.toNat_ofNat', hOne,
    ← List.length_pos_iff]
  simp only [UInt32.size] at hFew
  omega

end Range

/-- What a mapping says of its history: which slots were declared, in which order they came, and
what was said of each. -/
structure Records (m : DescriptorMapping) (h : History) : Prop where
  known : ∀ slot, (∃ id, m.idOf? slot = some id) ↔ slot ∈ History.slots h
  rank : ∀ slot id, m.idOf? slot = some id → id.toNat = History.rank h slot
  gapless : ∀ id, (∃ slot, m.idOf? slot = some id) ↔ h ≠ [] ∧ id ≤ m.count - 1
  apart : ∀ slot other id, m.idOf? slot = some id → m.idOf? other = some id → slot = other
  length : m.bindings.length = (History.slots h).toFinset.card
  entry : ∀ slot, m.bindingOf? slot = History.bindingOf? h slot

/-- Each slot is stored as its history says, and at the place of its first declaration. -/
theorem records_ofHistory (h : History) : (ofHistory h).Records h where
  known slot := exists_idOf?_iff_mem.trans mem_slots_ofHistory
  rank slot id := toNat_of_idOf?_ofHistory
  gapless id := by
    have hNodup := nodup_slots_ofHistory h
    rw [exists_idOf?_iff_lt hNodup, lt_length_iff_le_count hNodup, ne_eq,
      bindings_ofHistory_eq_nil_iff]
  apart slot other id hFirst hSecond := by
    have hEntry := slot_of_idOf? (nodup_slots_ofHistory h) hFirst
    rw [slot_of_idOf? (nodup_slots_ofHistory h) hSecond] at hEntry
    exact (Option.some.inj hEntry).symm
  length := length_bindings_ofHistory h
  entry := bindingOf?_ofHistory h

/-- A mapping is determined by the declarations that were made. Its ids count the slots in the order
of their first declaration, and no later declaration changes them. The entry of a slot is what its
own declarations say together, and is always found where the table of ids looks for it. In another
order the declarations give every slot the same entry, up to what they disagree on. -/
theorem ofHistory_determined (h : History) :
    (ofHistory h).Records h ∧
    (∃ indexed, h.foldlM IndexedMapping.add {} = .ok indexed ∧ indexed.Mirrors (ofHistory h)) ∧
    (∀ later slot id, (ofHistory h).idOf? slot = some id →
      (ofHistory (h ++ later)).idOf? slot = some id) ∧
    ∀ other : History, h.Perm other →
      (ofHistory h).count = (ofHistory other).count ∧
      (ofHistory h).pushConst = (ofHistory other).pushConst ∧
      ∀ slot, Option.Rel (DescriptorBinding.SameUse h) ((ofHistory h).bindingOf? slot)
        ((ofHistory other).bindingOf? slot) := by
  refine ⟨records_ofHistory h, ?_, fun later slot id => (grows_ofHistory_append h later).idOf?, ?_⟩
  · have hStart : IndexedMapping.Mirrors {} {} := ⟨rfl, fun _ => rfl⟩
    exact hStart.exists_run List.nodup_nil h
  · intro other hPerm
    refine ⟨?_, by rw [pushConst_ofHistory, pushConst_ofHistory], fun slot => ?_⟩
    · have hSlots : (History.slots h).Perm (History.slots other) := hPerm.map _
      rw [count, count, length_bindings_ofHistory, length_bindings_ofHistory,
        List.toFinset_eq_of_perm _ _ hSlots]
    · rw [bindingOf?_ofHistory, bindingOf?_ofHistory]
      exact History.rel_bindingOf? hPerm slot

/-- The vertex shader and the fragment shader take slot eight for different things. -/
def clashingHistory : History :=
  [⟨.vertex, { slot := 8, descriptorType := .storageImage, viewType := some .image2D }⟩,
   ⟨.vertex, { slot := 3, descriptorType := .sampler }⟩,
   ⟨.fragment, { slot := 8, descriptorType := .storageBuffer, access := 0x40 }⟩]

/-- In reverse order slot eight keeps its id, stages and accesses, and becomes a buffer. -/
theorem ofHistory_determined_clashing :
    (ofHistory clashingHistory).idOf? 3 = some 1 ∧
    (ofHistory (clashingHistory ++ clashingHistory)).idOf? 3 = some 1 ∧
    clashingHistory.Perm clashingHistory.reverse ∧
    Option.Rel (DescriptorBinding.SameUse clashingHistory)
      ((ofHistory clashingHistory).bindingOf? 8)
      ((ofHistory clashingHistory.reverse).bindingOf? 8) ∧
    (ofHistory clashingHistory).bindingOf? 8 ≠
      (ofHistory clashingHistory.reverse).bindingOf? 8 := by
  obtain ⟨-, -, hStable, hOrders⟩ := ofHistory_determined clashingHistory
  have hId : (ofHistory clashingHistory).idOf? 3 = some 1 := by decide
  have hPerm := (List.reverse_perm clashingHistory).symm
  exact ⟨hId, hStable _ 3 1 hId, hPerm, (hOrders _ hPerm).2.2 8, by decide⟩

end DescriptorMapping
end ShaderBackend.Shader
