import Mathlib.Data.List.Induction
import ShaderBackend.OrderedMap

/-! Ordered maps and the insertions that they are made of. The last entry of a key decides its value
and the first one its place. -/
namespace ShaderBackend

/-- What a search through a list finds is the first element that has the property. -/
theorem find?_eq_some_iff_first {Element : Type} {p : Element → Bool} {P : Element → Prop}
    {elements : List Element} {x : Element} (h : ∀ y, p y = true ↔ P y) :
    elements.find? p = some x ↔
      ∃ before later, elements = before ++ x :: later ∧ P x ∧ ∀ y ∈ before, ¬P y := by
  rw [List.find?_eq_some_iff_append]
  simp only [← h, Bool.not_eq_true, Bool.not_eq_true']
  constructor
  · rintro ⟨hHere, before, later, hSplit, hBefore⟩
    exact ⟨before, later, hSplit, hHere, hBefore⟩
  · rintro ⟨before, later, hSplit, hHere, hBefore⟩
    exact ⟨hHere, before, later, hSplit, hBefore⟩

namespace OrderedMap

variable {Key Value : Type} [DecidableEq Key]

/-- A write adds its own entry and none besides. -/
theorem mem_put {key : Key} {value : Value} {entries : List (Key × Value)} {entry : Key × Value}
    (h : entry ∈ put key value entries) :
    entry = (key, value) ∨ entry ∈ entries := by
  induction entries with
  | nil => exact Or.inl (by simpa [put] using h)
  | cons first rest ih =>
      rw [put] at h
      split at h
      · rcases List.mem_cons.1 h with h | h
        · exact Or.inl h
        · exact Or.inr (List.mem_cons_of_mem _ h)
      · rcases List.mem_cons.1 h with h | h
        · exact Or.inr (h ▸ List.mem_cons_self ..)
        · exact (ih h).imp id (List.mem_cons_of_mem _)

theorem mem_of_get? {map : OrderedMap Key Value} {key : Key} {value : Value}
    (h : map.get? key = some value) : (key, value) ∈ map.entries := by
  obtain ⟨entry, hFind, rfl⟩ := Option.map_eq_some_iff.1 h
  have hKey : entry.1 = key := by simpa using List.find?_some hFind
  exact hKey ▸ List.mem_of_find?_eq_some hFind

theorem get?_eq_none_iff {map : OrderedMap Key Value} {key : Key} :
    map.get? key = none ↔ key ∉ map.keys := by
  rw [get?, Option.map_eq_none_iff, List.find?_eq_none, keys, List.mem_map]
  simp only [decide_eq_true_iff, not_exists, not_and]

theorem ofList_concat (entries : List (Key × Value)) (entry : Key × Value) :
    ofList (entries ++ [entry]) = (ofList entries).insert entry.1 entry.2 := by
  rw [ofList, List.foldl_append]
  rfl

/-- A map holds nothing that has not been inserted. -/
theorem mem_of_mem_ofList {entries : List (Key × Value)} {entry : Key × Value}
    (h : entry ∈ (ofList entries).entries) : entry ∈ entries := by
  induction entries using List.reverseRecOn with
  | nil => simp [ofList] at h
  | append_singleton entries last ih =>
      rw [ofList_concat] at h
      rcases mem_put h with rfl | hOld
      · exact List.mem_append_right _ (List.mem_singleton_self _)
      · exact List.mem_append_left _ (ih hOld)

/-- No key stands twice, since a write to a known key replaces its value in place. -/
theorem nodup_keys_ofList (entries : List (Key × Value)) : (ofList entries).keys.Nodup := by
  induction entries using List.reverseRecOn with
  | nil => exact List.nodup_nil
  | append_singleton entries entry ih =>
      rw [ofList_concat]
      exact nodup_keys_insert ih entry.1 entry.2

/-- The last entry of a key decides its value. -/
theorem get?_ofList (entries : List (Key × Value)) (key : Key) :
    (ofList entries).get? key = (entries.filter (·.1 = key)).getLast?.map (·.2) := by
  induction entries using List.reverseRecOn with
  | nil => rfl
  | append_singleton entries entry ih =>
      rw [ofList_concat, get?_insert, ih, List.filter_append, List.getLast?_append]
      by_cases hKey : entry.1 = key <;> simp [hKey]

/-- The keys of a table are the keys that were written. -/
theorem mem_keys_ofList {entries : List (Key × Value)} {key : Key} :
    key ∈ (ofList entries).keys ↔ key ∈ entries.map (·.1) := by
  induction entries using List.reverseRecOn with
  | nil => rfl
  | append_singleton entries entry ih =>
      rw [ofList_concat, keys_insert, List.map_append, List.mem_append, ← ih]
      split
      · rename_i hOld
        simp only [List.map_cons, List.map_nil, List.mem_singleton]
        exact ⟨Or.inl, fun h => h.elim id fun hSame => hSame ▸ hOld⟩
      · simp only [List.map_cons, List.map_nil, List.mem_append]

/-- The first entry of a key decides its place. -/
theorem find?_keys_ofList (entries : List (Key × Value)) (p : Key → Bool) :
    (ofList entries).keys.find? p = (entries.map (·.1)).find? p := by
  induction entries using List.reverseRecOn with
  | nil => rfl
  | append_singleton entries entry ih =>
      rw [ofList_concat, keys_insert, List.map_append, List.find?_append, ← ih]
      split
      · rename_i hOld
        cases hFound : (ofList entries).keys.find? p with
        | some key => rfl
        | none =>
            have hNot := List.find?_eq_none.1 hFound entry.1 hOld
            simp [hNot]
      · rw [List.find?_append]
        rfl

/-- In a table without repeated keys, each entry is what its key looks up. -/
theorem get?_of_mem {map : OrderedMap Key Value} (hNodup : map.keys.Nodup)
    {entry : Key × Value} (hMem : entry ∈ map.entries) : map.get? entry.1 = some entry.2 := by
  have hUnique : map.entries.find? (·.1 = entry.1) = some entry := by
    rw [List.find?_eq_some_iff_append]
    refine ⟨by simp, ?_⟩
    obtain ⟨before, after, hSplit⟩ := List.append_of_mem hMem
    refine ⟨before, after, hSplit, ?_⟩
    intro other hOther
    rw [keys, hSplit, List.map_append, List.map_cons, List.nodup_append] at hNodup
    simpa using hNodup.2.2 other.1 (List.mem_map_of_mem hOther) entry.1 (List.mem_cons_self ..)
  rw [get?, hUnique, Option.map_some]

/-- A search through the entries for something that is known about keys ends at the first key of
which it is known, and comes with the value of that key. -/
theorem exists_of_findSome?_entries {Known : Type} {map : OrderedMap Key Value}
    {known? : Key → Option Known} (hNodup : map.keys.Nodup) {value : Value} {known : Known}
    (h : map.entries.findSome? (fun entry => (known? entry.1).map fun k => (entry.2, k)) =
      some (value, known)) :
    ∃ key, map.keys.find? (fun key => (known? key).isSome) = some key ∧
      map.get? key = some value ∧ known? key = some known := by
  obtain ⟨before, entry, after, hSplit, hFound, hBefore⟩ := List.findSome?_eq_some_iff.1 h
  obtain ⟨found, hKnown, hPair⟩ := Option.map_eq_some_iff.1 hFound
  cases hPair
  have hMem : entry ∈ map.entries := hSplit ▸ List.mem_append_right before (List.mem_cons_self ..)
  refine ⟨entry.1, ?_, get?_of_mem hNodup hMem, hKnown⟩
  rw [keys, hSplit, List.map_append, List.map_cons, List.find?_eq_some_iff_append]
  refine ⟨Option.isSome_iff_exists.2 ⟨known, hKnown⟩, _, _, rfl, ?_⟩
  intro key hKey
  obtain ⟨other, hOther, rfl⟩ := List.mem_map.1 hKey
  rw [Option.map_eq_none_iff.1 (hBefore other hOther)]
  rfl

end OrderedMap

end ShaderBackend
