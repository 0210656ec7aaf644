import ShaderBackend.Fault
import ShaderBackend.Proofs.Spirv.PointerChain

/-! Types by id in a hash map, with the order of the ids kept beside it. A declaration that comes again
changes the map and leaves the order, so that the two change at different times. They stay in step all
the same: a search along the order finds a declaration for every id, and what it finds is what the
table of types gives. -/
namespace ShaderBackend.Spirv

/-- Declarations by id, and the ids in the order of their first insertion. -/
structure TypeViews where
  nodes : Std.HashMap UInt32 TypeParts := {}
  order : List UInt32 := []

namespace TypeViews

/-- Records a declaration. Only an id that had none is added to the order. -/
def insert (v : TypeViews) (id : UInt32) (parts : TypeParts) : TypeViews where
  nodes := v.nodes.insert id parts
  order := if v.nodes[id]?.isNone then v.order ++ [id] else v.order

/-- The first of some ids whose declaration is a pointer. Aborts at an id without a declaration. -/
def searchPointer (nodes : Std.HashMap UInt32 TypeParts) (pointee storage : UInt32) :
    List UInt32 → Except Failure (Option UInt32)
  | [] => .ok none
  | id :: rest =>
    match nodes[id]? with
    | none => .error .abort
    | some parts =>
      if parts.pointsTo pointee storage then .ok (some id)
      else searchPointer nodes pointee storage rest

/-- Id of the first pointer to `pointee` in a storage class, in the order of first insertion. -/
def findPointer (v : TypeViews) (pointee storage : UInt32) : Except Failure (Option UInt32) :=
  searchPointer v.nodes pointee storage v.order

/-- What a list of insertions makes of nothing. -/
def ofList (inserted : List (UInt32 × TypeParts)) : TypeViews :=
  inserted.foldl (fun v entry => v.insert entry.1 entry.2) {}

theorem ofList_concat (inserted : List (UInt32 × TypeParts)) (entry : UInt32 × TypeParts) :
    ofList (inserted ++ [entry]) = (ofList inserted).insert entry.1 entry.2 := by
  rw [ofList, List.foldl_append]
  rfl

/-- The views hold the keys and values of a map. Of each value they have only the parts. -/
structure Mirrors {Value : Type} (parts : Value → TypeParts) (v : TypeViews)
    (map : OrderedMap UInt32 Value) : Prop where
  order : v.order = map.keys
  nodes : ∀ id, v.nodes[id]? = (map.get? id).map parts
  size : v.nodes.size = v.order.length

section Mirrors

variable {Value : Type} {parts : Value → TypeParts} {v : TypeViews} {map : OrderedMap UInt32 Value}
  {id : UInt32}

theorem Mirrors.mem_order_iff (h : v.Mirrors parts map) : id ∈ v.order ↔ id ∈ v.nodes := by
  rw [Std.HashMap.mem_iff_isSome_getElem?, h.nodes, Option.isSome_map, h.order,
    Option.isSome_iff_ne_none, ne_eq, OrderedMap.get?_eq_none_iff, not_not]

/-- An insertion keeps the views in step, whether the id is new or not. -/
theorem Mirrors.insert (h : v.Mirrors parts map) (id : UInt32) (value : Value) :
    (v.insert id (parts value)).Mirrors parts (map.insert id value) := by
  have hKnown : v.nodes[id]?.isNone = true ↔ id ∉ map.keys := by
    rw [h.nodes, Option.isNone_map, Option.isNone_iff_eq_none, OrderedMap.get?_eq_none_iff]
  have hMember : id ∈ v.nodes ↔ id ∈ map.keys := by rw [← h.mem_order_iff, h.order]
  refine ⟨?_, fun other => ?_, ?_⟩
  · simp only [TypeViews.insert, hKnown, OrderedMap.keys_insert, h.order]
    by_cases hOld : id ∈ map.keys <;> simp [hOld]
  · rw [TypeViews.insert, Std.HashMap.getElem?_insert, h.nodes, OrderedMap.get?_insert]
    by_cases hSame : id = other <;> simp [hSame]
  · simp only [TypeViews.insert, hKnown, Std.HashMap.size_insert, hMember, h.size]
    by_cases hOld : id ∈ map.keys <;> simp [hOld]

/-- The views that a run of insertions makes mirror the map that it makes. -/
theorem mirrors_ofList (parts : Value → TypeParts) (inserted : List (UInt32 × Value)) :
    (ofList (inserted.map fun entry => (entry.1, parts entry.2))).Mirrors parts
      (OrderedMap.ofList inserted) := by
  induction inserted using List.reverseRecOn with
  | nil => exact ⟨rfl, fun _ => Std.HashMap.getElem?_empty, Std.HashMap.size_empty⟩
  | append_singleton inserted entry ih =>
      rw [List.map_append, List.map_singleton, ofList_concat, OrderedMap.ofList_concat]
      exact ih.insert entry.1 entry.2

/-- If the map has every id of the order, the search does not abort and gives the first pointer. -/
theorem searchPointer_eq {nodes : Std.HashMap UInt32 TypeParts} {ids : List UInt32}
    (h : ∀ id ∈ ids, id ∈ nodes) (pointee storage : UInt32) :
    searchPointer nodes pointee storage ids =
      .ok (ids.find? fun id => nodes[id]?.any (·.pointsTo pointee storage)) := by
  induction ids with
  | nil => rfl
  | cons id rest ih =>
      rw [List.forall_mem_cons] at h
      obtain ⟨parts, hParts⟩ := Option.isSome_iff_exists.1 (Std.HashMap.mem_iff_isSome_getElem?.1 h.1)
      rw [searchPointer, hParts]
      simp only
      by_cases hHere : parts.pointsTo pointee storage = true
      · rw [if_pos hHere, List.find?_cons_of_pos (by rw [hParts]; exact hHere)]
      · rw [if_neg hHere, List.find?_cons_of_neg (by rw [hParts]; exact hHere), ih h.2]

/-- The search along the order never meets an id without a declaration. -/
theorem Mirrors.findPointer_eq (h : v.Mirrors parts map) (pointee storage : UInt32) :
    v.findPointer pointee storage =
      .ok (map.keys.find? fun id => (map.get? id).any fun value =>
        (parts value).pointsTo pointee storage) := by
  rw [findPointer, searchPointer_eq fun id hIn => h.mem_order_iff.1 hIn, h.order]
  simp only [h.nodes, Option.any_map]

end Mirrors

section Insertions

variable {inserted : List (UInt32 × TypeParts)} {pointee storage id : UInt32}

/-- The declaration of an id that was inserted last. -/
def lastInserted (inserted : List (UInt32 × TypeParts)) (id : UInt32) : Option TypeParts :=
  (inserted.filter (·.1 = id)).getLast?.map (·.2)

/-- By its last declaration, an id is a pointer to `pointee` in a storage class. -/
def IsPointer (inserted : List (UInt32 × TypeParts)) (pointee storage id : UInt32) : Prop :=
  ∃ parts, lastInserted inserted id = some parts ∧ parts.kind = .pointer ∧ parts.base = pointee ∧
    parts.storage? = some storage

/-- An id is such a pointer, and none that was inserted before it is. -/
def FirstPointer (inserted : List (UInt32 × TypeParts)) (pointee storage id : UInt32) : Prop :=
  ∃ before later, inserted.map (·.1) = before ++ id :: later ∧
    IsPointer inserted pointee storage id ∧ ∀ other ∈ before, ¬IsPointer inserted pointee storage other

theorem any_pointsTo_iff :
    (lastInserted inserted id).any (·.pointsTo pointee storage) = true ↔
      IsPointer inserted pointee storage id := by
  rw [Option.any_eq_true, IsPointer]
  simp only [TypeParts.pointsTo_iff]

/-- A pointer has been inserted. -/
theorem IsPointer.mem (h : IsPointer inserted pointee storage id) : id ∈ inserted.map (·.1) := by
  obtain ⟨parts, hLast, -⟩ := h
  obtain ⟨entry, hEntry, -⟩ := Option.map_eq_some_iff.1 hLast
  have hIn := List.mem_filter.1 (List.mem_of_getLast? hEntry)
  exact of_decide_eq_true hIn.2 ▸ List.mem_map_of_mem hIn.1

theorem find?_pointsTo_eq_some_iff :
    ((inserted.map (·.1)).find? fun id =>
        (lastInserted inserted id).any (·.pointsTo pointee storage)) = some id ↔
      FirstPointer inserted pointee storage id :=
  find?_eq_some_iff_first fun _ => any_pointsTo_iff

theorem find?_pointsTo_eq_none_iff :
    ((inserted.map (·.1)).find? fun id =>
        (lastInserted inserted id).any (·.pointsTo pointee storage)) = none ↔
      ∀ id, ¬IsPointer inserted pointee storage id := by
  simp only [List.find?_eq_none, any_pointsTo_iff]
  exact ⟨fun h id hPointer => h id hPointer.mem hPointer, fun h id _ => h id⟩

/-- Order and declarations fit together, and a search gives the pointer that was inserted first. -/
structure InStep (v : TypeViews) (inserted : List (UInt32 × TypeParts)) : Prop where
  nodup : v.order.Nodup
  members : ∀ id, id ∈ v.order ↔ id ∈ v.nodes
  current : ∀ id, v.nodes[id]? = lastInserted inserted id
  search : ∀ pointee storage, ∃ found, v.findPointer pointee storage = .ok found ∧
    (∀ id, found = some id ↔ FirstPointer inserted pointee storage id) ∧
    (found = none ↔ ∀ id, ¬IsPointer inserted pointee storage id)

/-- After any insertions, the map holds the last node of each id and the order holds each id
once. -/
theorem inStep_ofList (inserted : List (UInt32 × TypeParts)) :
    (ofList inserted).InStep inserted := by
  have hMirrors := mirrors_ofList id inserted
  rw [show (inserted.map fun entry => (entry.1, id entry.2)) = inserted from List.map_id _] at hMirrors
  have hCurrent (id : UInt32) : (OrderedMap.ofList inserted).get? id = lastInserted inserted id :=
    OrderedMap.get?_ofList inserted id
  refine ⟨?_, fun _ => hMirrors.mem_order_iff, fun id => ?_, fun pointee storage => ?_⟩
  · rw [hMirrors.order]
    exact OrderedMap.nodup_keys_ofList inserted
  · rw [hMirrors.nodes, hCurrent, Option.map_id]
    rfl
  · refine ⟨_, hMirrors.findPointer_eq pointee storage, ?_, ?_⟩
    · simp only [OrderedMap.find?_keys_ofList, hCurrent]
      exact fun _ => find?_pointsTo_eq_some_iff
    · simp only [OrderedMap.find?_keys_ofList, hCurrent]
      exact find?_pointsTo_eq_none_iff

end Insertions

/-- What was declared, in the order of the declarations, and how a table of types is searched for a
pointer. -/
theorem findPointer_ofList (declared : List (UInt32 × TypeShape)) (pointee storage : UInt32) :
    (ofList (declared.map fun entry => (entry.1, entry.2.parts))).findPointer pointee storage =
      .ok (TypeTable.pointerTo? (OrderedMap.ofList declared) pointee storage) := by
  rw [(mirrors_ofList TypeShape.parts declared).findPointer_eq, pointerTo?_ofList,
    OrderedMap.find?_keys_ofList]
  rfl

/-- Whatever is inserted, the two views stay in step. Made of the declarations of types, they hold what
the table of types holds, and a search in them gives what a search in the table gives. -/
theorem views_inStep :
    (∀ inserted : List (UInt32 × TypeParts), (ofList inserted).InStep inserted) ∧
    ∀ declared : List (UInt32 × TypeShape),
      (ofList (declared.map fun entry => (entry.1, entry.2.parts))).Mirrors TypeShape.parts
        (OrderedMap.ofList declared) ∧
      ∀ pointee storage,
        (ofList (declared.map fun entry => (entry.1, entry.2.parts))).findPointer pointee storage =
          .ok (TypeTable.pointerTo? (OrderedMap.ofList declared) pointee storage) :=
  ⟨inStep_ofList, fun declared =>
    ⟨mirrors_ofList TypeShape.parts declared, findPointer_ofList declared⟩⟩

end TypeViews

end ShaderBackend.Spirv
