import Mathlib.Data.List.Find
import ShaderBackend.Proofs.Spirv.TypeWalk

/-! The private pointers of a type, for any table that insertions can build and any source of ids. A
walk that ends is followed to its end, one that goes round in a circle is given up after as many
levels as there are types, and ids are drawn for exactly the pointers that no declaration gives. -/
namespace ShaderBackend.Spirv

section Drawing

variable {Node : Type} [TypeNode Node] {σ : Type}

/-- What is left of a source of ids after so many of them have been drawn. -/
def spent (draw : σ → UInt32 × σ) (source : σ) : Nat → σ
  | 0 => source
  | count + 1 => (draw (spent draw source count)).2

/-- The id that is drawn after so many others. -/
def drawn (draw : σ → UInt32 × σ) (source : σ) (count : Nat) : UInt32 :=
  (draw (spent draw source count)).1

namespace TypeTable

open TypeNode (parts)

/-- Walks from a type to its component types for at most `depth` levels, and draws an id for each
pointer that is not declared. Gives the levels and what is left of the source. -/
def drawLevels (types : TypeTable Node) (draw : σ → UInt32 × σ) :
    Nat → σ → UInt32 → List PrivateLevel × σ
  | 0, source, _ => ([], source)
  | depth + 1, source, current =>
    match types.get? current with
    | none => ([], source)
    | some node =>
      match types.pointerTo? current Storage.privateClass with
      | some pointer =>
        let (below, source) := drawLevels types draw depth source (parts node).base
        (⟨pointer, current, (parts node).kind, (parts node).size, false⟩ :: below, source)
      | none =>
        let (id, source) := draw source
        let (below, source) := drawLevels types draw depth source (parts node).base
        (⟨id, current, (parts node).kind, (parts node).size, true⟩ :: below, source)

/-- Private pointers for `root` and every type below it, at most as many as there are types. -/
def drawPrivateLevels (types : TypeTable Node) (draw : σ → UInt32 × σ) (source : σ) (root : UInt32) :
    List PrivateLevel × σ :=
  types.drawLevels draw types.size source root

/-- An id is drawn once for each new pointer and for nothing else. -/
theorem drawLevels_eq (types : TypeTable Node) (draw : σ → UInt32 × σ) (source : σ)
    (depth used : Nat) (current : UInt32) :
    types.drawLevels draw depth (spent draw source used) current =
      (types.levelsFrom (drawn draw source) depth used current,
        spent draw source
          (used + newPointers (types.levelsFrom (drawn draw source) depth used current))) := by
  induction depth generalizing used current with
  | zero => rfl
  | succ depth ih =>
      rw [drawLevels, levelsFrom]
      cases types.get? current with
      | none => rfl
      | some node =>
          cases types.pointerTo? current Storage.privateClass with
          | some pointer =>
              simp only [ih]
              simp [newPointers]
          | none =>
              have hDrawn : draw (spent draw source used) =
                  (drawn draw source used, spent draw source (used + 1)) := rfl
              simp only [hDrawn, ih]
              simp [newPointers, Nat.add_assoc, Nat.add_comm]

end TypeTable

end Drawing

section Pointers

variable {Node : Type} [TypeNode Node] {inserted : List (UInt32 × Node)}
  {pointee storage pointer : UInt32}

/-- An id is recorded as a pointer to this type in a storage class. -/
def TypeTable.Points (types : TypeTable Node) (pointee storage id : UInt32) : Prop :=
  ∃ node, types.get? id = some node ∧ (TypeNode.parts node).kind = .pointer ∧
    (TypeNode.parts node).base = pointee ∧ (TypeNode.parts node).storage? = some storage

/-- The first id of the insertions that is recorded as a private pointer to this type. -/
def FirstPrivatePointer (inserted : List (UInt32 × Node)) (pointee pointer : UInt32) : Prop :=
  ∃ before after, inserted.map (·.1) = before ++ pointer :: after ∧
    TypeTable.Points (OrderedMap.ofList inserted) pointee Storage.privateClass pointer ∧
    ∀ id ∈ before,
      ¬TypeTable.Points (OrderedMap.ofList inserted) pointee Storage.privateClass id

theorem TypeTable.points_iff_any {types : TypeTable Node} :
    types.Points pointee storage pointer ↔ (types.get? pointer).any (fun node =>
      (TypeNode.parts node).pointsTo pointee storage) = true := by
  rw [Option.any_eq_true, Points]
  simp only [TypeParts.pointsTo_iff]

theorem pointerTo?_ofList (inserted : List (UInt32 × Node)) (pointee storage : UInt32) :
    TypeTable.pointerTo? (OrderedMap.ofList inserted) pointee storage =
      (inserted.map (·.1)).find? fun id => ((OrderedMap.ofList inserted).get? id).any fun node =>
        (TypeNode.parts node).pointsTo pointee storage := by
  rw [← OrderedMap.find?_keys_ofList, OrderedMap.keys, List.find?_map, TypeTable.pointerTo?]
  congr 1
  apply List.find?_congr
  intro entry hMem
  simp [OrderedMap.get?_of_mem (OrderedMap.nodup_keys_ofList inserted) hMem]

theorem firstPrivatePointer_iff :
    FirstPrivatePointer inserted pointee pointer ↔
      TypeTable.pointerTo? (OrderedMap.ofList inserted) pointee Storage.privateClass =
        some pointer := by
  rw [pointerTo?_ofList, find?_eq_some_iff_first fun _ => TypeTable.points_iff_any.symm]
  rfl

end Pointers

section Levels

variable {Node : Type} [TypeNode Node] {types : TypeTable Node} {ids : Nat → UInt32}
  {root : UInt32} {depth used : Nat} {level : PrivateLevel}

/-- A walk that does not end uses up any number of levels. -/
theorem length_levelsFrom_of_endless (h : ¬∃ path, types.Walk root path) :
    (types.levelsFrom ids depth used root).length = depth := by
  induction depth generalizing used root with
  | zero => rfl
  | succ depth ih =>
      cases hNode : types.get? root with
      | none => exact (h ⟨[], .stop hNode⟩).elim
      | some node =>
          obtain ⟨level, -, -, hCons⟩ := exists_levelsFrom_eq_cons hNode ids depth used
          have hBelow : ¬∃ path, types.Walk (TypeNode.parts node).base path := by
            rintro ⟨path, hWalk⟩
            exact h ⟨root :: path, .step hNode hWalk⟩
          rw [hCons, List.length_cons, ih hBelow]

/-- The first ids of a source are new to the table and differ from each other. -/
structure FreshDraws (types : TypeTable Node) (ids : Nat → UInt32) (count : Nat) : Prop where
  unknown : ∀ k < count, types.get? (ids k) = none
  nodup : ((List.range count).map ids).Nodup

/-- A level reuses a pointer that the table has. -/
theorem points_of_old (hKeys : types.keys.Nodup) (hMem : level ∈ types.privateLevels ids root)
    (hOld : level.isNew = false) :
    types.Points level.pointee Storage.privateClass level.pointer := by
  obtain ⟨before, behind, hSplit⟩ := List.append_of_mem hMem
  rcases (levelOf_of_split hSplit).pointer with ⟨-, hDeclared⟩ | ⟨hNew, -⟩
  · obtain ⟨node, hEntry, hPoints⟩ := exists_of_pointerTo? hDeclared
    exact ⟨node, OrderedMap.get?_of_mem hKeys hEntry, TypeParts.pointsTo_iff.1 hPoints⟩
  · cases hOld.symm.trans hNew

/-- A pointer that is drawn is new to the table. -/
theorem get?_pointer_of_new
    (hFresh : FreshDraws types ids (newPointers (types.privateLevels ids root)))
    (hMem : level ∈ types.privateLevels ids root) (hNew : level.isNew = true) :
    types.get? level.pointer = none := by
  obtain ⟨before, behind, hSplit⟩ := List.append_of_mem hMem
  rcases (levelOf_of_split hSplit).pointer with ⟨hOld, -⟩ | ⟨-, -, hId⟩
  · cases hOld.symm.trans hNew
  · have hCount : newPointers before < newPointers (types.privateLevels ids root) := by
      rw [hSplit, newPointers, newPointers, List.countP_append, List.countP_cons_of_pos hNew]
      omega
    rw [hId, Nat.zero_add, hFresh.unknown _ hCount]

theorem TypeTable.Points.pointee_eq {pointer pointee other storage : UInt32}
    (h : types.Points pointee storage pointer) (hOther : types.Points other storage pointer) :
    pointee = other := by
  obtain ⟨node, hNode, -, hBase, -⟩ := h
  obtain ⟨same, hSame, -, hOtherBase, -⟩ := hOther
  cases hNode.symm.trans hSame
  exact hBase.symm.trans hOtherBase

/-- A declared pointer points to one type only, and a new one is not declared. -/
theorem nodup_pointers {path : List UInt32} (hKeys : types.keys.Nodup) (hWalk : types.Walk root path)
    (hFresh : FreshDraws types ids (newPointers (types.privateLevels ids root))) :
    ((types.privateLevels ids root).map (·.pointer)).Nodup := by
  have hPointees := hWalk.nodup
  rw [← map_pointee_privateLevels hWalk ids, List.Nodup, List.pairwise_map] at hPointees
  have hDrawn := hFresh.nodup
  rw [List.range_eq_range', TypeTable.privateLevels, ← newPointer_ids, List.Nodup,
    List.pairwise_map, List.pairwise_filter] at hDrawn
  rw [List.Nodup, List.pairwise_map]
  refine (hPointees.and hDrawn).imp_of_mem ?_
  intro first second hFirst hSecond hApart hSame
  obtain ⟨hPointee, hNew⟩ := hApart
  cases hOne : first.isNew with
  | false =>
      obtain ⟨node, hNode, hPoints⟩ := points_of_old hKeys hFirst hOne
      cases hTwo : second.isNew with
      | false =>
          have hOther := points_of_old hKeys hSecond hTwo
          rw [← hSame] at hOther
          exact hPointee (TypeTable.Points.pointee_eq ⟨node, hNode, hPoints⟩ hOther)
      | true =>
          rw [hSame, get?_pointer_of_new hFresh hSecond hTwo] at hNode
          cases hNode
  | true =>
      have hUnknown := get?_pointer_of_new hFresh hFirst hOne
      cases hTwo : second.isNew with
      | false =>
          obtain ⟨node, hNode, -⟩ := points_of_old hKeys hSecond hTwo
          rw [← hSame, hUnknown] at hNode
          cases hNode
      | true => exact hNew hOne hTwo hSame

end Levels

/-- The private pointers of a type in a table with these insertions. -/
structure PointerChain {Node : Type} [TypeNode Node] (inserted : List (UInt32 × Node))
    (ids : Nat → UInt32) (root : UInt32) (levels : List PrivateLevel) : Prop where
  /-- A walk that ends is followed to its end. -/
  complete : ∀ path, TypeTable.Walk (OrderedMap.ofList inserted) root path →
    levels.map (·.pointee) = path
  /-- A walk that does not is given up after as many levels as there are types. -/
  bounded : (¬∃ path, TypeTable.Walk (OrderedMap.ofList inserted) root path) →
    levels.length = (OrderedMap.ofList inserted).size
  /-- Each level is a step from the one above it and tells kind and size of its type. -/
  described : ∀ level before behind, levels = before ++ level :: behind →
    level.pointee = elementType (OrderedMap.ofList inserted) root before.length ∧
    ∃ node, (OrderedMap.ofList inserted).get? level.pointee = some node ∧
      level.kind = (TypeNode.parts node).kind ∧ level.size = (TypeNode.parts node).size
  /-- A pointer is new only if none is declared, and the new ones take the ids in their order. -/
  pointer : ∀ level before behind, levels = before ++ level :: behind →
    (level.isNew = false ∧ FirstPrivatePointer inserted level.pointee level.pointer) ∨
    (level.isNew = true ∧ (¬∃ pointer, FirstPrivatePointer inserted level.pointee pointer) ∧
      level.pointer = ids (newPointers before))
  distinct : ∀ path, TypeTable.Walk (OrderedMap.ofList inserted) root path →
    FreshDraws (OrderedMap.ofList inserted) ids (newPointers levels) →
    (levels.map (·.pointer)).Nodup

theorem pointerChain {Node : Type} [TypeNode Node] (inserted : List (UInt32 × Node))
    (ids : Nat → UInt32) (root : UInt32) : PointerChain inserted ids root
      (TypeTable.privateLevels (OrderedMap.ofList inserted) ids root) where
  complete path hWalk := map_pointee_privateLevels hWalk ids
  bounded hEndless := length_levelsFrom_of_endless hEndless
  described level before behind hSplit := by
    have hLevel : (TypeTable.privateLevels (OrderedMap.ofList inserted) ids root)[before.length]? =
        some level := by
      rw [hSplit, List.getElem?_append_right (Nat.le_refl _), Nat.sub_self, List.getElem?_cons_zero]
    exact ⟨levelsFrom_pointee hLevel, (levelOf_of_split hSplit).described⟩
  pointer level before behind hSplit := by
    simp only [firstPrivatePointer_iff]
    rcases (levelOf_of_split hSplit).pointer with hOld | ⟨hNew, hNone, hId⟩
    · exact Or.inl hOld
    · rw [Nat.zero_add] at hId
      exact Or.inr ⟨hNew, by simp [hNone], hId⟩
  distinct path hWalk hFresh := nodup_pointers (OrderedMap.nodup_keys_ofList inserted) hWalk hFresh

/-- Whatever nodes are inserted and wherever the ids come from, the levels are a chain of private pointers,
and an id is drawn for each new pointer among them and for nothing else. -/
theorem drawPrivateLevels_exact {Node σ : Type} [TypeNode Node] (inserted : List (UInt32 × Node))
    (draw : σ → UInt32 × σ) (source : σ) (root : UInt32) :
    ∃ levels, PointerChain inserted (drawn draw source) root levels ∧
      TypeTable.privateLevels (OrderedMap.ofList inserted) (drawn draw source) root = levels ∧
      TypeTable.drawPrivateLevels (OrderedMap.ofList inserted) draw source root =
        (levels, spent draw source (newPointers levels)) := by
  refine ⟨_, pointerChain inserted (drawn draw source) root, rfl, ?_⟩
  have hDrawn := TypeTable.drawLevels_eq (OrderedMap.ofList inserted) draw source
    (OrderedMap.ofList inserted).size 0 root
  rw [Nat.zero_add] at hDrawn
  exact hDrawn

/-- An array of vectors. Two pointers to the vector are declared, and the first of them is known as
a private one only in the end. -/
def nestedTypes : List (UInt32 × TypeShape) :=
  [(2, .scalar 32), (7, .pointer 3 Storage.input), (3, .vector 2 4),
    (9, .pointer 3 Storage.privateClass), (5, .array 3 6), (7, .pointer 3 Storage.privateClass)]

/-- The same where a type has the id to which scalars lead. -/
def circularTypes : List (UInt32 × TypeShape) := (0, .vector 2 2) :: nestedTypes

/-- Nodes that belong to no declaration: a scalar with a component, and a vector in a storage class. -/
def looseTypes : List (UInt32 × TypeParts) :=
  [(2, ⟨.scalar, 3, 32, none⟩), (3, ⟨.vector, 8, 4, some Storage.privateClass⟩),
    (5, ⟨.pointer, 3, 9, some Storage.privateClass⟩)]

/-- A source that counts in tens. -/
def tens (count : Nat) : UInt32 × Nat := (UInt32.ofNat (10 * count), count + 1)

theorem drawPrivateLevels_exact_nestedTypes :
    TypeTable.Walk (OrderedMap.ofList nestedTypes) 5 [5, 3, 2] ∧
      FreshDraws (OrderedMap.ofList nestedTypes) (drawn tens 4) 2 ∧
      TypeTable.drawPrivateLevels (OrderedMap.ofList nestedTypes) tens 4 5 =
        ([⟨40, 5, .array, 6, true⟩, ⟨7, 3, .vector, 4, false⟩, ⟨50, 2, .scalar, 32, true⟩], 6) ∧
      FirstPrivatePointer nestedTypes 3 7 ∧ [(40 : UInt32), 7, 50].Nodup ∧
      (¬∃ path, TypeTable.Walk (OrderedMap.ofList circularTypes) 5 path) ∧
      (TypeTable.privateLevels (OrderedMap.ofList circularTypes) (drawn tens 4) 5).length =
        (OrderedMap.ofList circularTypes).size ∧
      TypeTable.drawPrivateLevels (OrderedMap.ofList looseTypes) tens 4 2 =
        ([⟨40, 2, .scalar, 32, true⟩, ⟨5, 3, .vector, 4, false⟩], 5) := by
  have hWalk : TypeTable.Walk (OrderedMap.ofList nestedTypes) 5 [5, 3, 2] :=
    .step (show _ = some (.array 3 6) by decide) (.step (show _ = some (.vector 2 4) by decide)
      (.step (show _ = some (.scalar 32) by decide) (.stop (by decide))))
  have hFresh : FreshDraws (OrderedMap.ofList nestedTypes) (drawn tens 4) 2 :=
    ⟨by decide, by decide⟩
  obtain ⟨levels, hChain, hLevels, hDrawn⟩ := drawPrivateLevels_exact nestedTypes tens 4 5
  have hRead : levels =
      [⟨40, 5, .array, 6, true⟩, ⟨7, 3, .vector, 4, false⟩, ⟨50, 2, .scalar, 32, true⟩] :=
    hLevels.symm.trans (by decide)
  subst hRead
  obtain ⟨circle, hCircle, hCircular, -⟩ := drawPrivateLevels_exact circularTypes tens 4 5
  have hEndless : ¬∃ path, TypeTable.Walk (OrderedMap.ofList circularTypes) 5 path := by
    rintro ⟨path, hPath⟩
    have hAgain := hPath.nodup
    rw [← hCircle.complete path hPath, ← hCircular] at hAgain
    exact absurd hAgain (by decide)
  obtain ⟨loose, -, hLoose, hLooseDrawn⟩ := drawPrivateLevels_exact looseTypes tens 4 2
  have hLooseRead : loose = [⟨40, 2, .scalar, 32, true⟩, ⟨5, 3, .vector, 4, false⟩] :=
    hLoose.symm.trans (by decide)
  subst hLooseRead
  refine ⟨hWalk, hFresh, hDrawn, ?_, hChain.distinct _ hWalk hFresh, hEndless, ?_, hLooseDrawn⟩
  · rcases hChain.pointer ⟨7, 3, .vector, 4, false⟩ [_] [_] rfl with ⟨-, hFirst⟩ | ⟨hNew, -⟩
    · exact hFirst
    · cases hNew
  · rw [hCircular, hCircle.bounded hEndless]

end ShaderBackend.Spirv
