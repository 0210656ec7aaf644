import Mathlib.Data.List.Basic
import ShaderBackend.Proofs.Spirv.Locations

/-! The types that are recorded when the search gets to an input. They depend on the type
declarations and constants in front of it only. Declarations with new ids that are put in
among them add entries with these ids and change no other entry. -/
namespace ShaderBackend.Spirv

/-- The shape that an instruction declares, if it declares a type. An array has one only if its
length is a known constant. -/
def declaredShape? (constants : OrderedMap UInt32 UInt32) (words : List UInt32) :
    Option TypeShape :=
  let ins := unplaced words
  if ins.is Op.typeFloat || ins.is Op.typeInt then some (.scalar (ins.arg 2))
  else if ins.is Op.typeVector then some (.vector (ins.arg 2) (ins.arg 3))
  else if ins.is Op.typeArray then (constants.get? (ins.arg 3)).map (.array (ins.arg 2))
  else if ins.is Op.typePointer then some (.pointer (ins.arg 3) (ins.arg 2))
  else none

/-- The ids that the search reads in an instruction: those of a type and of what it is made of,
and the type of an input. -/
def searchedIds (words : List UInt32) : List UInt32 :=
  let ins := unplaced words
  (if declaresType words || declaresInput words then [ins.arg 1] else []) ++
    (if ins.is Op.typeVector || ins.is Op.typeArray then [ins.arg 2] else []) ++
    (if ins.is Op.typeArray || ins.is Op.typePointer then [ins.arg 3] else [])

section Record

variable {words : List UInt32} {constants constants' : OrderedMap UInt32 UInt32}

theorem not_declaresType_of_is {opcode : UInt32} (h : (unplaced words).is opcode = true)
    (hNe : opcode ≠ Op.typeInt ∧ opcode ≠ Op.typeFloat ∧ opcode ≠ Op.typeVector ∧
      opcode ≠ Op.typeArray ∧ opcode ≠ Op.typePointer) : declaresType words = false := by
  obtain ⟨hInt, hFloat, hVector, hArray, hPointer⟩ := hNe
  simp only [declaresType, is_eq_false h hInt, is_eq_false h hFloat, is_eq_false h hVector,
    is_eq_false h hArray, is_eq_false h hPointer, Bool.or_self]

theorem declaredShape?_eq_none (h : declaresType words = false) :
    declaredShape? constants words = none := by
  simp only [declaresType, Bool.or_eq_false_iff] at h
  simp [declaredShape?, h]

/-- An instruction adds at most one type, under its own result. -/
theorem types_record (location : UInt32) (scan : InputScan) (words : List UInt32) :
    (scan.record location (unplaced words)).types =
      match declaredShape? scan.constants words with
      | some shape => scan.types.insert ((unplaced words).arg 1) shape
      | none => scan.types := by
  cases hDecorate : (unplaced words).is Op.decorate with
  | true =>
      rw [declaredShape?_eq_none (not_declaresType_of_is hDecorate (by decide))]
      simp only [InputScan.record, hDecorate, if_true]
      split <;> rfl
  | false =>
      cases hConstant : (unplaced words).is Op.constant with
      | true =>
          rw [declaredShape?_eq_none (not_declaresType_of_is hConstant (by decide))]
          simp [InputScan.record, hDecorate, hConstant]
      | false =>
          simp only [InputScan.record, hDecorate, hConstant, declaredShape?]
          repeat' split
          all_goals simp_all [InputScan.recordType]

/-- Only a constant is recorded as one, whatever its type, and by its first literal word. -/
theorem constants_record (location : UInt32) (scan : InputScan) (words : List UInt32) :
    (scan.record location (unplaced words)).constants =
      if (unplaced words).is Op.constant then
        scan.constants.insert ((unplaced words).arg 2) ((unplaced words).arg 3)
      else scan.constants := by
  cases hDecorate : (unplaced words).is Op.decorate with
  | true =>
      rw [is_eq_false hDecorate (by decide)]
      simp only [InputScan.record, hDecorate, if_true]
      split <;> rfl
  | false =>
      simp only [InputScan.record, hDecorate]
      repeat' split
      all_goals first | rfl | contradiction

/-- The last declaration of an id wins, as later entries of the table replace earlier ones. -/
theorem get?_types_record (location : UInt32) (scan : InputScan) (words : List UInt32)
    (id : UInt32) :
    (scan.record location (unplaced words)).types.get? id =
      if (unplaced words).arg 1 = id then
        (declaredShape? scan.constants words).or (scan.types.get? id)
      else scan.types.get? id := by
  rw [types_record]
  cases declaredShape? scan.constants words <;> simp

theorem get?_constants_record (location : UInt32) (scan : InputScan) (words : List UInt32)
    (id : UInt32) :
    (scan.record location (unplaced words)).constants.get? id =
      if (unplaced words).is Op.constant = true ∧ (unplaced words).arg 2 = id then
        some ((unplaced words).arg 3)
      else scan.constants.get? id := by
  rw [constants_record]
  cases (unplaced words).is Op.constant <;> simp

/-- A shape depends on the constants through the length of an array only. -/
theorem declaredShape?_congr
    (h : (unplaced words).is Op.typeArray = true →
      constants'.get? ((unplaced words).arg 3) = constants.get? ((unplaced words).arg 3)) :
    declaredShape? constants' words = declaredShape? constants words := by
  simp only [declaredShape?]
  repeat' split
  all_goals first | rfl | rw [h ‹_›]

theorem arg_one_mem_searchedIds {shape : TypeShape}
    (h : declaredShape? constants words = some shape) :
    (unplaced words).arg 1 ∈ searchedIds words := by
  cases hType : declaresType words with
  | true => simp [searchedIds, hType]
  | false =>
      rw [declaredShape?_eq_none hType] at h
      cases h

/-- The id that a type is made of is one that its instruction names, but for scalars, whose base
stands for none. -/
theorem base_mem_searchedIds {id : UInt32} {shape : TypeShape} (h : Declares id shape words) :
    shape.base = 0 ∨ shape.base ∈ searchedIds words := by
  cases shape with
  | scalar width => exact Or.inl rfl
  | vector component count =>
      obtain ⟨-, hVector, rfl, -⟩ := h
      exact Or.inr (by simp [searchedIds, TypeShape.base, hVector])
  | array element length =>
      obtain ⟨-, hArray, rfl⟩ := h
      exact Or.inr (by simp [searchedIds, TypeShape.base, hArray])
  | pointer pointee storage =>
      obtain ⟨-, hPointer, -, rfl⟩ := h
      exact Or.inr (by simp [searchedIds, TypeShape.base, hPointer])

end Record

section After

variable {location location' bound : UInt32} {scan scan' : InputScan} {listing : Listing}

/-- The location that is searched for makes no difference to the tables. -/
theorem after_tables (hTypes : scan'.types = scan.types)
    (hConstants : scan'.constants = scan.constants) :
    (scan'.after location' listing).types = (scan.after location listing).types := by
  induction listing generalizing scan scan' with
  | nil => exact hTypes
  | cons words rest ih =>
      apply ih
      · rw [types_record, types_record, hTypes, hConstants]
      · rw [constants_record, constants_record, hConstants]

theorem after_append (first second : Listing) :
    scan.after location (first ++ second) =
      (scan.after location first).after location second := List.foldl_append

/-- Instructions that declare no types and constants can be left out. -/
theorem after_filter {kind : List UInt32 → Bool}
    (hKind : ∀ words, kind words = false →
      declaresType words = false ∧ (unplaced words).is Op.constant = false)
    (hTypes : scan'.types = scan.types) (hConstants : scan'.constants = scan.constants) :
    (scan'.after location (listing.filter kind)).types = (scan.after location listing).types := by
  induction listing generalizing scan scan' with
  | nil => exact hTypes
  | cons words rest ih =>
      cases hHere : kind words with
      | true =>
          rw [List.filter_cons_of_pos hHere]
          apply ih
          · rw [types_record, types_record, hTypes, hConstants]
          · rw [constants_record, constants_record, hConstants]
      | false =>
          rw [List.filter_cons_of_neg (by simp [hHere])]
          apply ih
          · rw [types_record, declaredShape?_eq_none (hKind words hHere).1, hTypes]
          · rw [constants_record, (hKind words hHere).2, hConstants]
            rfl

/-- The second scan has the entries of the first one, and perhaps more that are not below a bound.
The types among these have no size. -/
structure InputScan.Extends (bound : UInt32) (scan scan' : InputScan) : Prop where
  types : ∀ id < bound, scan'.types.get? id = scan.types.get? id
  constants : ∀ id < bound, scan'.constants.get? id = scan.constants.get? id
  added : ∀ id shape, bound ≤ id → scan'.types.get? id = some shape → shape.size = 0

namespace InputScan.Extends

/-- Both scans record an instruction of the module. -/
theorem record (h : Extends bound scan scan') {words : List UInt32}
    (hBelow : ∀ id ∈ searchedIds words, id < bound) :
    Extends bound (scan.record location (unplaced words))
      (scan'.record location (unplaced words)) where
  types id hId := by
    have hShape : declaredShape? scan'.constants words = declaredShape? scan.constants words :=
      declaredShape?_congr fun hArray =>
        h.constants _ (hBelow _ (by simp [searchedIds, hArray]))
    rw [get?_types_record, get?_types_record, hShape, h.types id hId]
  constants id hId := by
    rw [get?_constants_record, get?_constants_record, h.constants id hId]
  added id shape hId hShape := by
    rw [get?_types_record] at hShape
    split at hShape
    · rename_i hSame
      cases hDeclared : declaredShape? scan'.constants words with
      | none =>
          rw [hDeclared, Option.none_or] at hShape
          exact h.added id shape hId hShape
      | some declared =>
          have hOld := hBelow _ (arg_one_mem_searchedIds hDeclared)
          rw [hSame] at hOld
          exact absurd hOld (UInt32.not_lt.2 hId)
    · exact h.added id shape hId hShape

theorem after (h : Extends bound scan scan')
    (hBelow : ∀ words ∈ listing, ∀ id ∈ searchedIds words, id < bound) :
    Extends bound (scan.after location listing) (scan'.after location listing) := by
  induction listing generalizing scan scan' with
  | nil => exact h
  | cons words rest ih =>
      rw [List.forall_mem_cons] at hBelow
      exact ih (h.record hBelow.1) hBelow.2

end InputScan.Extends

/-- An instruction that adds nothing below a bound to the tables, and no type with a size. -/
structure Adds (bound : UInt32) (words : List UInt32) : Prop where
  type : ∀ constants shape, declaredShape? constants words = some shape →
    bound ≤ (unplaced words).arg 1 ∧ shape.size = 0
  constant : (unplaced words).is Op.constant = true → bound ≤ (unplaced words).arg 2

/-- Only the second scan reads an instruction that is put in. -/
theorem InputScan.Extends.insert (h : Extends bound scan scan') {words : List UInt32}
    (hAdds : Adds bound words) :
    Extends bound scan (scan'.record location (unplaced words)) where
  types id hId := by
    rw [get?_types_record]
    split
    · rename_i hSame
      cases hDeclared : declaredShape? scan'.constants words with
      | none => exact h.types id hId
      | some shape =>
          have hNew := (hAdds.type _ _ hDeclared).1
          rw [hSame] at hNew
          exact absurd hId (UInt32.not_lt.2 hNew)
    · exact h.types id hId
  constants id hId := by
    rw [get?_constants_record, if_neg, h.constants id hId]
    rintro ⟨hConstant, rfl⟩
    exact UInt32.not_lt.2 (hAdds.constant hConstant) hId
  added id shape hId hShape := by
    rw [get?_types_record] at hShape
    split at hShape
    · cases hDeclared : declaredShape? scan'.constants words with
      | none =>
          rw [hDeclared, Option.none_or] at hShape
          exact h.added id shape hId hShape
      | some declared =>
          rw [hDeclared, Option.some_or, Option.some.injEq] at hShape
          exact hShape ▸ (hAdds.type _ _ hDeclared).2
    · exact h.added id shape hId hShape

/-- Only the first scan reads an instruction that declares no type and no constant. -/
theorem InputScan.Extends.skip (h : Extends bound scan scan') {words : List UInt32}
    (hType : declaresType words = false) (hConstant : (unplaced words).is Op.constant = false) :
    Extends bound (scan.record location (unplaced words)) scan' where
  types id hId := by
    rw [types_record, declaredShape?_eq_none hType]
    exact h.types id hId
  constants id hId := by
    rw [constants_record, hConstant]
    exact h.constants id hId
  added := h.added

theorem InputScan.Extends.insertAll (h : Extends bound scan scan')
    (hAdds : ∀ words ∈ listing, Adds bound words) :
    Extends bound scan (scan'.after location listing) := by
  induction listing generalizing scan' with
  | nil => exact h
  | cons words rest ih =>
      rw [List.forall_mem_cons] at hAdds
      exact ih (h.insert hAdds.1) hAdds.2

end After

/-- The types that are recorded in front of the input variable with an id. -/
def Listing.typesBefore (listing : Listing) (id : UInt32) : TypeTable :=
  (InputScan.after 0 {} (listing.takeWhile fun words =>
    !(Spirv.declaresInput words && (unplaced words).arg 2 == id))).types

/-- A type without levels: it is not a recorded pointer, or its pointee is not recorded. -/
def TypeTable.Lacks (types : TypeTable) (typeId : UInt32) : Prop :=
  ∀ pointee storage, types.get? typeId = some (.pointer pointee storage) →
    types.get? pointee = none

section Levels

variable {types types' : TypeTable} {ids : Nat → UInt32}

/-- There are levels exactly when the type of the variable is known. -/
theorem privateLevels_eq_nil_iff {root : UInt32} :
    types.privateLevels ids root = [] ↔ types.get? root = none := by
  rw [TypeTable.privateLevels]
  cases hSize : types.size with
  | zero =>
      have hEmpty : types.entries = [] := List.length_eq_zero_iff.1 hSize
      simp [TypeTable.levelsFrom, OrderedMap.get?, hEmpty]
  | succ size =>
      cases hRoot : types.get? root with
      | none => simp [levelsFrom_eq_nil hRoot]
      | some shape =>
          obtain ⟨level, -, -, hCons⟩ := exists_levelsFrom_eq_cons hRoot ids size 0
          simp [hCons]

/-- The removal skips exactly the inputs whose type has no levels. -/
theorem inputLevels_eq_nil_iff (types : TypeTable) (ids : Nat → UInt32) (input : InputVariable) :
    inputLevels types ids input = [] ↔ types.Lacks input.typeId := by
  rw [inputLevels, TypeTable.Lacks]
  cases types.get? input.typeId with
  | none => simp
  | some shape => cases shape <;> simp [privateLevels_eq_nil_iff]

/-- Tables that agree below a bound lead to the same components, if a component of a type below
the bound is below it as well. -/
theorem elementType_congr {bound : UInt32}
    (hSame : ∀ id < bound, types'.get? id = types.get? id)
    (hClosed : ∀ id < bound, ((types.get? id).map TypeShape.base).getD 0 < bound)
    {root : UInt32} (hRoot : root < bound) (depth : Nat) :
    elementType types' root depth = elementType types root depth := by
  induction depth generalizing root with
  | zero => rfl
  | succ depth ih =>
      rw [elementType, elementType, hSame root hRoot]
      exact ih (hClosed root hRoot)

end Levels

section TypesBefore

variable {listing : Listing} {bound id : UInt32}

/-- What is recorded in front of an input is declared there. -/
theorem declares_of_get?_typesBefore {typeId : UInt32} {shape : TypeShape}
    (h : (listing.typesBefore id).get? typeId = some shape) :
    ∃ words ∈ listing, Declares typeId shape words := by
  rcases declares_of_mem_after (OrderedMap.mem_of_get? h) with hOld | ⟨words, hMem, hDeclares⟩
  · simp at hOld
  · exact ⟨words, (List.takeWhile_sublist _).subset hMem, hDeclares⟩

/-- A component of a type is below the bound of all ids that are read. -/
theorem base_lt_of_searchedIds (hBelow : ∀ words ∈ listing, ∀ id ∈ searchedIds words, id < bound)
    (hBound : 0 < bound) (typeId : UInt32) :
    (((listing.typesBefore id).get? typeId).map TypeShape.base).getD 0 < bound := by
  cases hShape : (listing.typesBefore id).get? typeId with
  | none => exact hBound
  | some shape =>
      obtain ⟨words, hMem, hDeclares⟩ := declares_of_get?_typesBefore hShape
      rcases base_mem_searchedIds hDeclares with hZero | hBase
      · simpa [hZero] using hBound
      · exact hBelow words hMem _ hBase

theorem filter_takeWhile {kind property : List UInt32 → Bool}
    (h : ∀ words, property words = false → kind words = true) (listing : Listing) :
    (listing.takeWhile property).filter kind = (listing.filter kind).takeWhile property := by
  induction listing with
  | nil => rfl
  | cons words rest ih =>
      cases hProperty : property words with
      | true =>
          rw [List.takeWhile_cons_of_pos hProperty]
          cases hKind : kind words with
          | true =>
              rw [List.filter_cons_of_pos hKind, List.filter_cons_of_pos hKind,
                List.takeWhile_cons_of_pos hProperty, ih]
          | false =>
              rw [List.filter_cons_of_neg (by simp [hKind]),
                List.filter_cons_of_neg (by simp [hKind]), ih]
      | false =>
          rw [List.takeWhile_cons_of_neg (by simp [hProperty]),
            List.filter_cons_of_pos (h _ hProperty),
            List.takeWhile_cons_of_neg (by simp [hProperty])]
          rfl

/-- Whether the search records an instruction or stops at it. -/
def searched (words : List UInt32) : Bool :=
  declaresType words || (unplaced words).is Op.constant || declaresInput words

theorem typesBefore_filter (listing : Listing) (id : UInt32) :
    Listing.typesBefore (listing.filter searched) id = listing.typesBefore id := by
  rw [Listing.typesBefore, ← filter_takeWhile, after_filter _ rfl rfl]
  · rfl
  · intro words hOther
    simp only [searched, Bool.or_eq_false_iff] at hOther
    exact hOther.1
  · intro words hStop
    simp only [Bool.not_eq_false', Bool.and_eq_true] at hStop
    simp [searched, hStop.1]

theorem keptKind_searched (id : UInt32) : KeptKind id searched := by
  intro words hTouched
  have hInput : declaresInput words = false :=
    keptKind_of_variable (fun _ => is_variable_of_declaresInput) words hTouched
  rcases is_of_touched hTouched with hOpcode | hOpcode | hOpcode | hOpcode <;>
    simp [searched, hInput, not_declaresType_of_is hOpcode (by decide),
      is_eq_false hOpcode (by decide : _ ≠ Op.constant)]

end TypesBefore

end ShaderBackend.Spirv
