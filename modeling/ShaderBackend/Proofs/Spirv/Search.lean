import Mathlib.Data.List.Basic
import ShaderBackend.Proofs.OrderedMap
import ShaderBackend.Proofs.Spirv.Dissection

/-! What the search for an input variable returns and what it knows by then. The
variable stands at a known place of the listing, and every type in the table
comes from an instruction in front of it. -/
namespace ShaderBackend.Spirv

/-- What a search knows after some instructions without finding anything. -/
def InputScan.after (location : UInt32) (scan : InputScan) (listing : Listing) : InputScan :=
  listing.foldl (fun scan words => scan.record location (unplaced words)) scan

/-- A search that finds something has read the instructions in front of it. -/
theorem run_place_eq_some {location : UInt32} {scan : InputScan} {offset : Nat} {listing : Listing}
    {types : TypeTable} {input : InputVariable}
    (h : InputScan.run location scan (place offset listing) = (types, some input)) :
    ∃ before declaration later, listing = before ++ declaration :: later ∧
      (scan.after location before).finds (unplaced declaration) = true ∧
      types = (scan.after location before).types ∧
      input = ⟨offset + before.flatten.length, (unplaced declaration).arg 1,
        (unplaced declaration).arg 2⟩ := by
  induction listing generalizing scan offset with
  | nil => cases h
  | cons words listing ih =>
      rw [place_cons, InputScan.run] at h
      by_cases hFinds : scan.finds ⟨offset, words⟩ = true
      · rw [if_pos hFinds] at h
        cases h
        exact ⟨[], words, listing, rfl, hFinds, rfl, rfl⟩
      · rw [if_neg hFinds] at h
        obtain ⟨before, declaration, later, hSplit, hFound, hTypes, hInput⟩ := ih h
        refine ⟨words :: before, declaration, later, by rw [hSplit, List.cons_append], hFound,
          hTypes, ?_⟩
        rw [hInput, List.flatten_cons, List.length_append, Nat.add_assoc]

/-- A search that finds nothing has read every instruction, and none of them was one that
it looks for. -/
theorem run_place_eq_none {location : UInt32} {scan : InputScan} {offset : Nat} {listing : Listing}
    {types : TypeTable} (h : InputScan.run location scan (place offset listing) = (types, none))
    {before later : Listing} {declaration : List UInt32}
    (hSplit : listing = before ++ declaration :: later) :
    (scan.after location before).finds (unplaced declaration) = false := by
  induction listing generalizing scan offset before with
  | nil => simp at hSplit
  | cons words listing ih =>
      rw [place_cons, InputScan.run] at h
      by_cases hFinds : scan.finds ⟨offset, words⟩ = true
      · rw [if_pos hFinds] at h
        cases h
      · rw [if_neg hFinds] at h
        cases before with
        | nil =>
            cases hSplit
            exact Bool.not_eq_true _ ▸ hFinds
        | cons first before =>
            cases hSplit
            exact ih h rfl

/-- An instruction that declares a type of this shape. The length of an array is
the value of a constant and does not stand in the instruction itself. -/
def Declares (id : UInt32) (shape : TypeShape) (words : List UInt32) : Prop :=
  (unplaced words).arg 1 = id ∧
    match shape with
    | .scalar width =>
      ((unplaced words).is Op.typeFloat ∨ (unplaced words).is Op.typeInt) ∧
        (unplaced words).arg 2 = width
    | .vector component count =>
      (unplaced words).is Op.typeVector ∧ (unplaced words).arg 2 = component ∧
        (unplaced words).arg 3 = count
    | .array element _ => (unplaced words).is Op.typeArray ∧ (unplaced words).arg 2 = element
    | .pointer pointee storage =>
      (unplaced words).is Op.typePointer ∧ (unplaced words).arg 2 = storage ∧
        (unplaced words).arg 3 = pointee

/-- Recording one instruction adds at most the type that it declares. -/
theorem declares_of_mem_record {location : UInt32} {scan : InputScan} {words : List UInt32}
    {entry : UInt32 × TypeShape}
    (h : entry ∈ (scan.record location (unplaced words)).types.entries) :
    entry ∈ scan.types.entries ∨ Declares entry.1 entry.2 words := by
  have hInsert (id : UInt32) (shape : TypeShape)
      (hMem : entry ∈ (scan.recordType id shape).types.entries)
      (hDeclares : Declares id shape words) :
      entry ∈ scan.types.entries ∨ Declares entry.1 entry.2 words := by
    rcases OrderedMap.mem_put hMem with rfl | hOld
    · exact Or.inr hDeclares
    · exact Or.inl hOld
  unfold InputScan.record at h
  split at h
  · split at h <;> exact Or.inl h
  split at h
  · exact Or.inl h
  split at h
  · rename_i hScalar
    exact hInsert _ _ h ⟨rfl, by simpa [Declares] using hScalar, rfl⟩
  split at h
  · rename_i hVector
    exact hInsert _ _ h ⟨rfl, hVector, rfl, rfl⟩
  split at h
  · rename_i hArray
    split at h
    · exact hInsert _ _ h ⟨rfl, hArray, rfl⟩
    · exact Or.inl h
  split at h
  · rename_i hPointer
    exact hInsert _ _ h ⟨rfl, hPointer, rfl, rfl⟩
  · exact Or.inl h

/-- Every recorded type is declared by an instruction that was read. -/
theorem declares_of_mem_after {location : UInt32} {scan : InputScan} {listing : Listing}
    {entry : UInt32 × TypeShape} (h : entry ∈ (scan.after location listing).types.entries) :
    entry ∈ scan.types.entries ∨ ∃ words ∈ listing, Declares entry.1 entry.2 words := by
  induction listing generalizing scan with
  | nil => exact Or.inl h
  | cons words listing ih =>
      rcases @ih (scan.record location (unplaced words)) h with hMem | ⟨other, hOther, hDeclares⟩
      · exact (declares_of_mem_record hMem).imp id
          fun hDeclares => ⟨words, List.mem_cons_self .., hDeclares⟩
      · exact Or.inr ⟨other, List.mem_cons_of_mem _ hOther, hDeclares⟩

/-- The place of a found variable and the origin of the types known there. -/
structure Found (listing : Listing) (types : TypeTable) (input : InputVariable)
    (before : Listing) (declaration : List UInt32) (later : Listing) : Prop where
  split : listing = before ++ declaration :: later
  opcode : (unplaced declaration).is Op.declareVariable = true
  storage : (unplaced declaration).arg 3 = Storage.input
  offset : input.offset = Header.length + before.flatten.length
  typeId : input.typeId = (unplaced declaration).arg 1
  id : input.id = (unplaced declaration).arg 2
  declared : ∀ entry ∈ types.entries, ∃ words ∈ before, Declares entry.1 entry.2 words

/-- A found variable, with what the search has read by then. -/
theorem exists_read {d : Dissection} {location : UInt32} {types : TypeTable}
    {input : InputVariable} (h : findInput d.code location = (types, some input)) :
    ∃ before declaration later, Found d.listing types input before declaration later ∧
      types = (InputScan.after location {} before).types ∧
      (InputScan.after location {} before).finds (unplaced declaration) = true := by
  rw [findInput, Dissection.instructions_code] at h
  obtain ⟨before, declaration, later, hSplit, hFinds, hTypes, hInput⟩ := run_place_eq_some h
  refine ⟨before, declaration, later, ?_, hTypes, hFinds⟩
  simp only [InputScan.finds, Bool.and_eq_true, beq_iff_eq] at hFinds
  refine ⟨hSplit, hFinds.1.1, hFinds.1.2, ?_, ?_, ?_, ?_⟩
  · rw [hInput]
  · rw [hInput]
  · rw [hInput]
  · intro entry hMem
    rw [hTypes] at hMem
    rcases declares_of_mem_after hMem with hOld | hDeclared
    · simp at hOld
    · exact hDeclared

theorem exists_found {d : Dissection} {location : UInt32} {types : TypeTable}
    {input : InputVariable} (h : findInput d.code location = (types, some input)) :
    ∃ before declaration later, Found d.listing types input before declaration later := by
  obtain ⟨before, declaration, later, hFound, -⟩ := exists_read h
  exact ⟨before, declaration, later, hFound⟩

/-- An input variable has at least four words, since an operand that is missing
reads as zero and not as the input class. -/
theorem Found.four_le_length {listing before later : Listing} {types : TypeTable}
    {input : InputVariable} {declaration : List UInt32}
    (h : Found listing types input before declaration later) : 4 ≤ declaration.length := by
  by_contra hShort
  have hMissing : (unplaced declaration).arg 3 = 0 := by
    have hNone : declaration[3]? = none := List.getElem?_eq_none (by omega)
    simp [unplaced, Instruction.arg, List.getD_eq_getElem?_getD, hNone]
  exact absurd (h.storage.symm.trans hMissing) (by decide)

theorem Found.opcode_eq {listing before later : Listing} {types : TypeTable}
    {input : InputVariable} {declaration : List UInt32}
    (h : Found listing types input before declaration later) :
    (unplaced declaration).opcode = Op.declareVariable :=
  beq_iff_eq.1 h.opcode

end ShaderBackend.Spirv
