import Mathlib.Data.List.Basic
import ShaderBackend.Proofs.Spirv.Edits
import ShaderBackend.Proofs.Spirv.Levels

/-! Removal of an input, as a whole. The offset edits of the stream come to the
removal on the list of instructions, provided that the words put in place of the
variable are a list of instructions again. The header and the words behind the
last instruction are followed as well. -/
namespace ShaderBackend.Spirv

/-- Changing result types keeps the number of words and the opening words. -/
theorem retype?_forall₂ {levels : List PrivateLevel} {id : UInt32} {lookup : UInt32 → Option Nat}
    {listing retyped : Listing} (h : listing.retype? levels id lookup = some retyped) :
    List.Forall₂ (fun words words' => words' = words ∨
      (unplaced words).isAccessChain = true ∧ ∃ pointer, words' = words.set 1 pointer)
      listing retyped := by
  induction listing generalizing lookup retyped with
  | nil =>
      cases h
      exact .nil
  | cons words listing ih =>
      cases hDepth : depthBelow? id lookup words with
      | none =>
          rw [retype?_cons_of_eq_none hDepth, Option.map_eq_some_iff] at h
          obtain ⟨rest, hRest, rfl⟩ := h
          exact .cons (Or.inl rfl) (ih hRest)
      | some depth =>
          rw [retype?_cons_of_eq_some hDepth, Option.bind_eq_some_iff] at h
          obtain ⟨level, -, hTail⟩ := h
          obtain ⟨rest, hRest, rfl⟩ := Option.map_eq_some_iff.1 hTail
          have hChain : (unplaced words).isAccessChain = true := by
            by_contra hNot
            simp [depthBelow?, hNot] at hDepth
          exact .cons (Or.inr ⟨hChain, level.pointer, rfl⟩) (ih hRest)

theorem Sized.set_one {words : List UInt32} (h : Sized words) (value : UInt32) :
    Sized (words.set 1 value) := by
  cases words with
  | nil => exact h
  | cons opening operands => simpa [Sized] using h

theorem retype?_sized {levels : List PrivateLevel} {id : UInt32} {lookup : UInt32 → Option Nat}
    {listing retyped : Listing} (h : listing.retype? levels id lookup = some retyped)
    (hSized : ∀ words ∈ listing, Sized words) : ∀ words ∈ retyped, Sized words := by
  have hChanges := retype?_forall₂ h
  clear h
  induction hChanges with
  | nil => simp
  | cons hFirst _ ih =>
      rw [List.forall_mem_cons] at hSized ⊢
      refine ⟨?_, ih hSized.2⟩
      rcases hFirst with rfl | ⟨-, pointer, rfl⟩
      · exact hSized.1
      · exact hSized.1.set_one pointer

namespace Dissection

/-- The last edit either changes result types only, or reports a chain that is
too deep. -/
theorem retypeAccessChains_code (d : Dissection) (levels : List PrivateLevel) (id : UInt32)
    (hComplete : CompleteChains d.listing) :
    match d.listing.retype? levels id fun _ => none with
    | some retyped => retypeAccessChains levels id d.code =
        .ok ⟨.headed, d.header ++ retyped.flatten ++ d.tail⟩
    | none => ∃ result depth, retypeAccessChains levels id d.code =
        .error (.chainTooDeep result depth id levels.length) := by
  have hRead : (d.code.instructions.filter (·.isAccessChain)).mapM AccessChain.read =
      .ok (placedChains Header.length d.listing) := by
    rw [mapM_read_eq_ok_iff, instructions_code]
    refine ⟨?_, rfl⟩
    intro ins hMem
    obtain ⟨hPlaced, hChain⟩ := List.mem_filter.1 hMem
    have hWords : ins.words ∈ d.listing := by
      rw [← map_words_place Header.length d.listing]
      exact List.mem_map_of_mem hPlaced
    exact hComplete ins.words hWords hChain
  have hRetype := retype_placedChains levels id .headed d.header d.tail d.listing {} (fun _ => none)
    (by simp) hComplete
  rw [d.header_length] at hRetype
  simp only [retypeAccessChains, hRead]
  exact hRetype

/-- A successful last edit changes the listing and nothing else. -/
theorem retypeAccessChains_eq_ok {d : Dissection} {levels : List PrivateLevel} {id : UInt32}
    {result : Code} (h : retypeAccessChains levels id d.code = .ok result) :
    ∃ e : Dissection, result = e.code ∧ e.header = d.header ∧ e.tail = d.tail ∧
      d.listing.retype? levels id (fun _ => none) = some e.listing := by
  have hComplete : CompleteChains d.listing := by
    cases hRead : (d.code.instructions.filter (·.isAccessChain)).mapM AccessChain.read with
    | error e =>
        simp only [retypeAccessChains, hRead] at h
        cases h
    | ok chains =>
        have hLong := ((mapM_read_eq_ok_iff _ _).1 hRead).1
        intro words hMem hChain
        rw [instructions_code] at hLong
        rw [← map_words_place Header.length d.listing] at hMem
        obtain ⟨ins, hPlaced, rfl⟩ := List.mem_map.1 hMem
        exact hLong ins (List.mem_filter.2 ⟨hPlaced, hChain⟩)
  have hEdit := d.retypeAccessChains_code levels id hComplete
  cases hRetyped : d.listing.retype? levels id fun _ => none with
  | none =>
      rw [hRetyped] at hEdit
      obtain ⟨deep, depth, hError⟩ := hEdit
      rw [h] at hError
      cases hError
  | some retyped =>
      rw [hRetyped] at hEdit
      refine ⟨⟨d.header, retyped, d.tail, d.header_length, retype?_sized hRetyped d.sized, d.stuck⟩,
        ?_, rfl, rfl, rfl⟩
      exact Except.ok.inj (h.symm.trans hEdit)

end Dissection

variable {types : TypeTable} {input : InputVariable} {before later : Listing}
  {declaration : List UInt32} {d : Dissection}

theorem Found.sized (h : Found d.listing types input before declaration later) :
    (∀ words ∈ before, Sized words) ∧ Sized declaration ∧ ∀ words ∈ later, Sized words := by
  have hSized := d.sized
  rw [h.split, List.forall_mem_append, List.forall_mem_cons] at hSized
  exact hSized

theorem Found.offset_eq (h : Found d.listing types input before declaration later) :
    input.offset = (d.header ++ before.flatten).length := by
  rw [h.offset, List.length_append, d.header_length]

theorem Found.words_eq (h : Found d.listing types input before declaration later) :
    d.code.words = d.header ++ before.flatten ++ (declaration ++ (later.flatten ++ d.tail)) := by
  simp [Dissection.code, h.split]

/-- The words of a found variable beyond the fourth stay behind what is put in
its place. -/
theorem Found.replaceVariable_code (hFound : Found d.listing types input before declaration later)
    (inserted : Listing) :
    replaceVariable d.code input.offset inserted =
      ⟨.headed, d.header ++ (before.flatten ++ (inserted.flatten ++
        (declaration.drop 4 ++ later.flatten))) ++ d.tail⟩ := by
  have hFour : (declaration.take 4).length = 4 := by
    rw [List.length_take, Nat.min_eq_left hFound.four_le_length]
  have hCode : d.code = ⟨.headed, d.header ++ before.flatten ++ declaration.take 4 ++
      (declaration.drop 4 ++ (later.flatten ++ d.tail))⟩ := by
    rw [List.append_assoc _ (declaration.take 4), ← List.append_assoc (declaration.take 4),
      List.take_append_drop, ← hFound.words_eq]
    rfl
  have hErase := Code.erase_append .headed (d.header ++ before.flatten) (declaration.take 4)
    (declaration.drop 4 ++ (later.flatten ++ d.tail))
  rw [hFour] at hErase
  rw [replaceVariable, hFound.offset_eq, hCode, hErase, Code.insert_append]
  simp only [List.append_assoc]

theorem Found.getElem?_instructions
    (h : Found d.listing types input before declaration later) :
    d.code.instructions[before.length]? = some ⟨input.offset, declaration⟩ := by
  have hPlaced : (place Header.length before).length = before.length := by
    rw [← List.length_map (·.words), map_words_place]
  rw [Dissection.instructions_code, h.split, place_append, h.offset,
    List.getElem?_append_right (by omega), hPlaced, Nat.sub_self]
  rfl

/-- The variable is the only instruction at its offset. -/
theorem Found.eq_declaration
    (h : Found d.listing types input before declaration later) {words : List UInt32}
    (hMem : ⟨input.offset, words⟩ ∈ d.code.instructions) : words = declaration := by
  have hPlace := List.mem_of_getElem? h.getElem?_instructions
  rw [Dissection.instructions_code] at hMem hPlace
  exact congrArg Instruction.words (eq_of_mem_place d.sized hMem hPlace rfl)

/-- The module after its variable has been replaced, before all other edits. -/
def spliced (code : Code) (levels : List PrivateLevel) (input : InputVariable) : Code :=
  replaceVariable (code.setBound (code.freshId (freshIds levels))) input.offset
    (declarations code.freshId levels input.id)

/-- The replacement of a variable is cut in front of the variable as before, and behind it as the
new words and those that stay are cut together. -/
theorem Found.exists_spliced (hFound : Found d.listing types input before declaration later)
    (levels : List PrivateLevel) {listing : Listing} {tail : List UInt32}
    (hSized : ∀ words ∈ listing, Sized words) (hStuck : Stuck tail)
    (hCut : listing.flatten ++ tail = (declarations d.code.freshId levels input.id).flatten ++
      (declaration.drop 4 ++ later.flatten) ++ d.tail) :
    ∃ e : Dissection, spliced d.code levels input = e.code ∧
      e.header = d.header.set Header.boundOffset (d.code.freshId (freshIds levels)) ∧
      e.listing = before ++ listing ∧ e.tail = tail := by
  let bounded := d.setBound (d.code.freshId (freshIds levels))
  have hBounded : Found bounded.listing types input before declaration later := hFound
  have hAll : ∀ words ∈ before ++ listing, Sized words :=
    List.forall_mem_append.2 ⟨hFound.sized.1, hSized⟩
  refine ⟨⟨bounded.header, before ++ listing, tail, bounded.header_length, hAll, hStuck⟩, ?_, rfl,
    rfl, rfl⟩
  rw [spliced, Dissection.setBound_code, hBounded.replaceVariable_code]
  simp only [Dissection.code, List.flatten_append, List.append_assoc] at hCut ⊢
  rw [hCut]
  rfl

theorem eliminate_eq {code : Code} {location : UInt32}
    (hInput : findInput code location = (types, some input))
    (hLevels : inputLevels types code.freshId input ≠ []) :
    eliminate code location =
      (retypeAccessChains (inputLevels types code.freshId input) input.id
        (dropLocation (unlistInput (spliced code (inputLevels types code.freshId input) input)
          input.id) input.id)).map some := by
  have hBranch : ¬(inputLevels types code.freshId input).isEmpty = true := by
    simpa using hLevels
  rw [eliminate, hInput, spliced, ← replacement_eq_declarations code.freshId hLevels]
  exact if_neg hBranch

/-- A found variable is left alone exactly if it has no levels. -/
theorem eliminate_eq_none_iff_of_input {code : Code} {location : UInt32}
    (hInput : findInput code location = (types, some input)) :
    eliminate code location = .ok none ↔ inputLevels types code.freshId input = [] := by
  by_cases hLevels : inputLevels types code.freshId input = []
  · refine iff_of_true ?_ hLevels
    rw [eliminate, hInput]
    exact if_pos (List.isEmpty_iff.2 hLevels)
  · refine iff_of_false ?_ hLevels
    rw [eliminate_eq hInput hLevels]
    cases retypeAccessChains (inputLevels types code.freshId input) input.id
      (dropLocation (unlistInput (spliced code (inputLevels types code.freshId input) input)
        input.id) input.id) <;> exact nofun

/-- Something is changed only if there is a variable with levels. -/
theorem exists_input_of_eliminate {code result : Code} {location : UInt32}
    (h : eliminate code location = .ok (some result)) :
    ∃ types input, findInput code location = (types, some input) ∧
      inputLevels types code.freshId input ≠ [] := by
  rw [eliminate] at h
  split at h
  · cases h
  · rename_i types input hInput
    refine ⟨types, input, hInput, fun hNone => ?_⟩
    have hBranch : (inputLevels types code.freshId input).isEmpty = true := by
      rw [hNone]
      rfl
    cases (if_pos hBranch).symm.trans h

/-- All edits behind the replacement act on instructions. They keep the header
and the words at which reading stops. -/
theorem eliminate_eq_ok {code result : Code} {location : UInt32}
    (hInput : findInput code location = (types, some input))
    {e : Dissection} (hSpliced : spliced code (inputLevels types code.freshId input) input = e.code)
    (h : eliminate code location = .ok (some result)) :
    ∃ f : Dissection, result = f.code ∧ f.header = e.header ∧ f.tail = e.tail ∧
      Listing.retype? (inputLevels types code.freshId input) input.id (fun _ => none)
        ((e.listing.map (withoutInterface input.id)).eraseP (locates input.id)) =
      some f.listing := by
  obtain ⟨types', input', hInput', hLevels⟩ := exists_input_of_eliminate h
  rw [hInput] at hInput'
  cases hInput'
  rw [eliminate_eq hInput hLevels, hSpliced, Dissection.unlistInput_code,
    Dissection.dropLocation_code] at h
  cases hRetyped : retypeAccessChains (inputLevels types code.freshId input) input.id
      ((e.unlist input.id).unlocate input.id).code with
  | error failure =>
      rw [hRetyped] at h
      cases h
  | ok final =>
      rw [hRetyped] at h
      cases h
      exact Dissection.retypeAccessChains_eq_ok hRetyped

theorem Dissection.bound_code_of_header {f : Dissection} {bound : UInt32}
    (h : f.header = d.header.set Header.boundOffset bound) : f.code.bound = bound := by
  have hInside : Header.boundOffset < (f.header ++ f.listing.flatten).length := by
    rw [List.length_append, f.header_length]
    exact Nat.lt_add_right _ (by decide)
  have hHeader : Header.boundOffset < f.header.length := by
    rw [f.header_length]
    decide
  have hSet : Header.boundOffset < d.header.length := by
    rw [d.header_length]
    decide
  change ((f.header ++ f.listing.flatten ++ f.tail)[Header.boundOffset]?).getD 0 = bound
  rw [List.getElem?_append_left hInside, List.getElem?_append_left hHeader, h,
    List.getElem?_set_self hSet, Option.getD_some]

/-- A removal from any module, with the cut that reading makes of the words once the variable has
been replaced. The bound has grown by the number of ids that the declarations took. -/
theorem Dissection.exists_eliminated {result : Code} {location : UInt32}
    (h : eliminate d.code location = .ok (some result)) :
    ∃ (types : TypeTable) (input : InputVariable) (before : Listing) (declaration : List UInt32)
      (later : Listing) (e f : Dissection),
      let levels := inputLevels types d.code.freshId input
      findInput d.code location = (types, some input) ∧ levels ≠ [] ∧
      Found d.listing types input before declaration later ∧
      spliced d.code levels input = e.code ∧ result = f.code ∧
      f.code.bound = d.code.freshId (freshIds levels) ∧
      Listing.retype? levels input.id (fun _ => none)
        ((e.listing.map (withoutInterface input.id)).eraseP (locates input.id)) =
          some f.listing := by
  obtain ⟨types, input, hInput, hLevels⟩ := exists_input_of_eliminate h
  obtain ⟨before, declaration, later, hFound⟩ := exists_found hInput
  obtain ⟨listing, tail, hSized, hStuck, hCut⟩ := exists_dissection
    ((declarations d.code.freshId (inputLevels types d.code.freshId input) input.id).flatten ++
      (declaration.drop 4 ++ later.flatten) ++ d.tail)
  obtain ⟨e, hSpliced, hHeader, -, -⟩ := hFound.exists_spliced _ hSized hStuck hCut
  obtain ⟨f, hResult, hKept, -, hRetyped⟩ := eliminate_eq_ok hInput hSpliced h
  exact ⟨types, input, before, declaration, later, e, f, hInput, hLevels, hFound, hSpliced, hResult,
    bound_code_of_header (hKept.trans hHeader), hRetyped⟩

end ShaderBackend.Spirv
