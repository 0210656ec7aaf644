import Mathlib.Data.List.Basic
import ShaderBackend.Proofs.Spirv.Declarations
import ShaderBackend.Spirv.Checked

/-! The checked removal of an input beside the plain one. On a module the edits in front of the access
chains only touch words of instructions that they have read, so that no offset leaves its bounds. What
is left are the sums of 32 bits: where they fit, the checked removal is the plain one. -/
namespace ShaderBackend.Spirv

/-- A headed stream with all words of a header. -/
structure Code.HasHeader (code : Code) : Prop where
  layout : code.layout = .headed
  length : Header.length ≤ code.length

theorem Code.HasHeader.bound_inside {code : Code} (h : code.HasHeader) :
    Header.boundOffset < code.words.length :=
  Nat.lt_of_lt_of_le (by decide) h.length

/-- A module has all words of a header. -/
theorem Dissection.hasHeader_code (d : Dissection) : d.code.HasHeader where
  layout := rfl
  length := by
    rw [Code.length, Dissection.code, List.length_append, List.length_append, d.header_length,
      Nat.add_assoc]
    exact Nat.le_add_right ..

section Bound

variable {code : Code}

@[simp] theorem setBound_setBound (code : Code) (first second : UInt32) :
    (code.setBound first).setBound second = code.setBound second := by
  simp [Code.setBound]

/-- The header word of the bound holds what was written last. -/
theorem word?_bound_setBound (h : code.HasHeader) (bound : UInt32) :
    (code.setBound bound).word? Header.boundOffset = some bound :=
  List.getElem?_set_self h.bound_inside

/-- Writing the bound that is there changes nothing. -/
theorem setBound_bound (h : code.HasHeader) : code.setBound code.bound = code := by
  have hInside := h.bound_inside
  have hBound : code.bound = code.words[Header.boundOffset] := by
    simp only [Code.bound, Code.bound?, h.layout, Code.word?, List.getElem?_eq_getElem hInside,
      Option.getD_some]
  rw [Code.setBound, hBound, List.set_getElem_self]

end Bound

section Ids

variable {code : Code}

theorem Code.HasHeader.setBound (h : code.HasHeader) (bound : UInt32) :
    (code.setBound bound).HasHeader where
  layout := h.layout
  length := by
    rw [Code.length, Code.setBound, List.length_set]
    exact h.length

theorem word?_bound (h : code.HasHeader) : code.word? Header.boundOffset = some code.bound := by
  rw [← setBound_bound h, word?_bound_setBound h, setBound_bound h]

theorem bound_setBound (h : code.HasHeader) (bound : UInt32) :
    (code.setBound bound).bound = bound := by
  have hWord := word?_bound (h.setBound bound)
  rw [word?_bound_setBound h] at hWord
  exact (Option.some.inj hWord).symm

/-- An id can be taken as long as the next bound fits its word. -/
theorem allocate?_eq (h : code.HasHeader) : code.allocate? =
    if code.bound.toNat + 1 < UInt32.size then some (code.bound, code.setBound (code.bound + 1))
    else none := by
  have hInside : Header.boundOffset < code.length := h.bound_inside
  rw [Code.allocate?, h.layout, word?_bound h]
  simp only [Option.bind_eq_bind, Option.bind_some, sum32?, UInt32.toNat_one]
  split
  · rw [Option.bind_some, Code.setWord?, if_pos hInside]
    rfl
  · rfl

/-- The id that is taken is the first one of the buffer, and those after it are left. -/
theorem freshId_of_allocate? {next : UInt32 × Code} (h : code.allocate? = some next) :
    next.1 = code.freshId 0 ∧ ∀ count, next.2.freshId count = code.freshId (1 + count) := by
  rw [Code.allocate?] at h
  cases hLayout : code.layout with
  | bare =>
      rw [hLayout] at h
      cases h
  | headed =>
      rw [hLayout] at h
      obtain ⟨id, hId, hRest⟩ := Option.bind_eq_some_iff.1 h
      obtain ⟨larger, hLarger, hLast⟩ := Option.bind_eq_some_iff.1 hRest
      obtain ⟨written, hWritten, hNext⟩ := Option.bind_eq_some_iff.1 hLast
      cases hNext
      have hInside : Header.boundOffset < code.words.length := (List.getElem?_eq_some_iff.1 hId).1
      have hBound : code.bound = id := by rw [Code.bound, Code.bound?, hLayout, hId, Option.getD_some]
      cases (Option.ite_none_right_eq_some.1 hLarger).2
      cases (Option.ite_none_right_eq_some.1 hWritten).2
      refine ⟨by rw [freshId_zero, hBound], freshId_of_bound_eq ?_⟩
      rw [freshId_succ, freshId_zero, hBound, Code.bound, Code.bound?, hLayout, Code.word?,
        List.getElem?_set_self hInside, Option.getD_some]

/-- The same where the ids of a buffer are known from how many were taken before. -/
theorem ids_of_allocate? {ids : Nat → UInt32} {used : Nat} {next : UInt32 × Code}
    (hIds : ∀ count, code.freshId count = ids (used + count)) (h : code.allocate? = some next) :
    next.1 = ids used ∧ ∀ count, next.2.freshId count = ids (used + 1 + count) := by
  obtain ⟨hFirst, hLater⟩ := freshId_of_allocate? h
  exact ⟨hFirst.trans (hIds 0), fun count => by rw [hLater, hIds, Nat.add_assoc]⟩

/-- Ids can be taken in two parts. -/
theorem takeIds?_add (first second : Nat) (code : Code) :
    code.takeIds? (first + second) = (code.takeIds? first).bind (Code.takeIds? second) := by
  induction first generalizing code with
  | zero => rw [Nat.zero_add, Code.takeIds?, Option.bind_some]
  | succ first ih =>
      rw [Nat.succ_add_eq_add_succ, Nat.add_succ, Code.takeIds?, Code.takeIds?]
      cases code.allocate? with
      | none => rfl
      | some next => exact ih next.2

/-- The ids that are left are those behind the ones that were taken. -/
theorem freshId_of_takeIds? {taken : Nat} {later : Code} (h : code.takeIds? taken = some later)
    (count : Nat) : later.freshId count = code.freshId (taken + count) := by
  induction taken generalizing code with
  | zero =>
      cases h
      rw [Nat.zero_add]
  | succ taken ih =>
      obtain ⟨next, hNext, hRest⟩ := Option.bind_eq_some_iff.1 h
      rw [ih hRest, (freshId_of_allocate? hNext).2, Nat.add_left_comm, ← Nat.add_assoc]

/-- Fresh ids can be taken as long as the next bound fits the header. -/
theorem takeIds?_eq (h : code.HasHeader) (count : Nat) : code.takeIds? count =
    if code.bound.toNat + count < UInt32.size then some (code.setBound (code.freshId count))
    else none := by
  induction count generalizing code with
  | zero =>
      have hFits : code.bound.toNat + 0 < UInt32.size := UInt32.toNat_lt _
      rw [Code.takeIds?, if_pos hFits, freshId_zero, setBound_bound h]
  | succ count ih =>
      rw [Code.takeIds?, allocate?_eq h]
      split
      · rename_i hNext
        have hBound : (code.bound + 1).toNat = code.bound.toNat + 1 := by
          rw [UInt32.toNat_add, UInt32.toNat_one]
          exact Nat.mod_eq_of_lt hNext
        have hFresh : (code.setBound (code.bound + 1)).freshId count =
            code.freshId (count + 1) := by
          rw [Nat.add_comm]
          refine freshId_of_bound_eq ?_ count
          rw [bound_setBound h, freshId_succ, freshId_zero]
        simp only [Option.bind_eq_bind, Option.bind_some]
        rw [ih (h.setBound _), bound_setBound h, hBound, hFresh, setBound_setBound,
          Nat.add_assoc, Nat.add_comm 1]
      · rename_i hFull
        rw [if_neg (by omega)]
        rfl

end Ids

section Constants

/-- The length of the constant of each level but the innermost is a sum of 32 bits. -/
def Countable (levels : List PrivateLevel) : Prop :=
  ∀ level ∈ levels, 3 + level.size.toNat < UInt32.size

instance : DecidablePred Countable := fun levels =>
  inferInstanceAs (Decidable (∀ level ∈ levels, 3 + level.size.toNat < UInt32.size))

/-- A constant that repeats another one is the plain constant, unless its length outgrows 32
bits. -/
theorem zeroConstant?_eq (own inner : UInt32) (level : PrivateLevel) :
    zeroConstant? own level (some inner) = if 3 + level.size.toNat < UInt32.size then
      some (encode Op.constantComposite
        (level.pointee :: own :: List.replicate level.size.toNat inner)) else none := by
  have hThree : (3 : UInt32).toNat = 3 := rfl
  rw [zeroConstant?, sum32?, hThree]
  split
  · have hLength : UInt32.ofNat (level.size.toNat + 1 + 1 + 1) = 3 + level.size := by
      rw [Nat.add_assoc, Nat.add_assoc, UInt32.ofNat_add, UInt32.ofNat_toNat, UInt32.add_comm]
      rfl
    rw [encode, List.length_cons, List.length_cons, List.length_replicate, hLength]
    rfl
  · rfl

/-- Behind the innermost level every constant repeats the one below it. -/
theorem zeroConstants?_eq_of_some (ids : Nat → UInt32) (used : Nat) (inner : UInt32)
    (levels : List PrivateLevel) :
    zeroConstants? ids used (some inner) levels =
      if Countable levels then some (zeroConstants ids used (some inner) levels) else none := by
  induction levels generalizing used inner with
  | nil => simp [zeroConstants?, zeroConstants, Countable]
  | cons level outer ih =>
      rw [zeroConstants?, zeroConstant?_eq, ih]
      by_cases hLevel : 3 + level.size.toNat < UInt32.size
      · by_cases hOuter : Countable outer
        · have hAll : Countable (level :: outer) := List.forall_mem_cons.2 ⟨hLevel, hOuter⟩
          rw [if_pos hLevel, if_pos hOuter, if_pos hAll]
          rfl
        · have hSome : ¬ Countable (level :: outer) := fun h => hOuter (List.forall_mem_cons.1 h).2
          rw [if_pos hLevel, if_neg hOuter, if_neg hSome]
          rfl
      · have hSome : ¬ Countable (level :: outer) := fun h => hLevel (List.forall_mem_cons.1 h).1
        rw [if_neg hLevel, if_neg hSome]
        rfl

/-- The innermost constant repeats nothing, so its level does not matter. -/
theorem replacement?_eq (ids : Nat → UInt32) {levels : List PrivateLevel} (h : levels ≠ [])
    (id : UInt32) : replacement? ids levels id =
      if Countable levels.dropLast then some (replacement ids levels id) else none := by
  obtain ⟨outermost, below, hHead⟩ := List.exists_cons_of_ne_nil h
  obtain ⟨innermost, outer, hReverse⟩ :=
    List.exists_cons_of_ne_nil (List.reverse_ne_nil_iff.2 h)
  have hRepeated : Countable levels.dropLast ↔ Countable outer := by
    have hOuter : levels.dropLast = outer.reverse := by
      rw [← List.reverse_reverse levels, hReverse, List.reverse_cons, List.dropLast_concat]
    simp only [Countable, hOuter, List.mem_reverse]
  simp only [replacement?, replacement, hReverse, zeroConstants?, zeroConstant?,
    zeroConstants?_eq_of_some, zeroConstants, hRepeated]
  split
  · simp [hHead]
  · rfl

end Constants

section Edits

variable {d : Dissection} {types : TypeTable} {input : InputVariable} {before later : Listing}
  {declaration : List UInt32}

/-- The four words that are taken out are words of the variable. -/
theorem Found.replaceVariable?_code
    (hFound : Found d.listing types input before declaration later) (inserted : Listing) :
    replaceVariable? d.code input.offset inserted =
      some (replaceVariable d.code input.offset inserted) := by
  have hInside : input.offset + 4 ≤ d.code.length := by
    have hFour := hFound.four_le_length
    rw [Code.length, hFound.words_eq, hFound.offset_eq]
    simp only [List.length_append]
    omega
  have hErase : d.code.erase? input.offset (input.offset + 4) =
      some (d.code.erase input.offset (input.offset + 4)) := if_pos ⟨by omega, hInside⟩
  have hLeft : input.offset ≤ (d.code.erase input.offset (input.offset + 4)).length := by
    have hLength : (d.code.words.take input.offset).length = input.offset :=
      List.length_take_of_le (by rw [Code.length] at hInside; omega)
    rw [Code.length, Code.erase, List.length_append, hLength]
    exact Nat.le_add_right ..
  rw [replaceVariable?, hErase]
  exact if_pos hLeft

/-- A word that an instruction has can be taken out of it. -/
theorem removeOperand?_eq {code : Code} {ins : Instruction} {position : Nat}
    (hPosition : position < ins.length) (hStop : ins.stop ≤ code.length) :
    removeOperand? code ins position = some (removeOperand code ins position) := by
  rw [Instruction.stop, ← Instruction.length] at hStop
  have hDifference : difference? ins.length 1 = some (ins.length - 1) := if_pos (by omega)
  have hLength : code.setLength? ins.offset (UInt32.ofNat (ins.length - 1)) =
      some (code.setLength ins.offset (UInt32.ofNat (ins.length - 1))) := if_pos (by omega)
  have hErased : ins.offset + position ≤ ins.offset + position + 1 ∧ ins.offset + position + 1 ≤
      (code.setLength ins.offset (UInt32.ofNat (ins.length - 1))).length := by
    rw [Code.length, Code.setLength, List.length_modify, ← Code.length]
    omega
  rw [removeOperand?, hDifference]
  simp only [Option.bind_eq_bind, Option.bind_some, hLength]
  exact if_pos hErased

/-- The edit of an entry point finds its words where they were read, since the edits behind it have
moved nothing in front of them. -/
theorem foldrM_removeOperand? (layout : Layout) (id : UInt32) (before rest : List UInt32)
    (listing : Listing) :
    let edits := ((place before.length listing).filter (·.is Op.entryPoint)).filterMap
      fun ins => (interfacePosition? id ins).map (ins, ·)
    let code : Code := ⟨layout, before ++ listing.flatten ++ rest⟩
    edits.foldrM (fun edit code => removeOperand? code edit.1 edit.2) code =
      some (edits.foldr (fun edit code => removeOperand code edit.1 edit.2) code) := by
  induction listing generalizing before with
  | nil => rfl
  | cons words listing ih =>
      have hChecked := ih (before ++ words)
      have hLater := foldr_removeOperand layout id (before ++ words) rest listing
      rw [List.length_append] at hChecked hLater
      have hJoin : before ++ (words :: listing).flatten ++ rest =
          before ++ words ++ listing.flatten ++ rest := by simp
      rw [place_cons, hJoin]
      by_cases hEntry : Instruction.is ⟨before.length, words⟩ Op.entryPoint = true
      · rw [List.filter_cons, if_pos hEntry]
        rcases withoutInterface_cases id before.length words hEntry with ⟨hNone, -⟩ |
          ⟨opening, front, back, hWords, hSome, -⟩
        · rw [List.filterMap_cons_none (by rw [hNone, Option.map_none])]
          exact hChecked
        · rw [List.filterMap_cons_some (by rw [hSome, Option.map_some])]
          simp only [List.foldrM_cons, List.foldr_cons, hChecked]
          rw [hLater]
          refine removeOperand?_eq ?_ ?_
          · rw [Instruction.length, hWords]
            simp
          · simp [Instruction.stop, Code.length]
      · rw [List.filter_cons, if_neg hEntry]
        exact hChecked

/-- So nothing leaves its bounds when the variable is taken from the entry points. -/
theorem unlistInput?_code (d : Dissection) (id : UInt32) :
    unlistInput? d.code id = some (unlistInput d.code id) := by
  have hEdits := foldrM_removeOperand? .headed id d.header d.tail d.listing
  rw [d.header_length] at hEdits
  simp only [unlistInput?, unlistInput, Dissection.instructions_code]
  exact hEdits

theorem Dissection.stop_le_length (d : Dissection) {ins : Instruction}
    (hMem : ins ∈ d.code.instructions) : ins.stop ≤ d.code.length := by
  rw [instructions_code] at hMem
  have hBounds := bounds_of_mem_place hMem
  rw [Code.length, code, List.length_append, List.length_append, d.header_length]
  omega

/-- Nor when its location is dropped, since an instruction that was read lies in the stream. -/
theorem dropLocation?_code (d : Dissection) (id : UInt32) :
    dropLocation? d.code id = some (dropLocation d.code id) := by
  rw [dropLocation?, dropLocation]
  cases hFind : d.code.instructions.find? fun ins =>
      ins.decorates Decoration.location && ins.arg 1 == id with
  | some ins =>
      have hStop := d.stop_le_length (List.mem_of_find?_eq_some hFind)
      exact if_pos ⟨Nat.le_add_right .., hStop⟩
  | none => rfl

/-- The module when its access chains are still to be changed. -/
def prepared (code : Code) (levels : List PrivateLevel) (input : InputVariable) : Code :=
  dropLocation (unlistInput (spliced code levels input) input.id) input.id

/-- A module whose variable has been replaced can be read again, whatever the words behind the
variable come to. -/
theorem Found.exists_cut (hFound : Found d.listing types input before declaration later)
    (levels : List PrivateLevel) : ∃ e : Dissection, spliced d.code levels input = e.code := by
  obtain ⟨listing, tail, hSized, hStuck, hCut⟩ := exists_dissection
    ((declarations d.code.freshId levels input.id).flatten ++
      (declaration.drop 4 ++ later.flatten) ++ d.tail)
  obtain ⟨e, hSpliced, -⟩ := hFound.exists_spliced levels hSized hStuck hCut
  exact ⟨e, hSpliced⟩

theorem prepared_code {e : Dissection} {code : Code} {levels : List PrivateLevel}
    (hSpliced : spliced code levels input = e.code) :
    prepared code levels input = ((e.unlist input.id).unlocate input.id).code := by
  rw [prepared, hSpliced, Dissection.unlistInput_code, Dissection.dropLocation_code]

/-- Of all edits in front of the access chains, only the sums of 32 bits can fail. -/
theorem Found.privatize?_code (hFound : Found d.listing types input before declaration later)
    {levels : List PrivateLevel} (hLevels : levels ≠ []) :
    privatize? d.code d.code.freshId levels input =
      if d.code.bound.toNat + freshIds levels < UInt32.size ∧ Countable levels.dropLast then
        some (prepared d.code levels input) else none := by
  obtain ⟨e, hSpliced⟩ := hFound.exists_cut levels
  have hBounded : Found (d.setBound (d.code.freshId (freshIds levels))).listing types input before
    declaration later := hFound
  rw [privatize?, takeIds?_eq d.hasHeader_code, replacement?_eq _ hLevels]
  by_cases hIds : d.code.bound.toNat + freshIds levels < UInt32.size
  · by_cases hCount : Countable levels.dropLast
    · rw [if_pos hIds, if_pos hCount, if_pos ⟨hIds, hCount⟩]
      simp only [Option.bind_eq_bind, Option.bind_some]
      rw [Dissection.setBound_code, hBounded.replaceVariable?_code, ← Dissection.setBound_code,
        replacement_eq_declarations _ hLevels, ← spliced, prepared, hSpliced, Option.bind_some,
        unlistInput?_code, Dissection.unlistInput_code, Option.bind_some, dropLocation?_code]
    · rw [if_pos hIds, if_neg hCount, if_neg fun h => hCount h.2]
      rfl
  · have hNot : ¬ (d.code.bound.toNat + freshIds levels < UInt32.size ∧
        Countable levels.dropLast) := fun h => hIds h.1
    rw [if_neg hIds, if_neg hNot]
    rfl

end Edits

section Chains

/-- With all result types inside the stream, no write fails. -/
theorem retypeChecked_eq (levels : List PrivateLevel) (id : UInt32) (depths : OrderedMap UInt32 Nat)
    {chains : List AccessChain} {code : Code}
    (hInside : ∀ chain ∈ chains, chain.offset + 1 < code.length) :
    retypeChecked levels id depths chains code = retype levels id depths chains code := by
  induction chains generalizing depths code with
  | nil => rfl
  | cons chain rest ih =>
      rw [List.forall_mem_cons] at hInside
      rw [retypeChecked, retype]
      cases chain.depth? id depths with
      | none => exact ih depths hInside.2
      | some depth =>
          cases hLevel : levels[depth]? with
          | none => simp only [hLevel]
          | some level =>
              have hWrite : code.writeWord (chain.offset + 1) level.pointer =
                  .ok { code with words := code.words.set (chain.offset + 1) level.pointer } := by
                rw [Code.writeWord, Code.setWord?, if_pos hInside.1]
              simp only [hLevel, hWrite]
              exact ih _ fun other hMem => by
                rw [Code.length, List.length_set]
                exact hInside.2 other hMem

/-- A chain that can be read has a word for its result type. -/
theorem retypeChainsChecked_code (d : Dissection) (levels : List PrivateLevel) (id : UInt32) :
    retypeChainsChecked levels id d.code = retypeAccessChains levels id d.code := by
  rw [retypeChainsChecked, retypeAccessChains]
  cases hRead : (d.code.instructions.filter (·.isAccessChain)).mapM AccessChain.read with
  | error e => rfl
  | ok chains =>
      obtain ⟨hLong, rfl⟩ := (mapM_read_eq_ok_iff _ _).1 hRead
      refine retypeChecked_eq levels id {} fun chain hMem => ?_
      obtain ⟨ins, hIns, rfl⟩ := List.mem_map.1 hMem
      have hStop := d.stop_le_length (List.mem_filter.1 hIns).1
      have hFour := hLong ins hIns
      rw [AccessChain.ofInstruction_offset]
      rw [Instruction.stop, ← Instruction.length] at hStop
      omega

end Chains

section Removal

variable {d : Dissection} {types : TypeTable} {input : InputVariable} {location : UInt32}

/-- A found variable without levels is left alone. -/
theorem eliminateWithin_of_eq_nil {code : Code}
    (hInput : findInput code location = (types, some input))
    (hNone : inputLevels types code.freshId input = []) :
    eliminateWithin code location = .ok none := by
  rw [eliminateWithin, hInput]
  exact if_pos (List.isEmpty_iff.2 hNone)

/-- One with levels is replaced, and then the access chains below it are retyped. -/
theorem eliminateWithin_of_ne_nil {code : Code}
    (hInput : findInput code location = (types, some input))
    (hSome : inputLevels types code.freshId input ≠ []) :
    eliminateWithin code location =
      (inBounds (privatize? code code.freshId (inputLevels types code.freshId input) input)).bind
        fun changed => (retypeChainsChecked (inputLevels types code.freshId input) input.id
          changed).map some := by
  have hBranch : ¬ (inputLevels types code.freshId input).isEmpty = true := by
    rwa [List.isEmpty_iff]
  rw [eliminateWithin, hInput]
  exact if_neg hBranch

/-- A variable that is left alone, or none at all. -/
theorem eliminateWithin_eq_none (code : Code) (location : UInt32)
    (h : ∀ types input, findInput code location = (types, some input) →
      inputLevels types code.freshId input = []) :
    eliminateWithin code location = .ok none ∧ eliminate code location = .ok none := by
  rcases hInput : findInput code location with ⟨types, _ | input⟩
  · rw [eliminateWithin, eliminate, hInput]
    exact ⟨rfl, rfl⟩
  · have hNone := h types input hInput
    exact ⟨eliminateWithin_of_eq_nil hInput hNone,
      (eliminate_eq_none_iff_of_input hInput).2 hNone⟩

/-- An input with levels is removed as it is unchecked, or some sum does not fit. -/
theorem eliminateWithin_eq {levels : List PrivateLevel}
    (hInput : findInput d.code location = (types, some input))
    (hLevels : inputLevels types d.code.freshId input = levels) (hSome : levels ≠ []) :
    eliminateWithin d.code location =
      if d.code.bound.toNat + freshIds levels < UInt32.size ∧ Countable levels.dropLast then
        eliminate d.code location
      else .error .outOfBounds := by
  subst hLevels
  obtain ⟨before, declaration, later, hFound⟩ := exists_found hInput
  obtain ⟨e, hSpliced⟩ := hFound.exists_cut (inputLevels types d.code.freshId input)
  rw [eliminateWithin_of_ne_nil hInput hSome, hFound.privatize?_code hSome,
    eliminate_eq hInput hSome, ← prepared, prepared_code hSpliced, ← retypeChainsChecked_code]
  split_ifs <;> rfl

/-- What a removal gives within its bounds, it gives unchecked. -/
theorem eliminate_of_eliminateWithin {changed : Option Code}
    (h : eliminateWithin d.code location = .ok changed) :
    eliminate d.code location = .ok changed := by
  by_cases hNothing : ∀ types input, findInput d.code location = (types, some input) →
      inputLevels types d.code.freshId input = []
  · obtain ⟨hWithin, hPlain⟩ := eliminateWithin_eq_none d.code location hNothing
    exact hPlain.trans (hWithin.symm.trans h)
  · push Not at hNothing
    obtain ⟨types, input, hInput, hLevels⟩ := hNothing
    rw [eliminateWithin_eq hInput rfl hLevels] at h
    split_ifs at h
    exact h

end Removal

end ShaderBackend.Spirv
