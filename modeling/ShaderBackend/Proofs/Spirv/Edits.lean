import Mathlib.Data.List.Basic
import ShaderBackend.Proofs.Spirv.Dissection

/-! The edits of a word stream, seen as changes to its list of instructions.
Each edit works on absolute offsets. Each law here says that it changes single
instructions where they stand, keeps the length fields right and leaves the
words behind the last instruction alone. -/
namespace ShaderBackend.Spirv

/-- The three edits below are stated on a split of the words, so that no offset has to be computed
when they are used one after the other. -/
theorem Code.erase_append (layout : Layout) (front words back : List UInt32) :
    (Code.mk layout (front ++ words ++ back)).erase front.length (front.length + words.length) =
      ⟨layout, front ++ back⟩ := by
  simp only [Code.erase, List.append_assoc, List.take_left', Code.mk.injEq, true_and]
  rw [← List.append_assoc front words back, List.drop_left' (by simp)]

theorem Code.insert_append (layout : Layout) (front words back : List UInt32) :
    (Code.mk layout (front ++ back)).insert front.length words =
      ⟨layout, front ++ words ++ back⟩ := by
  simp [Code.insert]

theorem Code.setLength_append (layout : Layout) (front back : List UInt32)
    (opening length : UInt32) :
    (Code.mk layout (front ++ opening :: back)).setLength front.length length =
      ⟨layout, front ++ openingWord opening length :: back⟩ := by
  simp [Code.setLength, List.modify_eq_take_drop]

/-- An entry point either does not list an id among its interface ids, or one
operand goes and the rest is encoded again. The position that the edit computes
is the place of that operand. -/
theorem withoutInterface_cases (id : UInt32) (offset : Nat) (words : List UInt32)
    (hEntry : (unplaced words).is Op.entryPoint = true) :
    (interfacePosition? id ⟨offset, words⟩ = none ∧ withoutInterface id words = words) ∨
    ∃ opening front back, words = opening :: (front ++ id :: back) ∧
      interfacePosition? id ⟨offset, words⟩ = some (front.length + 1) ∧
      withoutInterface id words = encode opening (front ++ back) := by
  obtain ⟨count, hCount⟩ : ∃ count, count + 1 = 3 + (unplaced words).literalLength 3 :=
    ⟨2 + (unplaced words).literalLength 3, by omega⟩
  have hPosition : interfacePosition? id ⟨offset, words⟩ =
      ((words.drop (count + 1)).findIdx? (· == id)).map (count + 1 + ·) := by
    rw [hCount]
    rfl
  have hWithout : withoutInterface id words = if (words.drop (count + 1)).contains id then
      relength (words.take (count + 1) ++ (words.drop (count + 1)).erase id) else words := by
    rw [hCount]
    simp only [withoutInterface, hEntry, Bool.true_and]
  by_cases hMem : id ∈ words.drop (count + 1)
  · right
    obtain ⟨front, back, hFresh, hSplit, hErase⟩ := List.exists_erase_eq hMem
    cases words with
    | nil => simp at hMem
    | cons opening operands =>
        rw [List.drop_succ_cons] at hSplit hMem
        have hShort : count ≤ operands.length := by
          by_contra hLong
          rw [List.drop_of_length_le (by omega)] at hMem
          simp at hMem
        have hOperands : operands.take count ++ (front ++ id :: back) = operands := by
          rw [← hSplit, List.take_append_drop]
        have hIndex : (front ++ id :: back).findIdx? (· == id) = some front.length := by
          rw [List.findIdx?_append, List.findIdx?_eq_none_iff.2]
          · simp [List.findIdx?_cons]
          · intro other hOther
            exact beq_eq_false_iff_ne.2 fun hEq => hFresh (hEq ▸ hOther)
        refine ⟨opening, operands.take count ++ front, back, ?_, ?_, ?_⟩
        · rw [List.append_assoc, hOperands]
        · rw [hPosition, List.drop_succ_cons, hSplit, hIndex, Option.map_some]
          simp only [List.length_append, List.length_take, Nat.min_eq_left hShort]
          congr 1
          omega
        · rw [hWithout, if_pos (by simp [hSplit]), hErase]
          simp [relength]
  · left
    refine ⟨?_, by simp [hWithout, hMem]⟩
    rw [hPosition, List.findIdx?_eq_none_iff.2, Option.map_none]
    intro other hOther
    exact beq_eq_false_iff_ne.2 fun hEq => hMem (hEq ▸ hOther)

/-- Taking one operand out of an instruction encodes the others again. -/
theorem removeOperand_append (layout : Layout) (before front back rest : List UInt32)
    (opening operand : UInt32) :
    removeOperand ⟨layout, before ++ (opening :: (front ++ operand :: back)) ++ rest⟩
        ⟨before.length, opening :: (front ++ operand :: back)⟩ (front.length + 1) =
      ⟨layout, before ++ encode opening (front ++ back) ++ rest⟩ := by
  have hLength :
      (opening :: (front ++ operand :: back)).length - 1 = (front ++ back).length + 1 := by
    simp only [List.length_cons, List.length_append]
    omega
  simp only [removeOperand, Instruction.length, hLength]
  rw [List.append_assoc, List.cons_append, Code.setLength_append]
  have hErase := Code.erase_append layout
    (before ++ openingWord opening (UInt32.ofNat ((front ++ back).length + 1)) :: front) [operand]
    (back ++ rest)
  simp only [List.length_append, List.length_cons, List.length_nil, Nat.zero_add, List.append_assoc,
    List.cons_append, List.nil_append] at hErase
  simpa [encode, Nat.add_assoc] using hErase

/-- An entry point without one operand still has the right length. -/
theorem Sized.withoutInterface {id : UInt32} {words : List UInt32} (h : Sized words) :
    Sized (withoutInterface id words) := by
  by_cases hEntry : (unplaced words).is Op.entryPoint = true
  · rcases withoutInterface_cases id 0 words hEntry with ⟨-, hSame⟩ |
      ⟨opening, front, back, rfl, -, hShorter⟩
    · rwa [hSame]
    · have hLength := h.length_lt
      rw [hShorter, sized_encode_iff]
      simp only [List.length_cons, List.length_append] at hLength ⊢
      omega
  · simpa [Spirv.withoutInterface, hEntry] using h

/-- The edits of all entry points, done from the last to the first. The
induction goes along the listing: the edits behind an instruction are done
first and move nothing in front of them. -/
theorem foldr_removeOperand (layout : Layout) (id : UInt32) (before rest : List UInt32)
    (listing : Listing) :
    (((place before.length listing).filter (·.is Op.entryPoint)).filterMap
        fun ins => (interfacePosition? id ins).map (ins, ·)).foldr
      (fun edit code => removeOperand code edit.1 edit.2)
      ⟨layout, before ++ listing.flatten ++ rest⟩ =
    ⟨layout, before ++ (listing.map (withoutInterface id)).flatten ++ rest⟩ := by
  induction listing generalizing before with
  | nil => rfl
  | cons words listing ih =>
      have hLater := ih (before ++ words)
      rw [List.length_append] at hLater
      have hJoin : before ++ (words :: listing).flatten ++ rest =
          before ++ words ++ listing.flatten ++ rest := by simp
      rw [place_cons, hJoin, List.map_cons, List.flatten_cons]
      by_cases hEntry : Instruction.is ⟨before.length, words⟩ Op.entryPoint = true
      · rw [List.filter_cons, if_pos hEntry]
        rcases withoutInterface_cases id before.length words hEntry with ⟨hNone, hSame⟩ |
          ⟨opening, front, back, rfl, hSome, hShorter⟩
        · rw [List.filterMap_cons_none (by rw [hNone, Option.map_none]), hLater, hSame]
          simp
        · rw [List.filterMap_cons_some (by rw [hSome, Option.map_some]), List.foldr_cons, hLater,
            hShorter]
          have hRemove := removeOperand_append layout before front back
            ((listing.map (withoutInterface id)).flatten ++ rest) opening id
          simpa only [List.append_assoc] using hRemove
      · have hSame : withoutInterface id words = words := if_neg fun hBoth =>
          hEntry (Bool.and_eq_true_iff.1 hBoth).1
        rw [List.filter_cons, if_neg hEntry, hLater, hSame]
        simp

/-- Erasing the first placed instruction with a property erases it from the
listing. -/
theorem erase_find_place (layout : Layout) (property : List UInt32 → Bool)
    (before rest : List UInt32) (listing : Listing) :
    (match (place before.length listing).find? fun ins => property ins.words with
      | some ins => (Code.mk layout (before ++ listing.flatten ++ rest)).erase ins.offset ins.stop
      | none => ⟨layout, before ++ listing.flatten ++ rest⟩) =
    ⟨layout, before ++ (listing.eraseP property).flatten ++ rest⟩ := by
  induction listing generalizing before with
  | nil => rfl
  | cons words listing ih =>
      have hLater := ih (before ++ words)
      rw [List.length_append] at hLater
      have hJoin : before ++ (words :: listing).flatten ++ rest =
          before ++ words ++ listing.flatten ++ rest := by simp
      rw [place_cons, hJoin]
      by_cases hHere : property words = true
      · rw [List.find?_cons, hHere, List.eraseP_cons_of_pos hHere]
        have hErase := Code.erase_append layout before words (listing.flatten ++ rest)
        simpa only [List.append_assoc, Instruction.stop] using hErase
      · rw [Bool.not_eq_true] at hHere
        rw [List.find?_cons, hHere, List.eraseP_cons_of_neg (by simp [hHere]), hLater]
        simp

/-- The access chain that an instruction of at least four words is. -/
def AccessChain.ofInstruction (ins : Instruction) : AccessChain :=
  ⟨ins.offset, ins.arg 2, ins.arg 3, ins.length - 4⟩

@[simp] theorem AccessChain.ofInstruction_offset (ins : Instruction) :
    (AccessChain.ofInstruction ins).offset = ins.offset := rfl

@[simp] theorem AccessChain.ofInstruction_result (offset : Nat) (words : List UInt32) :
    (AccessChain.ofInstruction ⟨offset, words⟩).result = (unplaced words).arg 2 := rfl

/-- Reading the access chains succeeds exactly if none is too short. -/
theorem mapM_read_eq_ok_iff (stream : List Instruction) (chains : List AccessChain) :
    stream.mapM AccessChain.read = .ok chains ↔
      (∀ ins ∈ stream, 4 ≤ ins.length) ∧ chains = stream.map AccessChain.ofInstruction := by
  induction stream generalizing chains with
  | nil => simp [pure, Except.pure, eq_comm]
  | cons ins stream ih =>
      rw [List.mapM_cons, List.forall_mem_cons]
      by_cases hShort : ins.length < 4
      · have hRead : AccessChain.read ins = .error (.truncatedAccessChain ins.offset) :=
          if_pos hShort
        rw [hRead]
        constructor
        · intro hOk
          cases hOk
        · rintro ⟨⟨hLong, -⟩, -⟩
          omega
      · have hRead : AccessChain.read ins = .ok (.ofInstruction ins) := if_neg hShort
        rw [hRead]
        cases hRest : stream.mapM AccessChain.read with
        | error e =>
            have hNone := fun long => (ih (stream.map .ofInstruction)).2 ⟨long, rfl⟩
            simp only [hRest] at hNone
            simp only [bind, Except.bind, reduceCtorEq, false_iff, not_and]
            intro hLong
            exact (nomatch hNone hLong.2)
        | ok rest =>
            obtain ⟨hLong, rfl⟩ := (ih rest).1 hRest
            simp only [bind, Except.bind, pure, Except.pure, Except.ok.injEq, List.map_cons]
            exact ⟨fun h => ⟨⟨by omega, hLong⟩, h.symm⟩, fun h => h.2.symm⟩

/-- The access chains among placed instructions. -/
def placedChains (offset : Nat) (listing : Listing) : List AccessChain :=
  ((place offset listing).filter (·.isAccessChain)).map .ofInstruction

theorem placedChains_cons_of_not {offset : Nat} {words : List UInt32} {listing : Listing}
    (h : (unplaced words).isAccessChain = false) :
    placedChains offset (words :: listing) = placedChains (offset + words.length) listing := by
  have hPlaced : Instruction.isAccessChain ⟨offset, words⟩ = false := h
  simp [placedChains, hPlaced]

/-- An access chain at the front of the listing is the first that the patcher collects, with the
place it has in the module. -/
theorem placedChains_cons {offset : Nat} {words : List UInt32} {listing : Listing}
    (h : (unplaced words).isAccessChain = true) :
    placedChains offset (words :: listing) = .ofInstruction ⟨offset, words⟩ ::
      placedChains (offset + words.length) listing := by
  have hPlaced : Instruction.isAccessChain ⟨offset, words⟩ = true := h
  simp [placedChains, hPlaced]

/-- An access chain finds the same depth by its record as by its words. -/
theorem depth?_ofInstruction (id : UInt32) {depths : OrderedMap UInt32 Nat}
    {lookup : UInt32 → Option Nat} (hLookup : ∀ i, depths.get? i = lookup i) (offset : Nat)
    {words : List UInt32} (h : (unplaced words).isAccessChain = true) :
    (AccessChain.ofInstruction ⟨offset, words⟩).depth? id depths = depthBelow? id lookup words := by
  change (if (unplaced words).arg 3 = id then some (words.length - 4) else
    (depths.get? ((unplaced words).arg 3)).map (· + (words.length - 4))) = _
  rw [depthBelow?, if_pos h, hLookup]
  split <;> simp

/-- Whether every access chain of a listing has a result type, a result and a
base. -/
def CompleteChains (listing : Listing) : Prop :=
  ∀ words ∈ listing, (unplaced words).isAccessChain = true → 4 ≤ words.length

theorem depthBelow?_of_not_chain (id : UInt32) (lookup : UInt32 → Option Nat) {words : List UInt32}
    (h : (unplaced words).isAccessChain = false) : depthBelow? id lookup words = none := by
  simp [depthBelow?, h]

theorem retype?_cons_of_eq_none {levels : List PrivateLevel} {id : UInt32}
    {lookup : UInt32 → Option Nat} {words : List UInt32} (h : depthBelow? id lookup words = none)
    (rest : Listing) :
    Listing.retype? levels id lookup (words :: rest) =
      (Listing.retype? levels id lookup rest).map (words :: ·) := by
  rw [Listing.retype?, h]

/-- A chain below the variable gets the pointer of its level, and its own result counts as below the
variable from there on. -/
theorem retype?_cons_of_eq_some {levels : List PrivateLevel} {id : UInt32}
    {lookup : UInt32 → Option Nat} {words : List UInt32} {depth : Nat}
    (h : depthBelow? id lookup words = some depth) (rest : Listing) :
    Listing.retype? levels id lookup (words :: rest) = levels[depth]?.bind fun level =>
      (Listing.retype? levels id
        (fun i => if i = (unplaced words).arg 2 then some depth else lookup i) rest).map
          (words.set 1 level.pointer :: ·) := by
  rw [Listing.retype?, h]
  simp only [Option.map_eq_bind, Function.comp_def]
  rfl

/-- Writing the result types by offset changes the same words as going through
the instructions one by one. The two tables of depths agree at every step. -/
theorem retype_placedChains (levels : List PrivateLevel) (id : UInt32) (layout : Layout)
    (before rest : List UInt32) (listing : Listing) (depths : OrderedMap UInt32 Nat)
    (lookup : UInt32 → Option Nat) (hLookup : ∀ i, depths.get? i = lookup i)
    (hComplete : CompleteChains listing) :
    match Listing.retype? levels id lookup listing with
    | some retyped =>
      retype levels id depths (placedChains before.length listing)
          ⟨layout, before ++ listing.flatten ++ rest⟩ =
        .ok ⟨layout, before ++ retyped.flatten ++ rest⟩
    | none => ∃ result depth,
      retype levels id depths (placedChains before.length listing)
          ⟨layout, before ++ listing.flatten ++ rest⟩ =
        .error (.chainTooDeep result depth id levels.length) := by
  induction listing generalizing before depths lookup with
  | nil => simp [Listing.retype?, placedChains, retype]
  | cons words listing ih =>
      have hRest : CompleteChains listing := fun w hMem => hComplete w (List.mem_cons_of_mem _ hMem)
      have hJoin (first : List UInt32) (others : Listing) :
          before ++ (first :: others).flatten ++ rest =
            before ++ first ++ others.flatten ++ rest := by simp
      have hSkip := ih (before ++ words) depths lookup hLookup hRest
      rw [List.length_append] at hSkip
      rw [hJoin]
      cases hChain : (unplaced words).isAccessChain with
      | false =>
          rw [placedChains_cons_of_not hChain,
            retype?_cons_of_eq_none (depthBelow?_of_not_chain id lookup hChain)]
          cases hRetyped : Listing.retype? levels id lookup listing <;>
            simpa [hRetyped, hJoin] using hSkip
      | true =>
          have hFound := depth?_ofInstruction id hLookup before.length hChain
          rw [placedChains_cons hChain, retype, hFound]
          cases hDepth : depthBelow? id lookup words with
          | none =>
              rw [retype?_cons_of_eq_none hDepth]
              cases hRetyped : Listing.retype? levels id lookup listing <;>
                simpa [hRetyped, hJoin] using hSkip
          | some depth =>
              rw [retype?_cons_of_eq_some hDepth]
              cases hLevel : levels[depth]? with
              | none => simp [hLevel]
              | some level =>
                  have hLong := hComplete words (List.mem_cons_self ..) hChain
                  have hWrite : (before ++ words ++ listing.flatten ++ rest).set (before.length + 1)
                      level.pointer =
                        before ++ words.set 1 level.pointer ++ listing.flatten ++ rest := by
                    rw [List.append_assoc, List.append_assoc, List.set_append_right _ _ (by omega),
                      List.set_append_left _ _ (by omega)]
                    simp
                  have hLater := ih (before ++ words.set 1 level.pointer)
                    (depths.insert ((unplaced words).arg 2) depth)
                    (fun i => if i = (unplaced words).arg 2 then some depth else lookup i)
                    (by intro i; simp [hLookup, eq_comm]) hRest
                  rw [List.length_append, List.length_set, ← hWrite] at hLater
                  cases hRetyped : Listing.retype? levels id
                      (fun i => if i = (unplaced words).arg 2 then some depth else lookup i)
                      listing <;>
                    simpa [hRetyped, hLevel, hJoin] using hLater

namespace Dissection

/-- The id bound in the header replaced. -/
def setBound (d : Dissection) (bound : UInt32) : Dissection :=
  { d with
    header := d.header.set Header.boundOffset bound
    header_length := by rw [List.length_set, d.header_length] }

theorem setBound_code (d : Dissection) (bound : UInt32) :
    d.code.setBound bound = (d.setBound bound).code := by
  have hInside : Header.boundOffset < d.header.length := by
    rw [d.header_length]
    decide
  simp [Code.setBound, code, setBound, hInside]

/-- Every entry point without its first mention of an id. -/
def unlist (d : Dissection) (id : UInt32) : Dissection :=
  { d with
    listing := d.listing.map (withoutInterface id)
    sized := by
      intro words hMem
      obtain ⟨old, hOld, rfl⟩ := List.mem_map.1 hMem
      exact (d.sized old hOld).withoutInterface }

/-- On a module cut into instructions, dropping a variable from the entry points is one pass over
the listing. -/
theorem unlistInput_code (d : Dissection) (id : UInt32) :
    unlistInput d.code id = (d.unlist id).code := by
  have hEdits := foldr_removeOperand .headed id d.header d.tail d.listing
  rw [d.header_length] at hEdits
  simp only [unlistInput, instructions_code]
  exact hEdits

/-- The instructions without the first location decoration of an id. -/
def unlocate (d : Dissection) (id : UInt32) : Dissection :=
  { d with
    listing := d.listing.eraseP (locates id)
    sized := fun words hMem => d.sized words (List.mem_of_mem_eraseP hMem) }

theorem dropLocation_code (d : Dissection) (id : UInt32) :
    dropLocation d.code id = (d.unlocate id).code := by
  have hErase := erase_find_place .headed (locates id) d.header d.tail d.listing
  rw [d.header_length] at hErase
  simp only [dropLocation, instructions_code]
  exact hErase

end Dissection

end ShaderBackend.Spirv
