import ShaderBackend.Proofs.Spirv.Independence
import ShaderBackend.Spirv.InPlace

/-! Changing one buffer step by step and changing a copy that is kept on success come to the
same. Ids are taken only where something is put in, so a removal that finds nothing to do has
not touched the buffer, and a buffer that an error has left half changed is never looked at. -/
namespace ShaderBackend.Spirv

namespace Work

section Outcome

variable {α β : Type} {code after : Code}

theorem outcome_bind (work : Work α) (next : α → Work β) (code : Code) :
    outcome (work >>= next) code =
      (outcome work code).bind fun result => outcome (next result.1) result.2 := by
  simp only [outcome, bind, EStateM.bind]
  cases work code <;> rfl

theorem outcome_discard (work : Work α) (code : Code) :
    outcome (discard work) code = (outcome work code).map fun result => ((), result.2) := by
  simp only [outcome, discard, Functor.mapConst, Function.comp_apply, EStateM.map]
  cases work code <;> rfl

theorem outcome_pure (value : α) (code : Code) : outcome (pure value) code = .ok (value, code) :=
  rfl

theorem get_bind (next : Code → Work α) (code : Code) :
    ((get : Work Code) >>= next) code = next code code := rfl

theorem bind_eq_ok_iff {work : Work α} {next : α → Work β} {value : β} :
    (work >>= next) code = .ok value after ↔
      ∃ first middle, work code = .ok first middle ∧ next first middle = .ok value after := by
  simp only [bind, EStateM.bind]
  cases work code <;> simp

end Outcome

section Ids

variable {code : Code} {ids : Nat → UInt32} {used : Nat}

theorem outcome_check {α : Type} (checked : Option α) (code : Code) :
    outcome (check checked) code = (inBounds checked).map (·, code) := by
  cases checked <;> rfl

theorem outcome_edit (change : Code → Option Code) (code : Code) :
    outcome (edit change) code = (inBounds (change code)).map ((), ·) := by
  rw [edit, outcome, get_bind, ← outcome, outcome_bind, outcome_check]
  cases change code <;> rfl

/-- An id is taken by one check of the buffer. -/
theorem outcome_takeId (code : Code) : outcome takeId code = inBounds code.allocate? := by
  rw [takeId, outcome, get_bind, ← outcome, outcome_bind, outcome_check]
  cases code.allocate? <;> rfl

/-- The walk gives the levels that the table alone determines, and takes as many ids as there are new
pointers among them. It ends in an error where the buffer does not have these ids. -/
theorem outcome_takeLevels {types : TypeTable} {depth : Nat} {current : UInt32}
    {levels : List PrivateLevel} (hIds : ∀ count, code.freshId count = ids (used + count))
    (hLevels : types.levelsFrom ids depth used current = levels) :
    outcome (takeLevels types depth current) code =
      (inBounds (code.takeIds? (newPointers levels))).map (levels, ·) := by
  induction depth generalizing code used current levels with
  | zero =>
      subst hLevels
      rfl
  | succ depth ih =>
      cases hShape : types.get? current with
      | none =>
          rw [levelsFrom_eq_nil hShape] at hLevels
          rw [takeLevels, hShape, ← hLevels]
          rfl
      | some shape =>
          rw [takeLevels, hShape]
          cases hPointer : types.pointerTo? current Storage.privateClass with
          | some pointer =>
              simp only [TypeTable.levelsFrom, hShape, hPointer, TypeNode.parts_shape] at hLevels
              have hCount : newPointers levels =
                  newPointers (types.levelsFrom ids depth used shape.base) := by
                rw [← hLevels]
                exact List.countP_cons_of_neg Bool.false_ne_true
              rw [hCount, ← hLevels]
              simp only [takePointer, hPointer, pure_bind, outcome_bind, ih hIds rfl]
              cases code.takeIds? (newPointers (types.levelsFrom ids depth used shape.base)) <;> rfl
          | none =>
              simp only [TypeTable.levelsFrom, hShape, hPointer, TypeNode.parts_shape] at hLevels
              have hCount : newPointers levels =
                  newPointers (types.levelsFrom ids depth (used + 1) shape.base) + 1 := by
                rw [← hLevels]
                exact List.countP_cons_of_pos rfl
              rw [hCount, ← hLevels, Code.takeIds?]
              simp only [takePointer, hPointer, outcome_bind, outcome_takeId]
              cases hNext : code.allocate? with
              | none => rfl
              | some taken =>
                  obtain ⟨hId, hLater⟩ := ids_of_allocate? hIds hNext
                  simp only [inBounds, Except.bind, outcome_pure, ih hLater rfl, ← hId,
                    Option.bind_eq_bind, Option.bind_some]
                  cases taken.2.takeIds?
                    (newPointers (types.levelsFrom ids depth (used + 1) shape.base)) <;> rfl

/-- Each constant takes one id, and its length is checked as soon as it is put together. -/
theorem outcome_takeConstants (hIds : ∀ count, code.freshId count = ids (used + count))
    (inner : Option UInt32) (levels : List PrivateLevel) :
    outcome (takeConstants inner levels) code =
      (inBounds (code.takeIds? levels.length)).bind fun last =>
        (inBounds (zeroConstants? ids used inner levels)).map (·, last) := by
  induction levels generalizing code used inner with
  | nil => rfl
  | cons level outer ih =>
      rw [takeConstants, outcome_bind, outcome_takeId, zeroConstants?, List.length_cons,
        Code.takeIds?]
      cases hNext : code.allocate? with
      | none => rfl
      | some taken =>
          obtain ⟨hId, hLater⟩ := ids_of_allocate? hIds hNext
          simp only [inBounds, Except.bind, outcome_bind, outcome_check, ← hId,
            Option.bind_eq_bind, Option.bind_some]
          cases zeroConstant? taken.1 level inner with
          | none => cases taken.2.takeIds? outer.length <;> rfl
          | some own =>
              simp only [Except.map, ih hLater, Option.bind_some]
              cases taken.2.takeIds? outer.length with
              | none => rfl
              | some last =>
                  simp only [inBounds, Except.bind]
                  cases zeroConstants? ids (used + 1) (some taken.1) outer <;> rfl

/-- A walk without levels has taken no id. -/
theorem eq_of_takeLevels_eq_nil {types : TypeTable} {depth : Nat} {current : UInt32} {after : Code}
    (h : takeLevels types depth current code = .ok [] after) : after = code := by
  cases depth with
  | zero =>
      cases h
      rfl
  | succ depth =>
      rw [takeLevels] at h
      cases hShape : types.get? current with
      | none =>
          rw [hShape] at h
          cases h
          rfl
      | some shape =>
          rw [hShape] at h
          obtain ⟨pointer, middle, -, hRest⟩ := bind_eq_ok_iff.1 h
          obtain ⟨below, last, -, hCons⟩ := bind_eq_ok_iff.1 hRest
          cases hCons

end Ids

section Removal

theorem outcome_retypeChains (levels : List PrivateLevel) (id : UInt32)
    (depths : OrderedMap UInt32 Nat) (chains : List AccessChain) (code : Code) :
    outcome (retypeChains levels id depths chains) code =
      (retypeChecked levels id depths chains code).map ((), ·) := by
  induction chains generalizing depths code with
  | nil => rfl
  | cons chain rest ih =>
      rw [retypeChains, retypeChecked]
      cases hDepth : chain.depth? id depths with
      | none => exact ih depths code
      | some depth =>
          cases hLevel : levels[depth]? with
          | none => simp only [hLevel]; rfl
          | some level =>
              simp only [hLevel]
              rw [outcome, get_bind, ← outcome, outcome_bind]
              cases code.writeWord (chain.offset + 1) level.pointer with
              | error error => rfl
              | ok changed => exact ih (depths.insert chain.result depth) changed

theorem outcome_readChains (code : Code) :
    outcome readChains code =
      ((code.instructions.filter (·.isAccessChain)).mapM AccessChain.read).map (·, code) := by
  simp only [readChains, outcome_bind]
  change outcome (MonadExcept.ofExcept _) code = _
  cases (code.instructions.filter (·.isAccessChain)).mapM AccessChain.read <;> rfl

/-- The access chains are read and retyped by the buffer alone. -/
theorem outcome_readChains_bind (levels : List PrivateLevel) (id : UInt32) (code : Code) :
    outcome (readChains >>= retypeChains levels id {}) code =
      (retypeChainsChecked levels id code).map ((), ·) := by
  rw [outcome_bind, outcome_readChains, retypeChainsChecked]
  cases (code.instructions.filter (·.isAccessChain)).mapM AccessChain.read with
  | error error => rfl
  | ok chains => exact outcome_retypeChains levels id {} chains code

/-- The replacement, done edit by edit after the ids of the pointers have been taken. -/
theorem outcome_replaceInput {code taken : Code} (levels : List PrivateLevel) (input : InputVariable)
    (hTaken : code.takeIds? (newPointers levels) = some taken) :
    outcome (replaceInput levels input) taken =
      ((inBounds (privatize? code code.freshId levels input)).bind fun changed =>
        retypeChainsChecked levels input.id changed).map ((), ·) := by
  have hAll : code.takeIds? (freshIds levels) = taken.takeIds? levels.length := by
    rw [freshIds, takeIds?_add, hTaken, Option.bind_some]
  have hConstants := outcome_takeConstants (freshId_of_takeIds? hTaken) none levels.reverse
  rw [List.length_reverse, ← hAll] at hConstants
  rw [replaceInput, outcome_bind, hConstants, privatize?, replacement?]
  cases code.takeIds? (freshIds levels) with
  | none => rfl
  | some last =>
      simp only [Option.bind_eq_bind, Option.bind_some, Option.pure_def, outcome_bind, outcome_check]
      cases zeroConstants? code.freshId (newPointers levels) none levels.reverse with
      | none => rfl
      | some constants =>
          simp only [inBounds, Except.map, Except.bind, Option.bind_some]
          cases levels.head? with
          | none => rfl
          | some outermost =>
              simp only [Option.bind_some, outcome_edit]
              cases replaceVariable? last input.offset
                  (pointerDeclarations levels ++ constants.1 ++ [encode Op.declareVariable
                    [outermost.pointer, input.id, Storage.privateClass, constants.2]]) with
              | none => rfl
              | some replaced =>
                  simp only [inBounds, Except.map, Option.bind_some]
                  cases unlistInput? replaced input.id with
                  | none => rfl
                  | some unlisted =>
                      simp only [Option.bind_some]
                      cases dropLocation? unlisted input.id with
                      | none => rfl
                      | some dropped =>
                          have hChains := outcome_readChains_bind levels input.id dropped
                          rw [outcome_bind] at hChains
                          exact hChains

theorem eliminateInPlace_eq {code : Code} {location : UInt32} {types : TypeTable}
    {input : InputVariable} (hInput : findInput code location = (types, some input)) :
    eliminateInPlace location code = removeInput types input code := by
  rw [eliminateInPlace, get_bind, hInput]

theorem eliminateInPlace_of_none {code : Code} {location : UInt32} {types : TypeTable}
    (hInput : findInput code location = (types, none)) :
    eliminateInPlace location code = .ok false code := by
  rw [eliminateInPlace, get_bind, hInput]
  rfl

/-- Only an input whose type is a recorded pointer is looked at any further. -/
theorem removeInput_cases (types : TypeTable) (input : InputVariable) :
    (∃ pointee storage, types.get? input.typeId = some (.pointer pointee storage)) ∨
      removeInput types input = pure false ∧ ∀ ids, inputLevels types ids input = [] := by
  cases hType : types.get? input.typeId with
  | none => exact Or.inr ⟨by rw [removeInput, hType], fun ids => by rw [inputLevels, hType]⟩
  | some shape =>
      cases shape with
      | pointer pointee storage => exact Or.inl ⟨pointee, storage, rfl⟩
      | _ => exact Or.inr ⟨by rw [removeInput, hType], fun ids => by rw [inputLevels, hType]⟩

theorem removeInput_eq {types : TypeTable} {input : InputVariable} {pointee storage : UInt32}
    (hType : types.get? input.typeId = some (.pointer pointee storage)) :
    removeInput types input = do
      let levels ← takeLevels types types.size pointee
      if levels.isEmpty then return false
      replaceInput levels input
      return true := by
  rw [removeInput, hType]

/-- Without the ids for the pointers of its levels, an input cannot be replaced. -/
theorem privatize?_eq_none {code : Code} {levels : List PrivateLevel} (input : InputVariable)
    (hNone : code.takeIds? (newPointers levels) = none) :
    privatize? code code.freshId levels input = none := by
  rw [privatize?, freshIds, takeIds?_add, hNone]
  rfl

/-- Removing an input in place answers as the removal that gives a new module does. -/
theorem outcome_eliminateInPlace (location : UInt32) (code : Code) :
    outcome (eliminateInPlace location) code =
      (eliminateWithin code location).map fun changed => (changed.isSome, changed.getD code) := by
  rcases hInput : findInput code location with ⟨types, _ | input⟩
  · rw [outcome, eliminateInPlace_of_none hInput, eliminateWithin, hInput]
    rfl
  rcases removeInput_cases types input with ⟨pointee, storage, hType⟩ | ⟨hRun, hLevels⟩
  · have hLevels : types.levelsFrom code.freshId types.size 0 pointee =
        inputLevels types code.freshId input := by
      rw [inputLevels, hType]
      rfl
    have hTaken := outcome_takeLevels (fun count => by rw [Nat.zero_add]) hLevels
    rw [outcome, eliminateInPlace_eq hInput, removeInput_eq hType, ← outcome, outcome_bind, hTaken]
    by_cases hNone : inputLevels types code.freshId input = []
    · rw [eliminateWithin_of_eq_nil hInput hNone, hNone]
      rfl
    · have hBranch : ¬(inputLevels types code.freshId input).isEmpty = true := by
        rwa [List.isEmpty_iff]
      rw [eliminateWithin_of_ne_nil hInput hNone]
      cases hPointers : code.takeIds? (newPointers (inputLevels types code.freshId input)) with
      | none =>
          rw [privatize?_eq_none input hPointers]
          rfl
      | some taken =>
          have hReplaced := outcome_replaceInput _ input hPointers
          simp only [inBounds, Except.map, Except.bind, if_neg hBranch, outcome_bind, hReplaced]
          cases privatize? code code.freshId (inputLevels types code.freshId input) input with
          | none => rfl
          | some changed =>
              dsimp only
              cases retypeChainsChecked (inputLevels types code.freshId input) input.id
                changed <;> rfl
  · rw [outcome, eliminateInPlace_eq hInput, hRun,
      eliminateWithin_of_eq_nil hInput (hLevels code.freshId)]
    rfl

/-- A removal that finds nothing to do leaves the buffer as it was. -/
theorem eq_of_eliminateInPlace_eq_false {code after : Code} {location : UInt32}
    (h : eliminateInPlace location code = .ok false after) : after = code := by
  rcases hInput : findInput code location with ⟨types, _ | input⟩
  · rw [eliminateInPlace_of_none hInput] at h
    cases h
    rfl
  rw [eliminateInPlace_eq hInput] at h
  rcases removeInput_cases types input with ⟨pointee, storage, hType⟩ | ⟨hRun, -⟩
  · rw [removeInput_eq hType] at h
    obtain ⟨levels, middle, hTaken, hRest⟩ := bind_eq_ok_iff.1 h
    cases levels with
    | nil =>
        cases hRest
        exact eq_of_takeLevels_eq_nil hTaken
    | cons level below =>
        obtain ⟨-, last, -, hTrue⟩ := bind_eq_ok_iff.1 hRest
        cases hTrue
  · rw [hRun] at h
    cases h
    rfl

/-- It makes no difference whether a removal works on the buffer or on a copy of it. -/
theorem outcome_eliminateOnCopy (location : UInt32) (code : Code) :
    outcome (eliminateOnCopy location) code = outcome (eliminateInPlace location) code := by
  rw [outcome, outcome, eliminateOnCopy]
  cases hRun : eliminateInPlace location code with
  | error error after => rfl
  | ok removed after =>
      cases removed with
      | true => rfl
      | false =>
          rw [eq_of_eliminateInPlace_eq_false hRun]

/-- Removals in place at several locations come to the same removals of a module. -/
theorem outcome_forM_eliminateInPlace (d : Dissection) (locations : List UInt32) :
    outcome (forM locations fun location => discard (eliminateInPlace location)) d.code =
      (eliminateEach locations d.code).map ((), ·) := by
  induction locations generalizing d with
  | nil => rfl
  | cons location rest ih =>
      rw [List.forM_cons, outcome_bind, outcome_discard,
        outcome_eliminateInPlace, eliminateEach_cons]
      cases hRemoved : eliminateWithin d.code location with
      | error error => rfl
      | ok changed =>
          cases changed with
          | none => exact ih d
          | some result =>
              obtain ⟨-, -, -, -, -, -, f, -, -, -, -, rfl, -⟩ :=
                Dissection.exists_eliminated (eliminate_of_eliminateWithin hRemoved)
              exact ih f

/-- It makes no difference for a whole run either. -/
theorem outcome_forM_eliminateOnCopy (locations : List UInt32) (code : Code) :
    outcome (forM locations fun location => discard (eliminateOnCopy location)) code =
      outcome (forM locations fun location => discard (eliminateInPlace location)) code := by
  induction locations generalizing code with
  | nil => rfl
  | cons location rest ih =>
      rw [List.forM_cons, List.forM_cons, outcome_bind, outcome_bind, outcome_discard,
        outcome_discard, outcome_eliminateOnCopy]
      simp only [ih]

end Removal

end Work

/-- Whatever is done at each set bit is done at exactly the set bits, once and in order. -/
theorem forEachBit_eq_forM {m : Type → Type} [Monad m] (mask : UInt32) (action : UInt32 → m Unit) :
    forEachBit mask action = forM (setBits mask) action := by
  induction mask using forEachBit.induct with
  | case1 => rw [forEachBit]; rfl
  | case2 mask hNonzero ih =>
      rw [forEachBit, dif_neg hNonzero, ih, setBits_eq_cons hNonzero, List.forM_cons]

/-- The words that the removals at the set bits of a mask leave in the buffer. -/
def eliminatedInPlace (mask : UInt32) (code : Code) : Except PatchError Code :=
  (Work.outcome (forEachBit mask fun location => discard (Work.eliminateInPlace location))
    code).map (·.2)

theorem specializeInPlace_eq (template : Code) (survey : Survey) (bindings : Bindings)
    (variant : Variant) :
    specializeInPlace template survey bindings variant =
      (remapSlots survey bindings template).bind fun code =>
        (if variant.dualSourceBlend then swapBlendOutput survey code else .ok code).bind
          (eliminatedInPlace variant.unwrittenInputs) := by
  have hLast (code : Code) (next : Unit × Code → Except PatchError Code)
      (hNext : ∀ answer, next answer = .ok answer.2) :
      (Work.outcome (forEachBit variant.unwrittenInputs
        fun location => discard (Work.eliminateInPlace location)) code).bind next =
      eliminatedInPlace variant.unwrittenInputs code := by
    rw [eliminatedInPlace, funext hNext]
    cases Work.outcome (forEachBit variant.unwrittenInputs
      fun location => discard (Work.eliminateInPlace location)) code <;> rfl
  rw [specializeInPlace]
  cases remapSlots survey bindings template with
  | error error => rfl
  | ok code =>
      cases variant.dualSourceBlend with
      | false => exact hLast code _ fun _ => rfl
      | true =>
          cases hSwapped : swapBlendOutput survey code with
          | error error => simp [hSwapped, bind, Except.bind]
          | ok exchanged =>
              simp only [hSwapped, bind, Except.bind, if_true]
              exact hLast exchanged _ fun _ => rfl

/-- In place too, the inputs are removed last, from the module that a specialization without
removals gives. -/
theorem specializeInPlace_eq_bind (template : Code) (survey : Survey) (bindings : Bindings)
    (variant : Variant) :
    specializeInPlace template survey bindings variant =
      (specialize template survey bindings { variant with unwrittenInputs := 0 }).bind
        (eliminatedInPlace variant.unwrittenInputs) := by
  have hNone (code : Code) : eliminateAll 0 code = .ok code := by rw [eliminateAll, dif_pos rfl]
  rw [specializeInPlace_eq, specialize_eq, funext hNone]
  cases remapSlots survey bindings template with
  | error error => rfl
  | ok code =>
      change (if variant.dualSourceBlend then swapBlendOutput survey code else .ok code).bind _ =
        Except.bind (Except.bind (if variant.dualSourceBlend then swapBlendOutput survey code
          else .ok code) _) _
      cases (if variant.dualSourceBlend then swapBlendOutput survey code else .ok code) <;> rfl

/-- Where no input is removed, nothing is done in place. -/
theorem specializeInPlace_of_zero (template : Code) (survey : Survey) (bindings : Bindings)
    (dual : Bool) :
    specializeInPlace template survey bindings { dualSourceBlend := dual } =
      specialize template survey bindings { dualSourceBlend := dual } := by
  have hNone (code : Code) : eliminatedInPlace 0 code = .ok code := by
    rw [eliminatedInPlace, forEachBit, dif_pos rfl]
    rfl
  rw [specializeInPlace_eq_bind, funext hNone]
  cases specialize template survey bindings { dualSourceBlend := dual } <;> rfl

theorem eliminatedInPlace_code (d : Dissection) (mask : UInt32) :
    eliminatedInPlace mask d.code = eliminateAll mask d.code := by
  rw [eliminatedInPlace, forEachBit_eq_forM, Work.outcome_forM_eliminateInPlace,
    eliminateAll_eq_eliminateEach]
  cases eliminateEach (setBits mask) d.code <;> rfl

/-- A module is specialized in place to the same words as by removals that give new modules. -/
theorem specializeInPlace_eq_specialize {words : List UInt32} {template : Code}
    (hTemplate : Code.ofWords words = .ok template) (survey : Survey) (bindings : Bindings)
    (variant : Variant) :
    specializeInPlace template survey bindings variant =
      specialize template survey bindings variant := by
  rw [specializeInPlace_eq_bind, specialize_eq_bind template survey bindings variant]
  cases hBase : specialize template survey bindings { variant with unwrittenInputs := 0 } with
  | error error => rfl
  | ok base =>
      obtain ⟨hLayout, hLength⟩ := size_specialize hBase
      obtain ⟨hHeaded, hLong⟩ := Dissection.headed_of_ofWords hTemplate
      obtain ⟨d, rfl⟩ :=
        Dissection.exists_of_layout (hLayout.trans hHeaded) (hLong.trans_eq hLength.symm)
      exact eliminatedInPlace_code d variant.unwrittenInputs

/-- Specialization in place is specialization without removals, followed by one removal for each
set bit of the mask, the lowest first, each of them on a copy that takes effect as a whole or
not at all. The first error ends both. On every module such a removal comes to the one that gives a
new module, and a removal in place that finds nothing to do has not touched the buffer. -/
theorem specialize_transactional {words : List UInt32} {template : Code}
    (hTemplate : Code.ofWords words = .ok template) (survey : Survey) (bindings : Bindings)
    (dual : Bool) (mask : UInt32) :
    let variant : Variant := { dualSourceBlend := dual, unwrittenInputs := mask }
    let onCopies : Work Unit :=
      forM (setBits mask) fun location => discard (Work.eliminateOnCopy location)
    specialize template survey bindings variant =
      specializeInPlace template survey bindings variant ∧
    specializeInPlace template survey bindings variant =
      (specializeInPlace template survey bindings { dualSourceBlend := dual }).bind
        (fun base => (onCopies.outcome base).map (·.2)) ∧
    (setBits mask).Pairwise (· < ·) ∧
    (∀ location, location ∈ setBits mask ↔ mask.toNat.testBit location.toNat = true) ∧
    (∀ (m : Type → Type) [Monad m] (action : UInt32 → m Unit),
      forEachBit mask action = forM (setBits mask) action) ∧
    (∀ (code : Code) location, (Work.eliminateOnCopy location).outcome code =
      (eliminateWithin code location).map fun changed => (changed.isSome, changed.getD code)) ∧
    ∀ code location after, Work.eliminateInPlace location code = .ok false after →
      after = code := by
  intro variant onCopies
  refine ⟨(specializeInPlace_eq_specialize hTemplate survey bindings variant).symm, ?_,
    pairwise_setBits mask, fun _ => mem_setBits_iff, fun _ => forEachBit_eq_forM mask, ?_,
    fun _ _ _ => Work.eq_of_eliminateInPlace_eq_false⟩
  · rw [specializeInPlace_eq_bind, specializeInPlace_of_zero]
    congr 1
    funext base
    rw [eliminatedInPlace, forEachBit_eq_forM, ← Work.outcome_forM_eliminateOnCopy]
  · intro code location
    rw [Work.outcome_eliminateOnCopy, Work.outcome_eliminateInPlace]

theorem specialize_transactional_threeInputs :
    Code.ofWords threeInputsWords = .ok threeInputsTemplate ∧
    setBits 13 = [0, 2, 3] ∧
    (specializeInPlace threeInputsTemplate (.ofCode threeInputsTemplate) threeInputsBindings
      {}).bind (fun base => (Work.outcome (forM (setBits 13)
        fun location => discard (Work.eliminateOnCopy location)) base).map (·.2)) =
      .ok threeInputsSpecialized := by
  have hTemplate : Code.ofWords threeInputsWords = .ok threeInputsTemplate := rfl
  have hRun : specialize threeInputsTemplate (.ofCode threeInputsTemplate) threeInputsBindings
      { unwrittenInputs := 13 } = .ok threeInputsSpecialized := by cbv
  obtain ⟨hSame, hCopies, -⟩ := specialize_transactional hTemplate
    (.ofCode threeInputsTemplate) threeInputsBindings false 13
  exact ⟨hTemplate, by cbv, hCopies.symm.trans (hSame.symm.trans hRun)⟩

end ShaderBackend.Spirv
