import Mathlib.Data.List.Basic
import ShaderBackend.Proofs.Spirv.Declarations

/-! Which access chains get a new type. The pass over the chains keeps a table
of depths, and the table holds exactly the results of the chains read so far
that start at the variable, directly or through earlier chains. -/
namespace ShaderBackend.Spirv

/-- The access chains of a listing in order. -/
def Listing.chains (listing : Listing) : Listing :=
  listing.filter fun words => (unplaced words).isAccessChain

/-- Chain number `index` starts at a variable and reaches a number of steps below
it. Its base is the variable, or the result of an earlier chain that starts at
the variable. Only bases with the property `follows` are looked up among the
earlier results. -/
inductive Rooted (id : UInt32) (chains : Listing) (follows : UInt32 → Prop) : Nat → Nat → Prop where
  | direct {index : Nat} {words : List UInt32} :
      chains[index]? = some words → (unplaced words).arg 3 = id →
      Rooted id chains follows index (words.length - 4)
  | indirect {index earlier depth : Nat} {words base : List UInt32} :
      chains[index]? = some words → chains[earlier]? = some base → earlier < index →
      (unplaced words).arg 3 = (unplaced base).arg 2 → follows ((unplaced words).arg 3) →
      Rooted id chains follows earlier depth →
      Rooted id chains follows index (depth + (words.length - 4))

theorem Rooted.exists_getElem? {id : UInt32} {chains : Listing} {follows : UInt32 → Prop}
    {index depth : Nat} (h : Rooted id chains follows index depth) :
    ∃ words, chains[index]? = some words := by
  cases h with
  | direct hWords _ => exact ⟨_, hWords⟩
  | indirect hWords _ _ _ _ _ => exact ⟨_, hWords⟩

/-- As long as no chain has the id of the variable as its result, it makes no
difference whether that id is looked up among the results. -/
theorem rooted_iff_of_forall_ne {id : UInt32} {chains : Listing}
    (h : ∀ words ∈ chains, (unplaced words).arg 2 ≠ id) (index depth : Nat) :
    Rooted id chains (fun _ => True) index depth ↔ Rooted id chains (· ≠ id) index depth := by
  constructor
  · intro hRooted
    induction hRooted with
    | direct hWords hBase => exact .direct hWords hBase
    | indirect hWords hBaseWords hEarlier hBase _ _ ih =>
        have hOther := h _ (List.mem_of_getElem? hBaseWords)
        exact .indirect hWords hBaseWords hEarlier hBase (hBase ▸ hOther) ih
  · intro hRooted
    induction hRooted with
    | direct hWords hBase => exact .direct hWords hBase
    | indirect hWords hBaseWords hEarlier hBase _ _ ih =>
        exact .indirect hWords hBaseWords hEarlier hBase trivial ih

/-- The table after the first chains: it knows the depth of an id if one of them
is rooted and has this result. -/
def Tabulates (id : UInt32) (chains : Listing) (count : Nat)
    (lookup : UInt32 → Option Nat) : Prop :=
  ∀ result depth, lookup result = some depth ↔ ∃ index words, index < count ∧
    chains[index]? = some words ∧ (unplaced words).arg 2 = result ∧
    Rooted id chains (· ≠ id) index depth

section Pass

variable {id : UInt32} {chains : Listing} {count : Nat} {lookup : UInt32 → Option Nat}
  {words : List UInt32}

/-- With a right table, the next chain is found at its depth. -/
theorem Tabulates.depthBelow?_eq_some_iff (h : Tabulates id chains count lookup)
    (hWords : chains[count]? = some words) (hChain : (unplaced words).isAccessChain = true)
    (depth : Nat) :
    depthBelow? id lookup words = some depth ↔ Rooted id chains (· ≠ id) count depth := by
  rw [depthBelow?, if_pos hChain]
  by_cases hBase : (unplaced words).arg 3 = id
  · rw [if_pos hBase, Option.map_some, Option.some.injEq, Nat.zero_add]
    constructor
    · rintro rfl
      exact .direct hWords hBase
    · intro hRooted
      cases hRooted with
      | direct hSame _ =>
          rw [hWords] at hSame
          cases hSame
          rfl
      | indirect hSame _ _ _ hFollows _ =>
          rw [hWords] at hSame
          cases hSame
          exact (hFollows hBase).elim
  · rw [if_neg hBase, Option.map_eq_some_iff]
    constructor
    · rintro ⟨above, hAbove, rfl⟩
      obtain ⟨earlier, base, hEarlier, hBaseWords, hResult, hRooted⟩ := (h _ _).1 hAbove
      exact .indirect hWords hBaseWords hEarlier hResult.symm hBase hRooted
    · intro hRooted
      cases hRooted with
      | direct hSame hDirect =>
          rw [hWords] at hSame
          cases hSame
          exact (hBase hDirect).elim
      | indirect hSame hBaseWords hEarlier hResult _ hAbove =>
          rw [hWords] at hSame
          cases hSame
          exact ⟨_, (h _ _).2 ⟨_, _, hEarlier, hBaseWords, hResult.symm, hAbove⟩, rfl⟩

/-- A chain that is not rooted adds nothing to the table. -/
theorem Tabulates.skip (h : Tabulates id chains count lookup)
    (hNot : ∀ depth, ¬Rooted id chains (· ≠ id) count depth) :
    Tabulates id chains (count + 1) lookup := by
  intro result depth
  rw [h]
  constructor
  · rintro ⟨index, words, hIndex, hRest⟩
    exact ⟨index, words, Nat.lt_succ_of_lt hIndex, hRest⟩
  · rintro ⟨index, words, hIndex, hWords, hResult, hRooted⟩
    have hOther : index ≠ count := by
      rintro rfl
      exact hNot depth hRooted
    exact ⟨index, words, by omega, hWords, hResult, hRooted⟩

/-- A rooted chain joins the table with its result. No other chain has the same
result, so the entry replaces nothing. -/
theorem Tabulates.insert (h : Tabulates id chains count lookup)
    (hDistinct : (chains.map fun words => (unplaced words).arg 2).Nodup)
    (hWords : chains[count]? = some words) (hChain : (unplaced words).isAccessChain = true)
    {depth : Nat} (hRooted : Rooted id chains (· ≠ id) count depth) :
    Tabulates id chains (count + 1)
      fun i => if i = (unplaced words).arg 2 then some depth else lookup i := by
  have hSame (index : Nat) (other : List UInt32) (hOther : chains[index]? = some other)
      (hResult : (unplaced other).arg 2 = (unplaced words).arg 2) : index = count := by
    obtain ⟨hIndex, -⟩ := List.getElem?_eq_some_iff.1 hOther
    apply (List.getElem?_inj (by rwa [List.length_map]) hDistinct).1
    rw [List.getElem?_map, List.getElem?_map, hOther, hWords, Option.map_some, Option.map_some,
      hResult]
  intro result found
  show (if result = (unplaced words).arg 2 then some depth else lookup result) = some found ↔ _
  by_cases hResult : result = (unplaced words).arg 2
  · rw [if_pos hResult, ← (h.depthBelow?_eq_some_iff hWords hChain depth).2 hRooted,
      h.depthBelow?_eq_some_iff hWords hChain]
    constructor
    · intro hFound
      exact ⟨count, words, Nat.lt_succ_self count, hWords, hResult.symm, hFound⟩
    · rintro ⟨index, other, -, hOther, hOtherResult, hFound⟩
      rwa [hSame index other hOther (hOtherResult.trans hResult)] at hFound
  · rw [if_neg hResult, h]
    constructor
    · rintro ⟨index, other, hIndex, hRest⟩
      exact ⟨index, other, Nat.lt_succ_of_lt hIndex, hRest⟩
    · rintro ⟨index, other, hIndex, hOther, hOtherResult, hFound⟩
      have hBefore : index ≠ count := by
        rintro rfl
        rw [hWords] at hOther
        cases hOther
        exact hResult hOtherResult.symm
      exact ⟨index, other, by omega, hOther, hOtherResult, hFound⟩

end Pass

/-- The new words of a chain: its result type changes if the chain is rooted,
and nothing changes otherwise. -/
def Retypes (levels : List PrivateLevel) (id : UInt32) (chains : Listing) (index : Nat)
    (words words' : List UInt32) : Prop :=
  (∀ depth, Rooted id chains (· ≠ id) index depth →
    ∃ level, levels[depth]? = some level ∧ words' = words.set 1 level.pointer) ∧
  ((∀ depth, ¬Rooted id chains (· ≠ id) index depth) → words' = words)

/-- Chains and their new words, counted from a number on. -/
inductive RetypedFrom (levels : List PrivateLevel) (id : UInt32) (chains : Listing) :
    Nat → Listing → Listing → Prop where
  | nil (count : Nat) : RetypedFrom levels id chains count [] []
  | cons {count : Nat} {words words' : List UInt32} {rest rest' : Listing} :
      Retypes levels id chains count words words' →
      RetypedFrom levels id chains (count + 1) rest rest' →
      RetypedFrom levels id chains count (words :: rest) (words' :: rest')

theorem RetypedFrom.length_eq {levels : List PrivateLevel} {id : UInt32} {chains : Listing}
    {count : Nat} {rest rest' : Listing} (h : RetypedFrom levels id chains count rest rest') :
    rest'.length = rest.length := by
  induction h with
  | nil => rfl
  | cons _ _ ih => rw [List.length_cons, List.length_cons, ih]

theorem RetypedFrom.exists_getElem? {levels : List PrivateLevel} {id : UInt32} {chains : Listing}
    {count : Nat} {rest rest' : Listing} (h : RetypedFrom levels id chains count rest rest')
    {index : Nat} {words : List UInt32} (hWords : rest[index]? = some words) :
    ∃ words', rest'[index]? = some words' ∧
      Retypes levels id chains (count + index) words words' := by
  induction h generalizing index with
  | nil => cases hWords
  | @cons count first first' rest rest' hFirst _ ih =>
      cases index with
      | zero =>
          cases hWords
          exact ⟨first', rfl, hFirst⟩
      | succ index =>
          obtain ⟨words', hWords', hRetypes⟩ := ih hWords
          exact ⟨words', hWords', by rwa [Nat.add_right_comm] at hRetypes⟩

/-- The pass over the chains that are still to come, with a right table for those
in front of them. It fails only at a chain that is too deep. -/
theorem retype?_chains {levels : List PrivateLevel} {id : UInt32} {chains : Listing}
    (hChains : ∀ words ∈ chains, (unplaced words).isAccessChain = true)
    (hDistinct : (chains.map fun words => (unplaced words).arg 2).Nodup) (done rest : Listing)
    (hSplit : chains = done ++ rest) (lookup : UInt32 → Option Nat)
    (hTable : Tabulates id chains done.length lookup) :
    match rest.retype? levels id lookup with
    | some retyped => RetypedFrom levels id chains done.length rest retyped
    | none => ∃ index depth, Rooted id chains (· ≠ id) index depth ∧ levels.length ≤ depth := by
  induction rest generalizing done lookup with
  | nil => exact .nil _
  | cons words rest ih =>
      have hWords : chains[done.length]? = some words := by simp [hSplit]
      have hChain := hChains words (List.mem_of_getElem? hWords)
      have hDepth := hTable.depthBelow?_eq_some_iff hWords hChain
      have hRest := ih (done ++ [words]) (by simp [hSplit])
      rw [List.length_append, List.length_singleton] at hRest
      cases hBelow : depthBelow? id lookup words with
      | none =>
          have hNot (depth : Nat) : ¬Rooted id chains (· ≠ id) done.length depth := by
            rw [← hDepth, hBelow]
            exact Option.some_ne_none depth ∘ Eq.symm
          have hLater := hRest lookup (hTable.skip hNot)
          rw [retype?_cons_of_eq_none hBelow]
          cases hRetyped : Listing.retype? levels id lookup rest with
          | none =>
              rw [hRetyped] at hLater
              exact hLater
          | some retyped =>
              rw [hRetyped] at hLater
              exact .cons ⟨fun depth hRooted => (hNot depth hRooted).elim, fun _ => rfl⟩ hLater
      | some depth =>
          have hRooted := (hDepth depth).1 hBelow
          have hLater := hRest _ (hTable.insert hDistinct hWords hChain hRooted)
          rw [retype?_cons_of_eq_some hBelow]
          cases hLevel : levels[depth]? with
          | none => exact ⟨done.length, depth, hRooted, List.getElem?_eq_none_iff.1 hLevel⟩
          | some level =>
              have hFirst : Retypes levels id chains done.length words
                  (words.set 1 level.pointer) := by
                refine ⟨fun other hOther => ⟨level, ?_, rfl⟩, fun hNot => (hNot depth hRooted).elim⟩
                rw [← hDepth, hBelow] at hOther
                rw [← Option.some.inj hOther, hLevel]
              rw [Option.bind_some]
              cases hRetyped : Listing.retype? levels id
                  (fun i => if i = (unplaced words).arg 2 then some depth else lookup i) rest with
              | none =>
                  rw [hRetyped] at hLater
                  exact hLater
              | some retyped =>
                  rw [hRetyped] at hLater
                  exact .cons hFirst hLater

/-- The pass reads and changes access chains only. -/
theorem map_chains_retype? (levels : List PrivateLevel) (id : UInt32)
    (lookup : UInt32 → Option Nat) (listing : Listing) :
    (listing.retype? levels id lookup).map Listing.chains =
      listing.chains.retype? levels id lookup := by
  induction listing generalizing lookup with
  | nil => rfl
  | cons words rest ih =>
      cases hChain : (unplaced words).isAccessChain with
      | false =>
          have hBelow := depthBelow?_of_not_chain id lookup hChain
          have hSkip : Listing.chains (words :: rest) = Listing.chains rest := by
            simp [Listing.chains, hChain]
          rw [retype?_cons_of_eq_none hBelow, hSkip, ← ih, Option.map_map]
          congr 1
          funext retyped
          simp [Listing.chains, hChain]
      | true =>
          have hFirst (words' : List UInt32) (others : Listing)
              (hSame : (unplaced words').isAccessChain = (unplaced words).isAccessChain) :
              Listing.chains (words' :: others) = words' :: Listing.chains others := by
            simp [Listing.chains, hSame, hChain]
          rw [hFirst words rest rfl]
          cases hBelow : depthBelow? id lookup words with
          | none =>
              rw [retype?_cons_of_eq_none hBelow, retype?_cons_of_eq_none hBelow, ← ih,
                Option.map_map, Option.map_map]
              congr 1
              funext retyped
              exact hFirst words retyped rfl
          | some depth =>
              rw [retype?_cons_of_eq_some hBelow, retype?_cons_of_eq_some hBelow, ← ih]
              cases levels[depth]? with
              | none => rfl
              | some level =>
                  rw [Option.bind_some, Option.bind_some, Option.map_map, Option.map_map]
                  congr 1
                  funext retyped
                  exact hFirst _ retyped (isAccessChain_set_one words level.pointer)

theorem isAccessChain_of_touched {words : List UInt32} (h : touchedByUnlisting words = true) :
    (unplaced words).isAccessChain = false := by
  simp only [touchedByUnlisting, Instruction.is, Bool.or_eq_true, beq_iff_eq] at h
  simp only [Instruction.isAccessChain, Instruction.is]
  rcases h with hOpcode | hOpcode <;> rw [hOpcode] <;> decide

theorem chains_declarations (ids : Nat → UInt32) (levels : List PrivateLevel) (id : UInt32) :
    Listing.chains (declarations ids levels id) = [] := by
  rw [Listing.chains, List.filter_eq_nil_iff]
  intro words hMem hChain
  have hUntouched := not_touched_of_mem_declarations hMem
  rw [touchedByRemoval, hChain, Bool.or_true] at hUntouched
  cases hUntouched

/-- The edits in front of the pass leave the access chains alone. -/
theorem Found.chains_unlisted {listing before later : Listing} {types : TypeTable}
    {input : InputVariable} {declaration : List UInt32}
    (hFound : Found listing types input before declaration later) (ids : Nat → UInt32)
    (levels : List PrivateLevel) :
    Listing.chains (((before ++ declarations ids levels input.id ++ later).map
      (withoutInterface input.id)).eraseP (locates input.id)) = listing.chains := by
  have hVariable : (unplaced declaration).isAccessChain = false := by
    simp only [Instruction.isAccessChain, Instruction.is, hFound.opcode_eq]
    decide
  have hInserted := chains_declarations ids levels input.id
  rw [Listing.chains] at hInserted
  have hSame := (edited_unlisting input.id
    (before ++ declarations ids levels input.id ++ later)).filter_eq
    (fun words hTouched => isAccessChain_of_touched hTouched)
  rw [Listing.chains, hSame, Listing.chains, hFound.split]
  simp [List.filter_append, hInserted, hVariable]

/-- Complete and distinct access chains decide how the removal ends. It fails if
a rooted chain is too deep, and otherwise it gives each rooted chain the pointer
of its depth. -/
theorem eliminate_chains {words : List UInt32} {code : Code} {location : UInt32}
    {types : TypeTable} {input : InputVariable} (hCode : Code.ofWords words = .ok code)
    (hInput : findInput code location = (types, some input))
    (hLevels : inputLevels types code.freshId input ≠ [])
    (hFour : ∀ ins ∈ code.instructions, ins.offset = input.offset → ins.length = 4)
    (hFits : Fits (inputLevels types code.freshId input))
    (hComplete : ∀ words ∈ code.listing.chains, 4 ≤ words.length)
    (hDistinct : (code.listing.chains.map fun words => (unplaced words).arg 2).Nodup) :
    let levels := inputLevels types code.freshId input
    (∃ index depth result deep, Rooted input.id code.listing.chains (· ≠ input.id) index depth ∧
      levels.length ≤ depth ∧
      eliminate code location = .error (.chainTooDeep result deep input.id levels.length)) ∨
    ∃ result, eliminate code location = .ok (some result) ∧
      RetypedFrom levels input.id code.listing.chains 0 code.listing.chains
        result.listing.chains := by
  intro levels
  obtain ⟨d, rfl⟩ := Dissection.exists_of_ofWords hCode
  rw [Dissection.listing_code] at hComplete hDistinct ⊢
  obtain ⟨before, declaration, later, hFound⟩ := exists_found hInput
  have hLength : declaration.length = 4 :=
    hFour _ (List.mem_of_getElem? hFound.getElem?_instructions) rfl
  obtain ⟨e, hSpliced, -, -, hListing⟩ := spliced_code hFound hLength hFits
  have hEdits : eliminate d.code location = (retypeAccessChains levels input.id
      ((e.unlist input.id).unlocate input.id).code).map some := by
    rw [eliminate_eq hInput hLevels, hSpliced, Dissection.unlistInput_code,
      Dissection.dropLocation_code]
  have hChains : ((e.unlist input.id).unlocate input.id).listing.chains = d.listing.chains := by
    rw [← hFound.chains_unlisted d.code.freshId levels, ← hListing]
    rfl
  generalize (e.unlist input.id).unlocate input.id = g at hEdits hChains
  have hLong : CompleteChains g.listing := by
    intro words hMem hChain
    apply hComplete
    rw [← hChains]
    exact List.mem_filter.2 ⟨hMem, hChain⟩
  have hEmpty : Tabulates input.id d.listing.chains 0 fun _ => none := by simp [Tabulates]
  have hPass := @retype?_chains levels input.id d.listing.chains
    (fun words hMem => (List.mem_filter.1 hMem).2) hDistinct [] d.listing.chains rfl _ hEmpty
  have hMap := map_chains_retype? levels input.id (fun _ => none) g.listing
  have hEnd := g.retypeAccessChains_code levels input.id hLong
  rw [hChains] at hMap
  rw [← hMap] at hPass
  cases hRetyped : g.listing.retype? levels input.id fun _ => none with
  | none =>
      rw [hRetyped] at hPass hEnd
      obtain ⟨index, depth, hRooted, hDeep⟩ := hPass
      obtain ⟨result, deep, hError⟩ := hEnd
      exact Or.inl ⟨index, depth, result, deep, hRooted, hDeep, by rw [hEdits, hError]; rfl⟩
  | some retyped =>
      rw [hRetyped] at hPass hEnd
      obtain ⟨f, hFinal, -, -, hListed⟩ := Dissection.retypeAccessChains_eq_ok hEnd
      rw [hRetyped] at hListed
      refine Or.inr ⟨f.code, by rw [hEdits, hEnd, hFinal]; rfl, ?_⟩
      rw [Dissection.listing_code, ← Option.some.inj hListed]
      exact hPass

/-- The result declares the private pointers of all levels. -/
theorem hasType_eliminate {words : List UInt32} {code result : Code} {location : UInt32}
    {types : TypeTable} {input : InputVariable} (hCode : Code.ofWords words = .ok code)
    (hInput : findInput code location = (types, some input))
    (hFour : ∀ ins ∈ code.instructions, ins.offset = input.offset → ins.length = 4)
    (hFits : Fits (inputLevels types code.freshId input))
    (hResult : eliminate code location = .ok (some result)) {level : PrivateLevel}
    (hLevel : level ∈ inputLevels types code.freshId input) :
    HasType result.listing level.pointer (.pointer level.pointee Storage.privateClass) := by
  obtain ⟨d, rfl⟩ := Dissection.exists_of_ofWords hCode
  obtain ⟨before, declaration, later, f, hFound, rfl, -, -, hRetyped⟩ :=
    Dissection.exists_removed hInput hFour hFits hResult
  obtain ⟨front, back, hListing, hContext⟩ :=
    hFound.exists_levelContext (List.ne_nil_of_mem hLevel) (edited_removal hRetyped)
  rw [Dissection.listing_code, hListing]
  refine (hasType_pointer hContext hLevel).mono ?_
  simp [declarations]

/-- The new types of access chains are exact. The removal of an input fails
exactly if a chain below it leads beyond the last level. Otherwise every chain
below it gets a private pointer to the type that lies as many steps down as it
has indices, with those of the chains in between, and no other chain changes. -/
theorem eliminate_retypes_rooted {words : List UInt32} {code : Code} {location : UInt32}
    {types : TypeTable} {input : InputVariable} (hCode : Code.ofWords words = .ok code)
    (hInput : findInput code location = (types, some input))
    (hLevels : inputLevels types code.freshId input ≠ [])
    (hFour : ∀ ins ∈ code.instructions, ins.offset = input.offset → ins.length = 4)
    (hFits : Fits (inputLevels types code.freshId input))
    (hComplete : ∀ words ∈ code.listing.chains, 4 ≤ words.length)
    (hDistinct : (code.listing.chains.map fun words => (unplaced words).arg 2).Nodup) :
    let levels := inputLevels types code.freshId input
    let rooted := Rooted input.id code.listing.chains (· ≠ input.id)
    ((∃ error text, eliminate code location = .error error ∧
        error.failure = .fault (.patch text)) ↔
      ∃ index depth, rooted index depth ∧ levels.length ≤ depth) ∧
    ((¬∃ index depth, rooted index depth ∧ levels.length ≤ depth) →
      ∃ result pointee storage, eliminate code location = .ok (some result) ∧
        types.get? input.typeId = some (.pointer pointee storage) ∧
        result.listing.chains.length = code.listing.chains.length ∧
        ∀ index words, code.listing.chains[index]? = some words →
          (∀ depth, rooted index depth → ∃ level, levels[depth]? = some level ∧
            level.pointee = elementType types pointee depth ∧
            HasType result.listing level.pointer (.pointer level.pointee Storage.privateClass) ∧
            result.listing.chains[index]? = some (words.set 1 level.pointer)) ∧
          ((∀ depth, ¬rooted index depth) → result.listing.chains[index]? = some words)) := by
  intro levels rooted
  rcases eliminate_chains hCode hInput hLevels hFour hFits hComplete hDistinct with
    ⟨index, depth, result, deep, hRooted, hDeep, hError⟩ | ⟨result, hResult, hRetyped⟩
  · have hTooDeep : ∃ index depth, rooted index depth ∧ levels.length ≤ depth :=
      ⟨index, depth, hRooted, hDeep⟩
    exact ⟨⟨fun _ => hTooDeep, fun _ => ⟨_, _, hError, rfl⟩⟩, fun hNot => (hNot hTooDeep).elim⟩
  · have hInside : ¬∃ index depth, rooted index depth ∧ levels.length ≤ depth := by
      rintro ⟨index, depth, hRooted, hDeep⟩
      obtain ⟨words, hWords⟩ := hRooted.exists_getElem?
      obtain ⟨words', -, hRetypes⟩ := hRetyped.exists_getElem? hWords
      rw [Nat.zero_add] at hRetypes
      obtain ⟨level, hLevel, -⟩ := hRetypes.1 depth hRooted
      have hDepth : depth < levels.length := (List.getElem?_eq_some_iff.1 hLevel).1
      omega
    refine ⟨iff_of_false ?_ hInside, fun _ => ?_⟩
    · rintro ⟨error, text, hError, -⟩
      rw [hResult] at hError
      cases hError
    · obtain ⟨pointee, storage, hType, -⟩ := inputLevels_eq hLevels
      refine ⟨result, pointee, storage, hResult, hType, hRetyped.length_eq, ?_⟩
      intro index words hWords
      obtain ⟨words', hWords', hRooted, hOther⟩ := hRetyped.exists_getElem? hWords
      rw [Nat.zero_add] at hRooted hOther
      constructor
      · intro depth hDepth
        obtain ⟨level, hLevel, rfl⟩ := hRooted depth hDepth
        exact ⟨level, hLevel, inputLevels_pointee hType hLevel,
          hasType_eliminate hCode hInput hFour hFits hResult (List.mem_of_getElem? hLevel), hWords'⟩
      · intro hNot
        rw [hWords', hOther hNot]

theorem chains_vectorInput : vectorInputModule.listing.chains =
    [encode Op.accessChain [7, 8, 5, 10], encode Op.accessChain [7, 11, 9, 10]] := by
  cbv

theorem eliminate_retypes_rooted_vectorInput :
    Code.ofWords vectorInputWords = .ok vectorInputModule ∧
    (∀ words ∈ vectorInputModule.listing.chains, 4 ≤ words.length) ∧
    (vectorInputModule.listing.chains.map fun words => (unplaced words).arg 2).Nodup ∧
    let levels := inputLevels vectorInputTypes vectorInputModule.freshId ⟨31, 4, 5⟩
    let rooted := Rooted 5 vectorInputModule.listing.chains (· ≠ 5)
    levels ≠ [] ∧ Fits levels ∧
    ((∃ error text, eliminate vectorInputModule 0 = .error error ∧
        error.failure = .fault (.patch text)) ↔
      ∃ index depth, rooted index depth ∧ levels.length ≤ depth) := by
  have hLevels : inputLevels vectorInputTypes vectorInputModule.freshId ⟨31, 4, 5⟩ ≠ [] := by
    apply List.ne_nil_of_length_pos
    exact of_decide_eq_true (by cbv)
  have hComplete : ∀ words ∈ vectorInputModule.listing.chains, 4 ≤ words.length := by
    rw [chains_vectorInput]
    decide
  have hDistinct :
      (vectorInputModule.listing.chains.map fun words => (unplaced words).arg 2).Nodup := by
    rw [chains_vectorInput]
    decide
  exact ⟨ofWords_vectorInput, hComplete, hDistinct, hLevels, fits_vectorInput,
    (eliminate_retypes_rooted ofWords_vectorInput findInput_vectorInput hLevels
      four_words_vectorInput fits_vectorInput hComplete hDistinct).1⟩

/-- A module in which an access chain has the id of the input as its result. The
second chain has that id as its base. -/
def redefinedInputWords : List UInt32 :=
  [Header.magic, Header.version, 0, 20, 0] ++
    [encode Op.decorate [5, Decoration.location, 0],
      encode Op.typeFloat [2, 32],
      encode Op.typeVector [3, 2, 4],
      encode Op.typePointer [4, Storage.input, 3],
      encode Op.declareVariable [4, 5, Storage.input],
      encode Op.accessChain [7, 5, 5, 10],
      encode Op.accessChain [7, 8, 5, 10]].flatten

def redefinedInputModule : Code := ⟨.headed, redefinedInputWords⟩

def redefinedInputTypes : TypeTable :=
  ⟨[(2, .scalar 32), (3, .vector 2 4), (4, .pointer 3 Storage.input)]⟩

/-- Both chains are one step deep. -/
def redefinedInputRemoved : Code :=
  ⟨.headed, [Header.magic, Header.version, 0, 24, 0] ++
    [encode Op.typeFloat [2, 32],
      encode Op.typeVector [3, 2, 4],
      encode Op.typePointer [4, Storage.input, 3],
      encode Op.typePointer [20, Storage.privateClass, 3],
      encode Op.typePointer [21, Storage.privateClass, 2],
      encode Op.constant [2, 22, 0],
      encode Op.constantComposite [3, 23, 22, 22, 22, 22],
      encode Op.declareVariable [20, 5, Storage.privateClass, 23],
      encode Op.accessChain [21, 5, 5, 10],
      encode Op.accessChain [21, 8, 5, 10]].flatten⟩

def redefinedInputChains : Listing :=
  [encode Op.accessChain [7, 5, 5, 10], encode Op.accessChain [7, 8, 5, 10]]

theorem chains_redefinedInput : redefinedInputModule.listing.chains = redefinedInputChains := by
  cbv

theorem findInput_redefinedInput :
    findInput redefinedInputModule 0 = (redefinedInputTypes, some ⟨20, 4, 5⟩) := by
  cbv

theorem fits_redefinedInput :
    Fits (inputLevels redefinedInputTypes redefinedInputModule.freshId ⟨20, 4, 5⟩) :=
  of_decide_eq_true (by cbv)

/-- If an id that is the variable were also looked up among the results of
earlier chains, the second chain would be too deep, but the removal succeeds. -/
theorem rooted_redefinedInput :
    Code.ofWords redefinedInputWords = .ok redefinedInputModule ∧
    findInput redefinedInputModule 0 = (redefinedInputTypes, some ⟨20, 4, 5⟩) ∧
    redefinedInputModule.instructions[4]? =
      some ⟨20, encode Op.declareVariable [4, 5, Storage.input]⟩ ∧
    (redefinedInputModule.listing.chains.map fun words => (unplaced words).arg 2).Nodup ∧
    (∀ words ∈ redefinedInputModule.listing.chains, 4 ≤ words.length) ∧
    let levels := inputLevels redefinedInputTypes redefinedInputModule.freshId ⟨20, 4, 5⟩
    Fits levels ∧
    (∃ index depth, Rooted 5 redefinedInputModule.listing.chains (fun _ => True) index depth ∧
      levels.length ≤ depth) ∧
    eliminate redefinedInputModule 0 = .ok (some redefinedInputRemoved) := by
  refine ⟨rfl, findInput_redefinedInput, by cbv, ?_, ?_, fits_redefinedInput,
    ⟨1, 2, ?_, of_decide_eq_true (by cbv)⟩, by cbv⟩
  · rw [chains_redefinedInput]
    decide
  · rw [chains_redefinedInput]
    decide
  · rw [chains_redefinedInput]
    have hBase : redefinedInputChains[0]? = some (encode Op.accessChain [7, 5, 5, 10]) := rfl
    have hFirst : Rooted 5 redefinedInputChains (fun _ => True) 0
        ((encode Op.accessChain [7, 5, 5, 10]).length - 4) := .direct hBase rfl
    have hSecond : Rooted 5 redefinedInputChains (fun _ => True) 1
        ((encode Op.accessChain [7, 5, 5, 10]).length - 4 +
          ((encode Op.accessChain [7, 8, 5, 10]).length - 4)) :=
      .indirect rfl hBase (by decide) rfl trivial hFirst
    exact hSecond

end ShaderBackend.Spirv
