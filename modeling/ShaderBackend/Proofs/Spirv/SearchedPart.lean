import Mathlib.Data.List.Induction
import ShaderBackend.Proofs.Spirv.Recorded

/-! What the search for an input finds and what it knows by then, said of the stream alone. The
search reads once and keeps decorations, constants and types for later instructions. At each
instruction these are exactly what the instructions in front of it say, the last one about an id
prevailing, so that nothing behind the variable can change the answer. -/
namespace ShaderBackend

section Lists

variable {α β : Type} {tells : List α → α → β → Prop}

/-- The value that the last element of a list tells, of those that tell one. What an element tells
may depend on the elements in front of it. -/
def Prevails (tells : List α → α → β → Prop) (list : List α) (value : β) : Prop :=
  ∃ before a after, list = before ++ a :: after ∧ tells before a value ∧
    ∀ between b rest, after = between ++ b :: rest →
      ∀ other, ¬tells (before ++ a :: between) b other

/-- An element of a list with one more is that one or stands in front of it. -/
theorem concat_eq_split {list before after : List α} {a b : α}
    (h : list ++ [a] = before ++ b :: after) :
    (after = [] ∧ before = list ∧ b = a) ∨
      ∃ front, after = front ++ [a] ∧ list = before ++ b :: front := by
  rcases List.eq_nil_or_concat' after with rfl | ⟨front, last, rfl⟩
  · obtain ⟨rfl, hEnd⟩ := List.append_inj' h rfl
    cases hEnd
    exact Or.inl ⟨rfl, rfl, rfl⟩
  · rw [← List.cons_append, ← List.append_assoc] at h
    obtain ⟨rfl, hEnd⟩ := List.append_inj' h rfl
    cases hEnd
    exact Or.inr ⟨front, rfl, rfl⟩

theorem not_prevails_nil (value : β) : ¬Prevails tells [] value := by
  rintro ⟨before, a, after, hSplit, -⟩
  simp at hSplit

/-- An element at the end prevails if it tells anything. -/
theorem prevails_concat_iff {list : List α} {a : α} {value : β} :
    Prevails tells (list ++ [a]) value ↔
      tells list a value ∨ (∀ other, ¬tells list a other) ∧ Prevails tells list value := by
  constructor
  · rintro ⟨before, b, after, hSplit, hTells, hLast⟩
    rcases concat_eq_split hSplit with ⟨rfl, rfl, rfl⟩ | ⟨between, rfl, rfl⟩
    · exact Or.inl hTells
    · refine Or.inr ⟨hLast between a [] rfl, before, b, between, rfl, hTells, ?_⟩
      rintro front c rest rfl
      exact hLast front c (rest ++ [a]) (by rw [List.append_assoc, List.cons_append])
  · rintro (hTells | ⟨hSilent, before, b, after, rfl, hTells, hLast⟩)
    · exact ⟨list, a, [], rfl, hTells, fun between c rest hSplit => by simp at hSplit⟩
    · refine ⟨before, b, after ++ [a], by rw [List.append_assoc, List.cons_append], hTells, ?_⟩
      intro between c rest hSplit
      rcases concat_eq_split hSplit with ⟨rfl, rfl, rfl⟩ | ⟨front, rfl, rfl⟩
      · exact hSilent
      · exact hLast between c front rfl

/-- A table that is overwritten with what each element tells holds what prevails. -/
theorem prevails_concat_iff_or {list : List α} {a : α} {told held : Option β}
    (hTold : ∀ value, tells list a value ↔ told = some value)
    (hHeld : ∀ value, held = some value ↔ Prevails tells list value) (value : β) :
    told.or held = some value ↔ Prevails tells (list ++ [a]) value := by
  rw [prevails_concat_iff, hTold]
  simp only [hTold, ← hHeld]
  cases told <;> simp

end Lists

namespace Spirv

/-- An instruction that defines a constant with this first word. -/
def DefinesConstant (id : UInt32) (ins : Instruction) (value : UInt32) : Prop :=
  ins.is Op.constant = true ∧ ins.arg 2 = id ∧ ins.arg 3 = value

/-- An instruction that declares an id to be a type of this shape. The length of an array is the
last constant with its id in front of the array, and without one nothing is declared. -/
def DeclaresShape (id : UInt32) (before : List Instruction) (ins : Instruction)
    (shape : TypeShape) : Prop :=
  ins.arg 1 = id ∧
    match shape with
    | .scalar width => (ins.is Op.typeFloat = true ∨ ins.is Op.typeInt = true) ∧ ins.arg 2 = width
    | .vector component count =>
      ins.is Op.typeVector = true ∧ ins.arg 2 = component ∧ ins.arg 3 = count
    | .array element length =>
      ins.is Op.typeArray = true ∧ ins.arg 2 = element ∧
        Prevails (fun _ => DefinesConstant (ins.arg 3)) before length
    | .pointer pointee storage =>
      ins.is Op.typePointer = true ∧ ins.arg 3 = pointee ∧ ins.arg 2 = storage

/-- An instruction that declares an input variable whose id is decorated with the location in front
of it. -/
def DeclaresInputAt (location : UInt32) (before : List Instruction) (ins : Instruction) : Prop :=
  ins.is Op.declareVariable = true ∧ ins.arg 3 = Storage.input ∧
    ∃ decoration ∈ before, decoration.decorates Decoration.location = true ∧
      decoration.arg 3 = location ∧ decoration.arg 1 = ins.arg 2

/-- No instruction of these declares an input at the location. -/
def NoInputAt (location : UInt32) (stream : List Instruction) : Prop :=
  ∀ before ins later, stream = before ++ ins :: later → ¬DeclaresInputAt location before ins

/-- The instructions in front of the first input at a location, and its declaration. Without such an
input these are all instructions. -/
inductive FirstInput (location : UInt32) (stream : List Instruction) :
    List Instruction → Option Instruction → Prop
  | found {before later : List Instruction} {ins : Instruction}
      (split : stream = before ++ ins :: later) (none_before : NoInputAt location before)
      (declares : DeclaresInputAt location before ins) :
      FirstInput location stream before (some ins)
  | none (none_at_all : NoInputAt location stream) : FirstInput location stream stream none

def Instruction.inputVariable (ins : Instruction) : InputVariable :=
  ⟨ins.offset, ins.arg 1, ins.arg 2⟩

/-- No input has been declared up to here if none was before and this is none. -/
theorem noInputAt_concat_iff {location : UInt32} {stream : List Instruction} {ins : Instruction} :
    NoInputAt location (stream ++ [ins]) ↔
      NoInputAt location stream ∧ ¬DeclaresInputAt location stream ins := by
  constructor
  · intro h
    refine ⟨fun before other later hSplit => ?_, h stream ins [] rfl⟩
    exact h before other (later ++ [ins]) (by rw [hSplit, List.append_assoc, List.cons_append])
  · rintro ⟨hStream, hIns⟩ before other later hSplit
    rcases concat_eq_split hSplit with ⟨rfl, rfl, rfl⟩ | ⟨front, rfl, hFront⟩
    · exact hIns
    · exact hStream before other front hFront

/-- Every stream has a first input at a location, or none up to its end. -/
theorem exists_firstInput (location : UInt32) (stream : List Instruction) :
    ∃ read found, FirstInput location stream read found := by
  induction stream using List.reverseRecOn with
  | nil => exact ⟨[], none, .none fun before ins later hSplit => by simp at hSplit⟩
  | append_singleton stream ins ih =>
      obtain ⟨read, found, hFirst⟩ := ih
      cases hFirst with
      | @found read later declaration hSplit hNone hDeclares =>
          have hLonger : stream ++ [ins] = read ++ declaration :: (later ++ [ins]) := by
            rw [hSplit, List.append_assoc, List.cons_append]
          exact ⟨read, some declaration, .found hLonger hNone hDeclares⟩
      | none hNone =>
          by_cases hDeclares : DeclaresInputAt location stream ins
          · exact ⟨stream, some ins, .found rfl hNone hDeclares⟩
          · exact ⟨_, none, .none (noInputAt_concat_iff.2 ⟨hNone, hDeclares⟩)⟩

section Known

variable {location : UInt32}

/-- What the search knows after some instructions. -/
def InputScan.known (location : UInt32) (read : List Instruction) : InputScan :=
  read.foldl (InputScan.record location) {}

theorem known_concat (read : List Instruction) (ins : Instruction) :
    InputScan.known location (read ++ [ins]) =
      (InputScan.known location read).record location ins := List.foldl_concat ..

/-- The candidates are the ids that a decoration has given the location by now. -/
theorem mem_candidates_known_iff (read : List Instruction) (id : UInt32) :
    id ∈ (InputScan.known location read).candidates ↔
      ∃ decoration ∈ read, decoration.decorates Decoration.location = true ∧
        decoration.arg 3 = location ∧ decoration.arg 1 = id := by
  induction read using List.reverseRecOn with
  | nil => simp [InputScan.known]
  | append_singleton read ins ih =>
      rw [known_concat, candidates_record]
      by_cases hHere : (ins.decorates Decoration.location && ins.arg 3 == location) = true
      · rw [if_pos hHere, List.mem_append, ih]
        rw [Bool.and_eq_true, beq_iff_eq] at hHere
        simp only [List.mem_append, List.mem_singleton, or_and_right, exists_or, exists_eq_left,
          hHere, true_and, eq_comm (a := id)]
      · rw [if_neg hHere, ih]
        rw [Bool.and_eq_true, beq_iff_eq] at hHere
        have hOther : ¬(ins.decorates Decoration.location = true ∧ ins.arg 3 = location ∧
            ins.arg 1 = id) := fun h => hHere ⟨h.1, h.2.1⟩
        simp only [List.mem_append, List.mem_singleton, or_and_right, exists_or, exists_eq_left,
          hOther, or_false]

/-- The search stops exactly at the first input with the location. -/
theorem finds_known_iff (before : List Instruction) (ins : Instruction) :
    (InputScan.known location before).finds ins = true ↔ DeclaresInputAt location before ins := by
  rw [InputScan.finds, Bool.and_eq_true, Bool.and_eq_true, beq_iff_eq, List.contains_iff_mem,
    mem_candidates_known_iff, and_assoc, DeclaresInputAt]

/-- A constant has the value of its last definition. -/
theorem get?_constants_known_iff (location : UInt32) (read : List Instruction) (id value : UInt32) :
    (InputScan.known location read).constants.get? id = some value ↔
      Prevails (fun _ => DefinesConstant id) read value := by
  induction read using List.reverseRecOn generalizing value with
  | nil => simp [InputScan.known, not_prevails_nil]
  | append_singleton read ins ih =>
      have hTold (other : UInt32) : DefinesConstant id ins other ↔
          (if ins.is Op.constant = true ∧ ins.arg 2 = id then some (ins.arg 3) else none) =
            some other := by
        simp [DefinesConstant, and_assoc]
      have hRecord : (InputScan.known location (read ++ [ins])).constants.get? id =
          if ins.is Op.constant = true ∧ ins.arg 2 = id then some (ins.arg 3)
          else (InputScan.known location read).constants.get? id := by
        rw [known_concat]
        exact get?_constants_record location _ ins.words id
      rw [← prevails_concat_iff_or hTold ih, hRecord]
      split <;> rfl

theorem is_iff {ins : Instruction} {opcode : UInt32} : ins.is opcode = true ↔ ins.opcode = opcode :=
  beq_iff_eq

theorem declaredShape?_words (constants : OrderedMap UInt32 UInt32) (ins : Instruction) :
    declaredShape? constants ins.words =
      if ins.opcode = Op.typeFloat ∨ ins.opcode = Op.typeInt then some (.scalar (ins.arg 2))
      else if ins.opcode = Op.typeVector then some (.vector (ins.arg 2) (ins.arg 3))
      else if ins.opcode = Op.typeArray then (constants.get? (ins.arg 3)).map (.array (ins.arg 2))
      else if ins.opcode = Op.typePointer then some (.pointer (ins.arg 3) (ins.arg 2))
      else none := by
  simp only [← is_iff, ← Bool.or_eq_true]
  rfl

/-- The shape that the search computes is the one that is declared. -/
theorem declaresShape_iff (location : UInt32) (read : List Instruction) (ins : Instruction)
    (id : UInt32) (shape : TypeShape) :
    DeclaresShape id read ins shape ↔ ins.arg 1 = id ∧
      declaredShape? (InputScan.known location read).constants ins.words = some shape := by
  rw [declaredShape?_words]
  unfold DeclaresShape
  refine and_congr_right fun _ => ?_
  -- The opcodes are told apart by their numbers, so that each leaves one shape.
  simp only [is_iff, ← get?_constants_known_iff location, Op.typeFloat, Op.typeInt,
    Op.typeVector, Op.typeArray, Op.typePointer]
  by_cases hFloat : ins.opcode = 22
  · cases shape <;> simp [hFloat]
  by_cases hInt : ins.opcode = 21
  · cases shape <;> simp [hInt]
  by_cases hVector : ins.opcode = 23
  · cases shape <;> simp [hVector]
  by_cases hArray : ins.opcode = 28
  · cases shape <;> simp [hArray, and_comm]
  by_cases hPointer : ins.opcode = 32
  · cases shape <;> simp [hPointer]
  · cases shape <;> simp [hFloat, hInt, hVector, hArray, hPointer]

/-- A type is known by its last declaration in front of the place. -/
theorem get?_types_known_iff (read : List Instruction) (id : UInt32) (shape : TypeShape) :
    (InputScan.known location read).types.get? id = some shape ↔
      Prevails (DeclaresShape id) read shape := by
  induction read using List.reverseRecOn generalizing shape with
  | nil => simp [InputScan.known, not_prevails_nil]
  | append_singleton read ins ih =>
      have hTold (other : TypeShape) : DeclaresShape id read ins other ↔
          (if ins.arg 1 = id then
            declaredShape? (InputScan.known location read).constants ins.words else none) =
              some other := by
        simp [declaresShape_iff location]
      have hRecord : (InputScan.known location (read ++ [ins])).types.get? id =
          if ins.arg 1 = id then
            (declaredShape? (InputScan.known location read).constants ins.words).or
              ((InputScan.known location read).types.get? id)
          else (InputScan.known location read).types.get? id := by
        rw [known_concat]
        exact get?_types_record location _ ins.words id
      rw [← prevails_concat_iff_or hTold ih, hRecord]
      split <;> rfl

/-- The search goes on past instructions that declare no input at the location. -/
theorem run_append {read : List Instruction} (h : NoInputAt location read)
    (rest : List Instruction) :
    InputScan.run location {} (read ++ rest) =
      InputScan.run location (InputScan.known location read) rest := by
  induction read using List.reverseRecOn generalizing rest with
  | nil => rfl
  | append_singleton read ins ih =>
      obtain ⟨hRead, hIns⟩ := noInputAt_concat_iff.1 h
      rw [List.append_assoc, ih hRead, List.singleton_append, InputScan.run,
        if_neg (mt (finds_known_iff read ins).1 hIns), known_concat]

/-- What the search returns is the first input and the types in front of it. -/
theorem run_of_firstInput {stream read : List Instruction} {found : Option Instruction}
    (h : FirstInput location stream read found) :
    InputScan.run location {} stream =
      ((InputScan.known location read).types, found.map Instruction.inputVariable) := by
  cases h with
  | @found read later ins hSplit hNone hDeclares =>
      rw [hSplit, run_append hNone, InputScan.run, if_pos ((finds_known_iff read ins).2 hDeclares)]
      rfl
  | none hNone =>
      rw [← List.append_nil stream, run_append hNone, List.append_nil]
      rfl

end Known

section Locality

variable {front later : List Instruction} {ins : Instruction}

theorem exists_of_place_eq {offset : Nat} {listing : Listing}
    (h : place offset listing = front ++ ins :: later) :
    ∃ before behind, listing = before ++ ins.words :: behind ∧ front = place offset before ∧
      ins.offset = offset + before.flatten.length := by
  induction front generalizing offset listing with
  | nil =>
      cases listing with
      | nil => cases h
      | cons words rest =>
          cases h
          exact ⟨[], rest, rfl, rfl, rfl⟩
  | cons first front ih =>
      cases listing with
      | nil => cases h
      | cons words rest =>
          rw [place_cons, List.cons_append, List.cons.injEq] at h
          obtain ⟨rfl, hRest⟩ := h
          obtain ⟨before, behind, rfl, rfl, hOffset⟩ := ih hRest
          refine ⟨words :: before, behind, rfl, rfl, ?_⟩
          rw [hOffset, List.flatten_cons, List.length_append, Nat.add_assoc]

/-- The words of the instructions up to one of them reach from the start to where it stops. -/
theorem exists_words_of_split {code : Code} (h : code.instructions = front ++ ins :: later) :
    ∃ (read : Listing) (rest : List UInt32), (∀ words ∈ read, Sized words) ∧
      place code.layout.start read = front ++ [ins] ∧
      code.words.drop code.layout.start = read.flatten ++ rest ∧
      ins.stop = code.layout.start + read.flatten.length := by
  obtain ⟨listing, tail, hSized, -, hWords, hPlaced⟩ := code.exists_place
  obtain ⟨before, behind, rfl, rfl, hOffset⟩ := exists_of_place_eq (hPlaced.symm.trans h)
  refine ⟨before ++ [ins.words], behind.flatten ++ tail, ?_, ?_, ?_, ?_⟩
  · intro words hMem
    rw [List.append_cons] at hSized
    exact hSized words (List.mem_append_left behind hMem)
  · rw [place_append, ← hOffset]
    rfl
  · rw [hWords, List.append_cons, List.flatten_append, List.append_assoc]
  · rw [Instruction.stop, hOffset, List.flatten_append, List.length_append, List.flatten_singleton,
      Nat.add_assoc]

/-- A stream that agrees with another one up to the end of one of its instructions has this
instruction and those in front of it. -/
theorem exists_split_of_take {code other : Code} (h : code.instructions = front ++ ins :: later)
    (hLayout : other.layout = code.layout)
    (hWords : other.words.take ins.stop = code.words.take ins.stop) :
    ∃ others, other.instructions = front ++ ins :: others := by
  obtain ⟨read, rest, hSized, hPlace, hDrop, hStop⟩ := exists_words_of_split h
  -- The other stream may be cut anywhere behind the instruction, so that only its front is placed.
  have hTaken := congrArg (List.drop code.layout.start) hWords
  rw [List.drop_take, List.drop_take, hDrop, hStop, Nat.add_sub_cancel_left, List.take_left]
    at hTaken
  have hOther : other.words.drop code.layout.start =
      read.flatten ++ (other.words.drop code.layout.start).drop read.flatten.length := by
    conv_lhs => rw [← List.take_append_drop read.flatten.length (other.words.drop _), hTaken]
  rw [Code.instructions, hLayout, hOther, instructionsFrom_flatten_append _ hSized, hPlace,
    List.append_assoc]
  exact ⟨_, rfl⟩

end Locality

/-- A table has one entry for each id. -/
theorem nodup_keys_known (location : UInt32) (read : List Instruction) :
    (InputScan.known location read).types.keys.Nodup := by
  induction read using List.reverseRecOn with
  | nil => exact List.nodup_nil
  | append_singleton read ins ih =>
      have hRecord : ((InputScan.known location read).record location ins).types = _ :=
        types_record location _ ins.words
      rw [known_concat, hRecord]
      split
      · exact OrderedMap.nodup_keys_insert ih _ _
      · exact ih

/-- The search finds the first input at the location. What it knows by then are the types that
prevail among the declarations in front of the input, or in the whole stream if there is none, each
under one id. A module with the same words up to the end of the input gives the same answer. -/
theorem findInput_exact (code : Code) (location : UInt32) :
    (∃ read found, FirstInput location code.instructions read found) ∧
      ∀ read found, FirstInput location code.instructions read found →
        (findInput code location).2 = found.map Instruction.inputVariable ∧
        (∀ id shape, (findInput code location).1.get? id = some shape ↔
          Prevails (DeclaresShape id) read shape) ∧
        (findInput code location).1.keys.Nodup ∧
        ∀ ins, found = some ins → ∀ other : Code, other.layout = code.layout →
          other.words.take ins.stop = code.words.take ins.stop →
          findInput other location = findInput code location := by
  refine ⟨exists_firstInput location code.instructions, fun read found hFirst => ?_⟩
  have hRun : findInput code location = _ := run_of_firstInput hFirst
  refine ⟨by rw [hRun], fun id shape => ?_, ?_, ?_⟩
  · rw [hRun, get?_types_known_iff]
  · rw [hRun]
    exact nodup_keys_known location read
  · rintro ins rfl other hLayout hWords
    cases hFirst with
    | found hSplit hNone hDeclares =>
        obtain ⟨others, hOther⟩ := exists_split_of_take hSplit hLayout hWords
        rw [hRun]
        exact run_of_firstInput (.found hOther hNone hDeclares)

/-- The constant 6 changes after an array has used it, the array 7 has no known length, and the
variable 8 gets the location only after its declaration. -/
def lateListing : Listing :=
  [encode Op.decorate [5, Decoration.location, 0], encode Op.typeFloat [2, 32],
    encode Op.constant [2, 6, 3], encode Op.typeArray [3, 2, 6], encode Op.constant [2, 6, 4],
    encode Op.typeArray [7, 2, 9], encode Op.typePointer [4, Storage.input, 3],
    encode Op.declareVariable [4, 8, Storage.input], encode Op.declareVariable [4, 5, Storage.input],
    encode Op.decorate [8, Decoration.location, 0]]

def lateDecoration : Code :=
  ⟨.headed, [Header.magic, Header.version, 0, 20, 0] ++ lateListing.flatten⟩

/-- The same up to the variable 5, and then a type with an old id. -/
def otherTail : Code :=
  (lateDecoration.erase 40 44).append (encode Op.typeFloat [2, 64])

/-- Variable 5 is found. Type 3 is known by then, and type 7, whose length is no constant, is not. -/
theorem findInput_exact_lateDecoration :
    otherTail.layout = lateDecoration.layout ∧
      otherTail.words.take 40 = lateDecoration.words.take 40 ∧
      (∃ read, FirstInput 0 lateDecoration.instructions read
          (some ⟨36, encode Op.declareVariable [4, 5, Storage.input]⟩) ∧
        Prevails (DeclaresShape 3) read (.array 2 3) ∧
        ¬∃ shape, Prevails (DeclaresShape 7) read shape) ∧
      findInput otherTail 0 = findInput lateDecoration 0 := by
  have hAnswer : findInput lateDecoration 0 =
      (⟨[(2, .scalar 32), (3, .array 2 3), (4, .pointer 3 Storage.input)]⟩,
        some ⟨36, 4, 5⟩) := by cbv
  have hWords : otherTail.words.take 40 = lateDecoration.words.take 40 := by decide
  have hOnly : ∀ ins ∈ lateDecoration.instructions, ins.offset = 36 →
      ins = ⟨36, encode Op.declareVariable [4, 5, Storage.input]⟩ := by
    have hRead : lateDecoration.instructions = place 5 lateListing := by cbv
    rw [hRead]
    decide
  obtain ⟨⟨read, found, hFirst⟩, hExact⟩ := findInput_exact lateDecoration 0
  obtain ⟨hInput, hTypes, -, hLocal⟩ := hExact read found hFirst
  rw [hAnswer] at hInput hTypes
  obtain ⟨ins, rfl, hIns⟩ := Option.map_eq_some_iff.1 hInput.symm
  have hDeclaration : ins = ⟨36, encode Op.declareVariable [4, 5, Storage.input]⟩ := by
    cases hFirst with
    | found hSplit =>
        refine hOnly ins (hSplit ▸ List.mem_append_right _ (List.mem_cons_self ..)) ?_
        exact congrArg InputVariable.offset hIns
  subst hDeclaration
  refine ⟨rfl, hWords, ⟨read, hFirst, (hTypes 3 _).1 rfl, ?_⟩, hLocal _ rfl _ rfl hWords⟩
  rintro ⟨shape, hPrevails⟩
  cases (hTypes 7 shape).2 hPrevails

end Spirv
end ShaderBackend
