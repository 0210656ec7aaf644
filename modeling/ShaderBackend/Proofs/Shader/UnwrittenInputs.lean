import Mathlib.Data.List.Basic
import ShaderBackend.Proofs.Spirv.Mask
import ShaderBackend.Shader.Interface

/-! The inputs that no earlier stage writes, read off the tables of two stages. The bits of a
register set are the registers in which a value of the user stands. What else the entries say, in
which order they come and how many share a register makes no difference. -/
namespace ShaderBackend.Shader

/-- Some element of a table puts a value of the user into this register. -/
def Occupies (table : Signature.Table) (register : Nat) : Prop :=
  ∃ e ∈ table.entries, e.systemValue = 0 ∧ e.register.toNat = register

/-- The bit of a register; `none` if a word cannot be shifted that far. -/
def bit? (register : UInt32) : Option UInt32 :=
  if register.toNat < 32 then some ((1 : UInt32) <<< register) else none

/-- The register set with every shift checked. -/
def registerSet? (table : Signature.Table) : Option UInt32 :=
  (table.entries.filter fun e => e.systemValue = 0 && e.register < registerLimit).foldlM
    (fun set e => (bit? e.register).map (set ||| ·)) 0

/-- The same elements, in any order and each any number of times. -/
def SameElements (table other : Signature.Table) : Prop :=
  ∀ e, e ∈ table.entries ↔ e ∈ other.entries

/-- Every bit of the first set is a bit of the second. -/
def Within (set other : UInt32) : Prop :=
  ∀ n, set.toNat.testBit n = true → other.toNat.testBit n = true

/-- Sets with the same registers are the same. -/
theorem Within.antisymm {set other : UInt32} (h : Within set other) (hBack : Within other set) :
    set = other := by
  apply UInt32.toNat_inj.1
  apply Nat.eq_of_testBit_eq
  intro n
  rw [Bool.eq_iff_iff]
  exact ⟨h n, hBack n⟩

/-- A shifted one has the bit of its register and no other, as long as the register has a bit at
all. -/
theorem testBit_one_shiftLeft {register : UInt32} (h : register.toNat < 32) (n : Nat) :
    ((1 : UInt32) <<< register).toNat.testBit n = decide (register.toNat = n) := by
  have hPower : 2 ^ register.toNat < 2 ^ 32 := Nat.pow_lt_pow_right (by decide) h
  rw [UInt32.toNat_shiftLeft, Nat.mod_eq_of_lt h, UInt32.toNat_one, Nat.one_shiftLeft,
    Nat.mod_eq_of_lt hPower, Nat.testBit_two_pow]

theorem testBit_and_not (set other : UInt32) {n : Nat} (h : n < 32) :
    (set &&& ~~~other).toNat.testBit n = (set.toNat.testBit n && !other.toNat.testBit n) := by
  rw [UInt32.toNat_and, Nat.testBit_and, UInt32.toNat_not]
  have hComplement : UInt32.size - 1 - other.toNat = 2 ^ 32 - (other.toNat + 1) := by
    rw [Nat.sub_sub, Nat.add_comm 1]
    rfl
  rw [hComplement, Nat.testBit_two_pow_sub_succ other.toNat_lt, decide_eq_true h, Bool.true_and]

section RegisterSet

variable {entries : List Signature.Entry}

/-- Each tracked element adds its bit to a set. -/
theorem testBit_foldl (h : ∀ e ∈ entries, e.register.toNat < 32) (set : UInt32) (n : Nat) :
    (entries.foldl (fun set e => set ||| (1 : UInt32) <<< e.register) set).toNat.testBit n = true ↔
      set.toNat.testBit n = true ∨ ∃ e ∈ entries, e.register.toNat = n := by
  induction entries generalizing set with
  | nil => simp
  | cons e rest ih =>
      rw [List.forall_mem_cons] at h
      rw [List.foldl_cons, ih h.2, UInt32.toNat_or, Nat.testBit_or, testBit_one_shiftLeft h.1,
        Bool.or_eq_true, decide_eq_true_iff, List.exists_mem_cons_iff, or_assoc]

/-- Below the limit of the registers no shift is refused, so the checked union is the plain one. -/
theorem foldlM_bit? (h : ∀ e ∈ entries, e.register.toNat < 32) (set : UInt32) :
    entries.foldlM (fun set e => (bit? e.register).map (set ||| ·)) set =
      some (entries.foldl (fun set e => set ||| ((1 : UInt32) <<< e.register)) set) := by
  induction entries generalizing set with
  | nil => rfl
  | cons e rest ih =>
      rw [List.forall_mem_cons] at h
      rw [List.foldlM_cons, bit?, if_pos h.1, Option.map_some, List.foldl_cons]
      exact ih h.2 _

/-- Which entries count: those in the first 32 registers that are no system values. -/
theorem mem_tracked_iff {e : Signature.Entry} :
    e ∈ entries.filter (fun e => e.systemValue = 0 && e.register < registerLimit) ↔
      e ∈ entries ∧ e.systemValue = 0 ∧ e.register.toNat < 32 := by
  simp only [List.mem_filter, Bool.and_eq_true, decide_eq_true_iff, UInt32.lt_iff_toNat_lt]
  rfl

/-- The filter keeps every register below the limit, so no shift of a table is refused. -/
theorem registerSet?_eq (table : Signature.Table) : registerSet? table = some (registerSet table) :=
  foldlM_bit? (fun _ hMem => (mem_tracked_iff.1 hMem).2.2) 0

/-- A bit of the set says that some entry that counts has its register. -/
theorem testBit_registerSet_iff (table : Signature.Table) {n : Nat} (h : n < 32) :
    (registerSet table).toNat.testBit n = true ↔ Occupies table n := by
  rw [registerSet, testBit_foldl (fun _ hMem => (mem_tracked_iff.1 hMem).2.2), UInt32.toNat_zero,
    Nat.zero_testBit]
  simp only [Bool.false_eq_true, false_or, mem_tracked_iff]
  constructor
  · rintro ⟨e, ⟨hMem, hUser, -⟩, hRegister⟩
    exact ⟨e, hMem, hUser, hRegister⟩
  · rintro ⟨e, hMem, hUser, rfl⟩
    exact ⟨e, ⟨hMem, hUser, h⟩, rfl⟩

end RegisterSet

/-- What a stage reads and what it writes. -/
structure Signatures where
  inputs : Signature.Table
  outputs : Signature.Table

namespace Signatures

variable {producer producer' consumer consumer' : Signatures}

def interface (s : Signatures) : Interface := .ofSignatures s.inputs s.outputs

/-- Inputs of the consumer that the producer never writes. -/
def unwritten (producer consumer : Signatures) : UInt32 :=
  Interface.unwrittenInputs producer.interface consumer.interface

/-- The tables of both stages have the same elements. -/
def Same (s other : Signatures) : Prop :=
  SameElements s.inputs other.inputs ∧ SameElements s.outputs other.outputs

/-- An input is unwritten if its register is read and no entry of the producer has it. -/
theorem testBit_unwritten_iff {n : Nat} (h : n < 32) :
    (unwritten producer consumer).toNat.testBit n = true ↔
      Occupies consumer.inputs n ∧ ¬Occupies producer.outputs n := by
  rw [unwritten, Interface.unwrittenInputs, testBit_and_not _ _ h, Bool.and_eq_true,
    Bool.not_eq_true', ← Bool.not_eq_true]
  exact and_congr (testBit_registerSet_iff consumer.inputs h)
    (not_congr (testBit_registerSet_iff producer.outputs h))

/-- A producer that writes more and a consumer that reads less leave fewer inputs unwritten. -/
theorem within_unwritten (hOutputs : producer.outputs.entries ⊆ producer'.outputs.entries)
    (hInputs : consumer'.inputs.entries ⊆ consumer.inputs.entries) :
    Within (unwritten producer' consumer') (unwritten producer consumer) := by
  intro n hBit
  have hSmall := Spirv.lt_of_testBit hBit
  obtain ⟨⟨e, hMem, hRead⟩, hFree⟩ := (testBit_unwritten_iff hSmall).1 hBit
  refine (testBit_unwritten_iff hSmall).2 ⟨⟨e, hInputs hMem, hRead⟩, ?_⟩
  rintro ⟨w, hWritten, hRegister⟩
  exact hFree ⟨w, hOutputs hWritten, hRegister⟩

/-- An input is unwritten exactly if a value of the user is read from its register and none is
written to it. No shift leaves the word. Order and repetition of the elements make no difference.
More outputs of the producer and fewer inputs of the consumer leave fewer inputs unwritten. -/
theorem unwritten_exact :
    (∀ producer consumer : Signatures, ∀ n < 32,
      (unwritten producer consumer).toNat.testBit n = true ↔
        Occupies consumer.inputs n ∧ ¬Occupies producer.outputs n) ∧
    (∀ table, registerSet? table = some (registerSet table)) ∧
    (∀ producer producer' consumer consumer' : Signatures,
      producer.Same producer' → consumer.Same consumer' →
      unwritten producer consumer = unwritten producer' consumer') ∧
    ∀ producer producer' consumer consumer' : Signatures,
      producer.outputs.entries ⊆ producer'.outputs.entries →
      consumer'.inputs.entries ⊆ consumer.inputs.entries →
      Within (unwritten producer' consumer') (unwritten producer consumer) := by
  refine ⟨fun _ _ _ => testBit_unwritten_iff, registerSet?_eq, ?_, fun _ _ _ _ => within_unwritten⟩
  intro producer producer' consumer consumer' ⟨_, hOutputs⟩ ⟨hInputs, _⟩
  apply Within.antisymm
  · exact within_unwritten (fun e => (hOutputs e).2) (fun e => (hInputs e).1)
  · exact within_unwritten (fun e => (hOutputs e).1) (fun e => (hInputs e).2)

/-- An element of which only the system value and the register matter. -/
def element (systemValue register : UInt32) : Signature.Entry :=
  ⟨"TEXCOORD", 0, systemValue, .float32, register, .xyzw, 0⟩

/-- A render target stands in the last tracked register, and a value of the user beyond it. -/
def targetWriter : Signatures := ⟨⟨[]⟩, ⟨[element 64 31, element 0 33, element 0 4]⟩⟩

/-- Register 1 is split between two elements. -/
def splitReader : Signatures :=
  ⟨⟨[element 0 31, element 0 1, element 1 2, element 0 1, element 0 4, element 0 64]⟩, ⟨[]⟩⟩

/-- The same inputs in another order. -/
def unsplitReader : Signatures :=
  ⟨⟨[element 0 64, element 0 4, element 1 2, element 0 31, element 0 1]⟩, ⟨[]⟩⟩

theorem unwritten_exact_splitReader :
    unwritten targetWriter splitReader = 0x80000002 ∧
      (Occupies splitReader.inputs 31 ∧ ¬Occupies targetWriter.outputs 31) ∧
      unwritten targetWriter unsplitReader = 0x80000002 ∧
      Within 0x80000002 (unwritten ⟨⟨[]⟩, ⟨[]⟩⟩ splitReader) := by
  obtain ⟨hBits, -, hSame, hWithin⟩ := unwritten_exact
  have hValue : unwritten targetWriter splitReader = 0x80000002 := by decide
  have hReaders : splitReader.Same unsplitReader := by
    constructor <;> intro e
    · simp only [splitReader, unsplitReader, List.mem_cons, List.not_mem_nil]
      tauto
    · rfl
  refine ⟨hValue, (hBits _ _ 31 (by decide)).1 (by rw [hValue]; decide), ?_, ?_⟩
  · rw [← hSame _ _ _ _ ⟨fun _ => Iff.rfl, fun _ => Iff.rfl⟩ hReaders, hValue]
  · rw [← hValue]
    exact hWithin _ _ _ _ (List.nil_subset _) (List.Subset.refl _)

end Signatures

end ShaderBackend.Shader
