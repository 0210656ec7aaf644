import Mathlib.Data.List.Forall2
import Mathlib.Order.Bounds.Defs
import ShaderBackend.Proofs.Encoding
import ShaderBackend.Proofs.OrderedMap
import ShaderBackend.Signature.Table

/-! The lookups on a table, each said of its elements alone, so that they can be compared. The bound of
the registers is read off its upper bounds. A name is compared letter by letter, and that is the same
as byte by byte: only letters of ASCII have two cases, and no byte of another character is one. -/
namespace ShaderBackend

namespace Text

/-- The second is a capital letter of ASCII and the first is the same letter in lower case. -/
def LowerOf (c capital : Char) : Prop :=
  65 ≤ capital.toNat ∧ capital.toNat ≤ 90 ∧ c.toNat = capital.toNat + 32

/-- The same character up to the case of letters of ASCII. -/
def SameLetter (c d : Char) : Prop := c = d ∨ LowerOf c d ∨ LowerOf d c

/-- The same text up to the case of letters of ASCII. -/
def SameUpToCase (s t : String) : Prop := List.Forall₂ SameLetter s.toList t.toList

/-- A byte, or the one of the lower case letter if it is that of a capital. -/
def lowerByte (b : UInt8) : UInt8 := if 65 ≤ b ∧ b ≤ 90 then b + 32 else b

theorem toNat_toLower (c : Char) :
    c.toLower.toNat = if 65 ≤ c.toNat ∧ c.toNat ≤ 90 then c.toNat + 32 else c.toNat := by
  have hCapital : (c.val ≥ 'A'.val ∧ c.val ≤ 'Z'.val) ↔ 65 ≤ c.toNat ∧ c.toNat ≤ 90 := by
    rw [ge_iff_le, UInt32.le_iff_toNat_le, UInt32.le_iff_toNat_le]
    rfl
  by_cases hSmall : 65 ≤ c.toNat ∧ c.toNat ≤ 90
  · have hLower : c.toLower.val = c.val + ('a'.val - 'A'.val) :=
      congrArg Char.val (dif_pos (hCapital.2 hSmall) : c.toLower = _)
    have hStep : ('a'.val - 'A'.val).toNat = 32 := rfl
    rw [if_pos hSmall]
    change c.toLower.val.toNat = c.val.toNat + 32
    rw [hLower, UInt32.toNat_add, hStep, Nat.mod_eq_of_lt]
    exact Nat.lt_of_le_of_lt (Nat.add_le_add_right hSmall.2 32) (by decide)
  · have hLower : c.toLower = c := dif_neg (fun h => hSmall (hCapital.1 h))
    rw [if_neg hSmall, hLower]

/-- Two characters become the same if they are the same letter, small or capital, or the same
character. -/
theorem toLower_eq_iff {c d : Char} : c.toLower = d.toLower ↔ SameLetter c d := by
  rw [← Char.toNat_inj, toNat_toLower, toNat_toLower, SameLetter, LowerOf, LowerOf, ← Char.toNat_inj]
  split <;> split <;> omega

theorem map_toLower_eq_iff {s t : String} :
    s.toList.map Char.toLower = t.toList.map Char.toLower ↔ SameUpToCase s t := by
  rw [← List.forall₂_eq_eq_eq, List.forall₂_map_left_iff, List.forall₂_map_right_iff, SameUpToCase]
  simp only [toLower_eq_iff]

theorem lowerByte_ofNat {n : Nat} (h : n < 256) :
    lowerByte (.ofNat n) = .ofNat (if 65 ≤ n ∧ n ≤ 90 then n + 32 else n) := by
  have hCapital : (65 ≤ UInt8.ofNat n ∧ UInt8.ofNat n ≤ 90) ↔ 65 ≤ n ∧ n ≤ 90 := by
    rw [UInt8.le_iff_toNat_le, UInt8.le_iff_toNat_le, UInt8.toNat_ofNat_of_lt' h]
    rfl
  rw [lowerByte]
  split
  · rename_i hSmall
    rw [if_pos (hCapital.1 hSmall), UInt8.ofNat_add]
    rfl
  · rename_i hOther
    rw [if_neg (fun hSmall => hOther (hCapital.2 hSmall))]

/-- No byte but those of ASCII characters stands for a letter. -/
theorem lowerByte_of_le {n : Nat} (h : n < 256) (hHigh : 128 ≤ n) :
    lowerByte (.ofNat n) = .ofNat n := by
  rw [lowerByte_ofNat h, if_neg (by omega)]

/-- A capital letter is one byte, and no byte of another character is a capital letter. -/
theorem map_lowerByte_utf8EncodeChar (c : Char) :
    (String.utf8EncodeChar c).map lowerByte = String.utf8EncodeChar c.toLower := by
  by_cases hAscii : c.val.toNat ≤ 0x7f
  · have hLower := toNat_toLower c
    have hLowerAscii : c.toLower.val.toNat ≤ 0x7f := by
      change c.toLower.toNat ≤ 0x7f
      change c.toNat ≤ 0x7f at hAscii
      rw [hLower]
      split <;> omega
    rw [String.utf8EncodeChar, String.utf8EncodeChar, if_pos hAscii, if_pos hLowerAscii,
      List.map_singleton, lowerByte_ofNat (by omega)]
    exact congrArg (fun n => [UInt8.ofNat n]) hLower.symm
  · have hSame : c.toLower = c := by
      rw [← Char.toNat_inj, toNat_toLower, if_neg]
      change ¬(65 ≤ c.val.toNat ∧ c.val.toNat ≤ 90)
      omega
    rw [hSame]
    refine (List.map_congr_left fun b hIn => ?_).trans (List.map_id _)
    revert hIn
    fun_cases String.utf8EncodeChar with
    | case1 => omega
    | case2 | case3 | case4 =>
      simp only [List.mem_cons, List.not_mem_nil, or_false]
      rintro hByte
      rcases hByte with rfl | rfl | rfl | rfl <;> exact lowerByte_of_le (by omega) (by omega)

/-- So the bytes of a text can be lowered one by one. -/
theorem map_lowerByte_utf8 (s : String) :
    (utf8 s).map lowerByte = utf8 (String.ofList (s.toList.map Char.toLower)) := by
  rw [utf8_eq_flatMap, utf8_eq_flatMap, String.toList_ofList, List.map_flatMap, List.flatMap_map]
  simp only [map_lowerByte_utf8EncodeChar]

/-- Characters and bytes agree on which texts are the same up to case. -/
theorem sameUpToCase_iff_bytes {s t : String} :
    SameUpToCase s t ↔ (utf8 s).map lowerByte = (utf8 t).map lowerByte := by
  rw [map_lowerByte_utf8, map_lowerByte_utf8, ← map_toLower_eq_iff]
  constructor
  · intro h
    rw [h]
  · intro h
    have hTexts := congrArg decode? h
    rw [decode?_utf8, decode?_utf8, Option.some.injEq] at hTexts
    simpa using congrArg String.toList hTexts

end Text

namespace Signature

open Text (SameUpToCase)

/-- The comparison of the program is the one up to case. -/
theorem sameLetters_iff {s t : String} : sameLetters s t = true ↔ SameUpToCase s t := by
  rw [sameLetters, decide_eq_true_iff, Text.map_toLower_eq_iff]

/-- Texts that are the same up to case are so to the same texts. -/
theorem sameLetters_congr {name other : String} (h : SameUpToCase name other) (s : String) :
    sameLetters s name = sameLetters s other := by
  rw [sameLetters, sameLetters, Text.map_toLower_eq_iff.2 h]

namespace Table

variable {t : Table} {register : UInt32}

/-- The last register there can be. -/
def lastRegister : UInt32 := 0xffffffff

/-- The first element of the table that has a property. -/
def FirstWith (t : Table) (P : Entry → Prop) (e : Entry) : Prop :=
  ∃ before later, t.entries = before ++ e :: later ∧ P e ∧ ∀ o ∈ before, ¬P o

/-- Semantic and stream are these, whatever the case of the name. -/
def Matches (name : String) (index stream : UInt32) (e : Entry) : Prop :=
  e.semanticIndex = index ∧ e.stream = stream ∧ SameUpToCase e.semanticName name

section Searches

variable {p : Entry → Bool} {P : Entry → Prop}

theorem find?_eq_none_iff (h : ∀ e, p e = true ↔ P e) :
    t.entries.find? p = none ↔ ∀ e ∈ t.entries, ¬P e := by
  simp only [List.find?_eq_none, h]

theorem inRegister_iff (register : UInt32) (e : Entry) :
    decide (e.register = register) = true ↔ e.register = register := decide_eq_true_iff

/-- An entry answers to a name, an index and a stream. -/
theorem matches_iff (name : String) (index stream : UInt32) (e : Entry) :
    (e.semanticIndex = index && e.stream = stream && sameLetters e.semanticName name) = true ↔
      Matches name index stream e := by
  rw [Bool.and_eq_true, Bool.and_eq_true, decide_eq_true_iff, decide_eq_true_iff, sameLetters_iff,
    and_assoc, Matches]

end Searches

section Masks

theorem has_union (m n : Components) (i : Nat) :
    (m.union n).has i = (m.has i || n.has i) := BitVec.getLsbD_or

/-- A union of masks has a component if one of them has it. -/
theorem has_foldl_union (entries : List Entry) (mask : Components) (i : Nat) :
    (entries.foldl (fun mask e => mask.union e.mask) mask).has i = true ↔
      mask.has i = true ∨ ∃ e ∈ entries, e.mask.has i = true := by
  induction entries generalizing mask with
  | nil => simp
  | cons e rest ih =>
      rw [List.foldl_cons, ih, has_union, Bool.or_eq_true, List.exists_mem_cons_iff, or_assoc]

/-- A register uses the components of all entries that lie in it. -/
theorem has_componentsIn_iff (register : UInt32) (i : Nat) :
    (t.componentsIn register).has i = true ↔
      ∃ e ∈ t.entries, e.register = register ∧ e.mask.has i = true := by
  have hEmpty : Components.empty.has i = false := BitVec.getLsbD_zero
  rw [componentsIn, has_foldl_union, hEmpty]
  simp only [List.mem_filter, decide_eq_true_iff, Bool.false_eq_true, false_or, and_assoc]

/-- A register without an element has no component. -/
theorem componentsIn_eq_empty (h : ∀ e ∈ t.entries, e.register ≠ register) :
    t.componentsIn register = .empty := by
  have hNone : t.entries.filter (·.register = register) = [] :=
    List.filter_eq_nil_iff.2 fun e hIn => by simpa using h e hIn
  rw [componentsIn, hNone]
  rfl

end Masks

section Bounds

/-- Behind the last register there is none, so that it counts as its own successor. -/
theorem toNat_nextRegister (r : UInt32) :
    (nextRegister r).toNat = if r = lastRegister then r.toNat else r.toNat + 1 := by
  rw [nextRegister, lastRegister]
  split
  · rfl
  · rename_i h
    have hLast : r.toNat ≠ 0xffffffff := fun hSame => h (UInt32.toNat_inj.1 hSame)
    have hRange := r.toNat_lt
    have hOne : (1 : UInt32).toNat = 1 := rfl
    rw [UInt32.toNat_add, hOne, Nat.mod_eq_of_lt (by omega)]

/-- The greatest successor is bounded by whatever bounds all of them. -/
theorem foldl_max_le_iff (entries : List Entry) (count : UInt32) (n : Nat) :
    (entries.foldl (fun count e => max count (nextRegister e.register)) count).toNat ≤ n ↔
      count.toNat ≤ n ∧ ∀ e ∈ entries, (nextRegister e.register).toNat ≤ n := by
  induction entries generalizing count with
  | nil => simp
  | cons e rest ih =>
      rw [List.foldl_cons, ih, UInt32.toNat_max, Nat.max_le, List.forall_mem_cons, and_assoc]

/-- The bound is known by what lies above it. -/
theorem registerBound_le_iff (n : Nat) :
    t.registerBound.toNat ≤ n ↔ ∀ e ∈ t.entries, (nextRegister e.register).toNat ≤ n := by
  rw [registerBound, foldl_max_le_iff, UInt32.toNat_zero, and_iff_right (Nat.zero_le n)]

theorem nextRegister_le_bound {e : Entry} (h : e ∈ t.entries) :
    (nextRegister e.register).toNat ≤ t.registerBound.toNat :=
  (registerBound_le_iff _).1 (Nat.le_refl _) e h

/-- As long as nothing lies in the last register, the bound is the least number above all
registers. -/
theorem isLeast_registerBound (h : ∀ e ∈ t.entries, e.register ≠ lastRegister) :
    IsLeast {m : Nat | ∀ e ∈ t.entries, e.register.toNat < m} t.registerBound.toNat := by
  have hNext : ∀ e ∈ t.entries, (nextRegister e.register).toNat = e.register.toNat + 1 := by
    intro e hIn
    rw [toNat_nextRegister, if_neg (h e hIn)]
  constructor
  · intro e hIn
    have hBound := nextRegister_le_bound hIn
    rw [hNext e hIn] at hBound
    exact hBound
  · intro m hAbove
    refine (registerBound_le_iff m).2 fun e hIn => ?_
    rw [hNext e hIn]
    exact hAbove e hIn

/-- An entry in the last register makes it the bound, although the entry does not lie below. -/
theorem registerBound_eq_last (h : ∃ e ∈ t.entries, e.register = lastRegister) :
    t.registerBound = lastRegister := by
  obtain ⟨e, hIn, hLast⟩ := h
  have hBound := nextRegister_le_bound hIn
  rw [toNat_nextRegister, if_pos hLast, hLast] at hBound
  have hRange := t.registerBound.toNat_lt
  have hValue : lastRegister.toNat = 2 ^ 32 - 1 := rfl
  exact UInt32.toNat_inj.1 (by omega)

/-- No element stands at the bound or above, up to the last register. -/
theorem register_ne_of_bound_le (hAbove : t.registerBound ≤ register)
    (hBelow : register < lastRegister) : ∀ e ∈ t.entries, e.register ≠ register := by
  rintro e hIn rfl
  have hBound := nextRegister_le_bound hIn
  rw [toNat_nextRegister, if_neg (UInt32.ne_of_lt hBelow)] at hBound
  have hAbove := UInt32.le_iff_toNat_le.1 hAbove
  omega

end Bounds

/-- What the lookups on a table answer, and how they fit together. -/
structure Lookups (t : Table) : Prop where
  component : ∀ register i, (t.componentsIn register).has i = true ↔
    ∃ e ∈ t.entries, e.register = register ∧ e.mask.has i = true
  inRegister : ∀ register e, t.findRegister? register = some e ↔
    t.FirstWith (·.register = register) e
  noneInRegister : ∀ register, t.findRegister? register = none ↔
    ∀ e ∈ t.entries, e.register ≠ register
  boundEmpty : t.entries = [] → t.registerBound = 0
  bound : (∀ e ∈ t.entries, e.register ≠ lastRegister) →
    IsLeast {m : Nat | ∀ e ∈ t.entries, e.register.toNat < m} t.registerBound.toNat
  boundLast : (∃ e ∈ t.entries, e.register = lastRegister) → t.registerBound = lastRegister
  beyond : ∀ register, t.registerBound ≤ register → register < lastRegister →
    t.findRegister? register = none ∧ t.componentsIn register = .empty
  named : ∀ name index stream e, t.find? name index stream = some e ↔
    t.FirstWith (Matches name index stream) e
  noneNamed : ∀ name index stream, t.find? name index stream = none ↔
    ∀ e ∈ t.entries, ¬Matches name index stream e
  anyCase : ∀ name other index stream, SameUpToCase name other →
    t.find? name index stream = t.find? other index stream

/-- Each search by itself, over the whole table. -/
theorem lookups (t : Table) : t.Lookups where
  component := has_componentsIn_iff
  inRegister register _ := find?_eq_some_iff_first (inRegister_iff register)
  noneInRegister register := find?_eq_none_iff (inRegister_iff register)
  boundEmpty h := by rw [registerBound, h]; rfl
  bound := isLeast_registerBound
  boundLast := registerBound_eq_last
  beyond register hAbove hBelow := by
    have hNone := register_ne_of_bound_le hAbove hBelow
    exact ⟨(find?_eq_none_iff (inRegister_iff register)).2 hNone, componentsIn_eq_empty hNone⟩
  named name index stream _ := find?_eq_some_iff_first (matches_iff name index stream)
  noneNamed name index stream := find?_eq_none_iff (matches_iff name index stream)
  anyCase name other index stream hCase := by
    rw [find?, find?]
    simp only [sameLetters_congr hCase]

/-- The lookups on any table agree with each other, and names are compared alike by their letters and
by their bytes. -/
theorem lookups_agree (t : Table) :
    t.Lookups ∧ ∀ name other : String, SameUpToCase name other ↔
      (Text.utf8 name).map Text.lowerByte = (Text.utf8 other).map Text.lowerByte :=
  ⟨lookups t, fun _ _ => Text.sameUpToCase_iff_bytes⟩

/-- Two elements share the highest register that is used, and their names differ in case only. -/
def sharedRegister : Table :=
  ⟨[⟨"TEXCOORD", 0, 0, .float32, 2, .ofNat 3, 0⟩, ⟨"texcoord", 0, 0, .float32, 2, .ofNat 12, 0⟩,
    ⟨"SV_Position", 0, 1, .float32, 0, .xyzw, 0⟩]⟩

/-- Both elements add to the mask of their register, and a name finds the first of them in any case. -/
theorem lookups_agree_sharedRegister :
    sharedRegister.registerBound = 3 ∧ sharedRegister.findRegister? 3 = none ∧
      sharedRegister.componentsIn 2 = .xyzw ∧ sharedRegister.componentsIn 3 = .empty ∧
      SameUpToCase "TexCoord" "tEXcOORD" ∧
      sharedRegister.find? "TexCoord" 0 0 = sharedRegister.find? "tEXcOORD" 0 0 := by
  obtain ⟨hLookups, -⟩ := lookups_agree sharedRegister
  have hBound : sharedRegister.registerBound = 3 := by decide
  have hCase : SameUpToCase "TexCoord" "tEXcOORD" := sameLetters_iff.1 (by decide)
  obtain ⟨hNone, hEmpty⟩ := hLookups.beyond 3 (by rw [hBound]; decide) (by decide)
  exact ⟨hBound, hNone, by decide, hEmpty, hCase, hLookups.anyCase _ _ 0 0 hCase⟩

end Table

end Signature

end ShaderBackend
