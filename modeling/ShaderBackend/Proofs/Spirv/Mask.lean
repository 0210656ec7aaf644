import Mathlib.Data.List.Nodup
import Mathlib.Data.Nat.Bitwise
import ShaderBackend.Spirv.Specialization

/-! The set bits of a mask, in the order in which they are cleared. Removing the inputs of
a mask is one removal after the other, at these locations. -/
namespace ShaderBackend.Spirv

/-- Below its lowest set bit a number is zero, so its predecessor has ones there and a zero
at that bit. Above it the two agree. -/
theorem testBit_and_pred {m k : Nat} (hSet : m.testBit k = true)
    (hLow : ∀ j < k, m.testBit j = false) (n : Nat) :
    (m &&& (m - 1)).testBit n = (m.testBit n && decide (n ≠ k)) := by
  have hZero : m % 2 ^ k = 0 := by
    apply Nat.eq_of_testBit_eq
    intro j
    rw [Nat.testBit_mod_two_pow, Nat.zero_testBit]
    by_cases hBelow : j < k
    · rw [hLow j hBelow, Bool.and_false]
    · rw [decide_eq_false hBelow, Bool.false_and]
  have hOdd : m / 2 ^ k % 2 = 1 := by
    have hBit : (m / 2 ^ k).testBit 0 = m.testBit (0 + k) := Nat.testBit_div_two_pow ..
    rw [Nat.zero_add, hSet, Nat.testBit_zero] at hBit
    exact of_decide_eq_true hBit
  obtain ⟨q, hQuotient⟩ : ∃ q, m / 2 ^ k = 2 * q + 1 := ⟨m / 2 ^ k / 2, by omega⟩
  have hWhole : m = 2 ^ k * (2 * q + 1) + 0 := by
    rw [← hQuotient, Nat.add_zero, Nat.mul_div_cancel' (Nat.dvd_of_mod_eq_zero hZero)]
  have hPositive := Nat.two_pow_pos k
  -- The part from the lowest set bit on is odd, so taking one away does not borrow beyond it.
  have hPred : m - 1 = 2 ^ k * (2 * q) + (2 ^ k - 1) := by
    rw [hWhole, Nat.mul_add]
    omega
  rw [Nat.testBit_and, hPred, hWhole, Nat.testBit_two_pow_mul_add _ hPositive,
    Nat.testBit_two_pow_mul_add _ (Nat.sub_lt hPositive Nat.one_pos)]
  by_cases hBelow : n < k
  · rw [if_pos hBelow, Nat.zero_testBit, Bool.false_and, Bool.false_and]
  · rw [if_neg hBelow, if_neg hBelow]
    rcases Nat.eq_or_lt_of_le (Nat.le_of_not_lt hBelow) with rfl | hAbove
    · simp
    · obtain ⟨j, hJ⟩ : ∃ j, n - k = j + 1 := ⟨n - k - 1, by omega⟩
      have hNe : n ≠ k := by omega
      rw [hJ, Nat.testBit_add_one, Nat.testBit_add_one, decide_eq_true hNe, Bool.and_true]
      have hHalf : (2 * q + 1) / 2 = 2 * q / 2 := by omega
      rw [hHalf, Bool.and_self]

theorem filter_eq_cons_of_find? {α : Type} [DecidableEq α] {property : α → Bool} {list : List α}
    {first : α} (hNodup : list.Nodup) (h : list.find? property = some first) :
    list.filter property =
      first :: list.filter fun other => property other && decide (other ≠ first) := by
  induction list with
  | nil => cases h
  | cons head rest ih =>
      rw [List.nodup_cons] at hNodup
      cases hHead : property head with
      | true =>
          rw [List.find?_cons, hHead] at h
          cases h
          rw [List.filter_cons_of_pos hHead, List.filter_cons_of_neg (by simp)]
          congr 1
          apply List.filter_congr
          intro other hMem
          have hNe : other ≠ first := fun hSame => hNodup.1 (hSame ▸ hMem)
          rw [decide_eq_true hNe, Bool.and_true]
      | false =>
          rw [List.find?_cons, hHead] at h
          rw [List.filter_cons_of_neg (by simp [hHead]), ih hNodup.2 h,
            List.filter_cons_of_neg (by simp [hHead])]

/-- A mask has no bits beyond those of a word. -/
theorem lt_of_testBit {mask : UInt32} {n : Nat} (h : mask.toNat.testBit n = true) : n < 32 := by
  by_contra hLarge
  have hMask : mask.toNat < 2 ^ n :=
    (UInt32.toNat_lt mask).trans_le (Nat.pow_le_pow_right (by decide) (Nat.le_of_not_lt hLarge))
  rw [Nat.testBit_lt_two_pow hMask] at h
  cases h

/-- The numbers of the set bits of a mask, the lowest first. -/
def setBits (mask : UInt32) : List UInt32 :=
  ((List.range 32).filter fun n => mask.toNat.testBit n).map UInt32.ofNat

/-- The listed locations are those whose bit is set. -/
theorem mem_setBits_iff {mask location : UInt32} :
    location ∈ setBits mask ↔ mask.toNat.testBit location.toNat = true := by
  rw [setBits, List.mem_map]
  constructor
  · rintro ⟨n, hMem, rfl⟩
    obtain ⟨hRange, hBit⟩ := List.mem_filter.1 hMem
    have hSmall : n < UInt32.size := (List.mem_range.1 hRange).trans (by decide)
    rwa [UInt32.toNat_ofNat_of_lt' hSmall]
  · intro hBit
    exact ⟨location.toNat, List.mem_filter.2 ⟨List.mem_range.2 (lt_of_testBit hBit), hBit⟩,
      UInt32.ofNat_toNat⟩

theorem pairwise_setBits (mask : UInt32) : (setBits mask).Pairwise (· < ·) := by
  rw [setBits, List.pairwise_map]
  refine (List.pairwise_lt_range.filter _).imp_of_mem ?_
  intro first second hFirst hSecond hLess
  have hSmall {n : Nat} (hMem : n ∈ (List.range 32).filter fun n => mask.toNat.testBit n) :
      n < UInt32.size := (List.mem_range.1 (List.mem_filter.1 hMem).1).trans (by decide)
  rwa [UInt32.lt_iff_toNat_lt, UInt32.toNat_ofNat_of_lt' (hSmall hFirst),
    UInt32.toNat_ofNat_of_lt' (hSmall hSecond)]

theorem find?_testBit {mask : UInt32} (h : mask ≠ 0) :
    (List.range 32).find? (fun n => mask.toNat.testBit n) = some (lowestBit mask) := by
  cases hFind : (List.range 32).find? fun n => mask.toNat.testBit n with
  | some n => rw [lowestBit, hFind, Option.getD_some]
  | none =>
      refine (h (UInt32.toNat_inj.1 (Nat.eq_of_testBit_eq fun n => ?_))).elim
      rw [UInt32.toNat_zero, Nat.zero_testBit]
      by_cases hRange : n < 32
      · exact Bool.not_eq_true _ ▸ List.find?_eq_none.1 hFind n (List.mem_range.2 hRange)
      · exact Bool.eq_false_iff.2 fun hBit => hRange (lt_of_testBit hBit)

/-- Subtracting one and masking clears the lowest set bit and no other. -/
theorem testBit_clearLowest {mask : UInt32} (h : mask ≠ 0) (n : Nat) :
    (clearLowest mask).toNat.testBit n =
      (mask.toNat.testBit n && decide (n ≠ lowestBit mask)) := by
  obtain ⟨hSet, before, later, hSplit, hBefore⟩ := List.find?_eq_some_iff_append.1 (find?_testBit h)
  have hLow (j : Nat) (hBelow : j < lowestBit mask) : mask.toNat.testBit j = false := by
    have hOrder : (List.range 32).Pairwise (· < ·) := List.pairwise_lt_range
    rw [hSplit, List.pairwise_append, List.pairwise_cons] at hOrder
    have hMem : j ∈ List.range 32 := by
      have hLast : lowestBit mask ∈ List.range 32 := hSplit ▸ by simp
      exact List.mem_range.2 (hBelow.trans (List.mem_range.1 hLast))
    rw [hSplit, List.mem_append, List.mem_cons] at hMem
    rcases hMem with hEarly | rfl | hLate
    · simpa using hBefore j hEarly
    · omega
    · have hAbove := hOrder.2.1.1 j hLate
      omega
  have hPred : (mask - 1).toNat = mask.toNat - 1 := by
    have hPositive : 0 < mask.toNat := Nat.pos_of_ne_zero fun hZero => h (UInt32.toNat_inj.1 hZero)
    have hOne : (1 : UInt32) ≤ mask := UInt32.le_iff_toNat_le.2 hPositive
    rw [UInt32.toNat_sub_of_le _ _ hOne, UInt32.toNat_one]
  rw [clearLowest, UInt32.toNat_and, hPred, testBit_and_pred hSet hLow]

/-- Clearing the lowest bit leaves the others in their order. -/
theorem setBits_eq_cons {mask : UInt32} (h : mask ≠ 0) :
    setBits mask = UInt32.ofNat (lowestBit mask) :: setBits (clearLowest mask) := by
  rw [setBits, filter_eq_cons_of_find? List.nodup_range (find?_testBit h), List.map_cons, setBits]
  simp only [testBit_clearLowest h]

/-- Removes the inputs at some locations, one location after the other. -/
def eliminateEach (locations : List UInt32) (code : Code) : Except PatchError Code :=
  locations.foldlM (fun code location => (eliminateWithin code location).map (·.getD code)) code

theorem eliminateEach_cons (location : UInt32) (rest : List UInt32) (code : Code) :
    eliminateEach (location :: rest) code =
      (eliminateWithin code location).bind fun changed =>
        eliminateEach rest (changed.getD code) := by
  rw [eliminateEach, List.foldlM_cons]
  cases eliminateWithin code location <;> rfl

/-- The bits of a mask are taken from the lowest to the highest. -/
theorem eliminateAll_eq_eliminateEach (mask : UInt32) (code : Code) :
    eliminateAll mask code = eliminateEach (setBits mask) code := by
  induction mask, code using eliminateAll.induct with
  | case1 code =>
      rw [eliminateAll, dif_pos rfl]
      rfl
  | case2 mask code hNonzero error hError =>
      rw [eliminateAll, dif_neg hNonzero, hError, setBits_eq_cons hNonzero, eliminateEach_cons,
        hError]
      rfl
  | case3 mask code hNonzero changed hChanged ih =>
      rw [eliminateAll, dif_neg hNonzero, hChanged, setBits_eq_cons hNonzero, eliminateEach_cons,
        hChanged]
      exact ih

end ShaderBackend.Spirv
