import Mathlib.Data.Nat.Digits.Defs
import ShaderBackend.Proofs.Encoding
import ShaderBackend.Spirv.Code

/-! Modules in their binary form. Loading looks at the memory of the bytes as words where it may,
and otherwise puts the words together from four bytes at a time. Both give the same words, so that
what is loaded does not depend on where the bytes lie, and storing it writes these bytes. -/
namespace ShaderBackend.Spirv

/-- Bytes where they lie in memory. -/
structure Slice where
  address : Nat
  bytes : List UInt8
  deriving DecidableEq, Repr

/-- The same memory as words. There is no such view of an address or a length that words cannot
have. -/
abbrev WordView := Slice → Option (List UInt32)

/-- A view shows words that take up the bytes of the slice, on a machine that stores the least
significant byte first. -/
def WordView.Reinterprets (view : WordView) : Prop :=
  ∀ slice words, view slice = some words → bytesOfWords words = slice.bytes

namespace Code

/-- A module from a slice of memory: through a view if there is one. -/
def ofSlice (view : WordView) (slice : Slice) : Except LoadError Code :=
  if slice.bytes.length % 4 ≠ 0 then .error (.unalignedSize slice.bytes.length)
  else
    match view slice with
    | some words => ofWords words
    | none => ofWords (wordsOfBytes slice.bytes)

/-- The number that the first four bytes make, the least significant byte first. -/
def firstNumber (bytes : List UInt8) : Nat := Nat.ofDigits 256 ((bytes.take 4).map UInt8.toNat)

theorem firstNumber_cons (a b c d : UInt8) (rest : List UInt8) :
    firstNumber (a :: b :: c :: d :: rest) = (wordOfBytes a b c d).toNat := by
  rw [toNat_wordOfBytes]
  simp only [firstNumber, List.take_succ_cons, List.take_zero, List.map_cons, List.map_nil,
    Nat.ofDigits_cons, Nat.ofDigits_nil]
  omega

/-- Words load exactly when there is room for a header and the first word is the magic number, and
then they are taken as they are. -/
theorem ofWords_eq_ok_iff {words : List UInt32} {code : Code} :
    ofWords words = .ok code ↔
      Header.length ≤ words.length ∧ words.headD 0 = Header.magic ∧ code = ⟨.headed, words⟩ := by
  rw [ofWords]
  split
  · rename_i hShort
    exact ⟨nofun, fun h => absurd hShort (Nat.not_lt.2 h.1)⟩
  · rename_i hLong
    split
    · rename_i hMagic
      exact ⟨nofun, fun h => absurd h.2.1 hMagic⟩
    · rename_i hMagic
      constructor
      · rintro ⟨⟩
        exact ⟨Nat.le_of_not_lt hLong, not_not.1 hMagic, rfl⟩
      · rintro ⟨-, -, rfl⟩
        rfl

/-- The first word is the number that the first four bytes make. -/
theorem headD_wordsOfBytes {bytes : List UInt8} (h : 4 ≤ bytes.length) :
    ((wordsOfBytes bytes).headD 0).toNat = firstNumber bytes := by
  match bytes with
  | [] | [_] | [_, _] | [_, _, _] => simp at h
  | a :: b :: c :: d :: rest => exact (firstNumber_cons a b c d rest).symm

/-- Bytes load exactly when they make whole words, enough for a header, and the first four are the
magic number in little-endian order. -/
theorem ofBytes_eq_ok_iff {bytes : List UInt8} {code : Code} :
    ofBytes bytes = .ok code ↔
      (4 ∣ bytes.length ∧ 20 ≤ bytes.length ∧ firstNumber bytes = Header.magic.toNat) ∧
        code = ⟨.headed, wordsOfBytes bytes⟩ := by
  have hLength : Header.length ≤ (wordsOfBytes bytes).length ↔ 20 ≤ bytes.length := by
    rw [length_wordsOfBytes, Nat.le_div_iff_mul_le (by decide)]
    rfl
  have hMagic (hLong : 20 ≤ bytes.length) :
      (wordsOfBytes bytes).headD 0 = Header.magic ↔ firstNumber bytes = Header.magic.toNat := by
    rw [← headD_wordsOfBytes (by omega), UInt32.toNat_inj]
  rw [ofBytes]
  split
  · rename_i hPartial
    simp [Nat.dvd_iff_mod_eq_zero, hPartial]
  · rename_i hWhole
    rw [ofWords_eq_ok_iff, hLength, Nat.dvd_iff_mod_eq_zero, not_not.1 hWhole]
    constructor
    · rintro ⟨hLong, hHead, hCode⟩
      exact ⟨⟨rfl, hLong, (hMagic hLong).1 hHead⟩, hCode⟩
    · rintro ⟨⟨-, hLong, hNumber⟩, hCode⟩
      exact ⟨hLong, (hMagic hLong).2 hNumber, hCode⟩

/-- Bytes that are loaded are stored again as they were. -/
theorem store_of_ofBytes {bytes : List UInt8} {code : Code} (h : ofBytes bytes = .ok code) :
    code.store = bytes := by
  obtain ⟨⟨hWhole, -⟩, rfl⟩ := ofBytes_eq_ok_iff.1 h
  exact bytesOfWords_wordsOfBytes (Nat.mod_eq_zero_of_dvd hWhole)

/-- A module is loaded from what it is stored as. -/
theorem ofBytes_store {words : List UInt32} {code : Code} (h : ofWords words = .ok code) :
    ofBytes code.store = .ok code := by
  obtain ⟨-, -, rfl⟩ := ofWords_eq_ok_iff.1 h
  have hWhole : (bytesOfWords words).length % 4 = 0 := by
    rw [length_bytesOfWords, Nat.mul_mod_right]
  rw [ofBytes, store, if_neg (not_not.2 hWhole), wordsOfBytes_bytesOfWords, h]

/-- Where there is a view, its words are those that are put together from the bytes. -/
theorem ofSlice_eq {view : WordView} (hView : view.Reinterprets) (slice : Slice) :
    ofSlice view slice = ofBytes slice.bytes := by
  rw [ofSlice, ofBytes]
  cases hWords : view slice with
  | none => rfl
  | some words => rw [← hView slice words hWords, wordsOfBytes_bytesOfWords]

/-- Loading and storing are inverse. Bytes are a module exactly if they divide into at least five
words of which the first is the magic number. Storing the module writes them again, every module is
loaded from what is written for it, and it makes no difference whether there is a view of the
memory. -/
theorem load_store_inverse (view : WordView) (hView : view.Reinterprets) :
    (∀ slice, (∃ code, ofSlice view slice = .ok code) ↔
      4 ∣ slice.bytes.length ∧ 20 ≤ slice.bytes.length ∧
        firstNumber slice.bytes = Header.magic.toNat) ∧
    (∀ slice code, ofSlice view slice = .ok code → code.store = slice.bytes) ∧
    (∀ words code, ofWords words = .ok code →
      ∀ address, ofSlice view ⟨address, code.store⟩ = .ok code) ∧
    ∀ slice, ofSlice view slice = ofBytes slice.bytes := by
  refine ⟨fun slice => ?_, fun slice code h => ?_, fun words code h address => ?_, ofSlice_eq hView⟩
  · rw [ofSlice_eq hView]
    constructor
    · rintro ⟨code, hCode⟩
      exact (ofBytes_eq_ok_iff.1 hCode).1
    · intro hAccepted
      exact ⟨_, ofBytes_eq_ok_iff.2 ⟨hAccepted, rfl⟩⟩
  · exact store_of_ofBytes (ofSlice_eq hView slice ▸ h)
  · rw [ofSlice_eq hView, ofBytes_store h]

/-- The view of a machine whose words have addresses that are multiples of four. -/
def alignedView : WordView := fun slice =>
  if slice.address % 4 = 0 ∧ slice.bytes.length % 4 = 0 then some (wordsOfBytes slice.bytes)
  else none

/-- A header and one instruction without operands. -/
def sixWords : List UInt8 :=
  [0x03, 0x02, 0x23, 0x07, 0, 0, 1, 0, 0, 0, 0, 0, 9, 0, 0, 0, 0, 0, 0, 0, 0x38, 0, 1, 0]

theorem load_store_inverse_sixWords :
    alignedView.Reinterprets ∧
      alignedView ⟨64, sixWords⟩ ≠ none ∧ alignedView ⟨62, sixWords⟩ = none ∧
      ∃ code, ofSlice alignedView ⟨64, sixWords⟩ = .ok code ∧
        ofSlice alignedView ⟨62, sixWords⟩ = .ok code ∧ code.store = sixWords ∧
        code.bound? = some 9 := by
  have hView : alignedView.Reinterprets := by
    intro slice words h
    obtain ⟨⟨-, hWhole⟩, hWords⟩ := Option.ite_none_right_eq_some.1 h
    cases hWords
    exact bytesOfWords_wordsOfBytes hWhole
  obtain ⟨hAccepts, hStores, -, hSame⟩ := load_store_inverse alignedView hView
  obtain ⟨code, hCode⟩ := (hAccepts ⟨64, sixWords⟩).2 (by decide)
  have hOther : ofSlice alignedView ⟨62, sixWords⟩ = .ok code :=
    (hSame ⟨62, sixWords⟩).trans ((hSame ⟨64, sixWords⟩).symm.trans hCode)
  have hBound : code.bound? = some 9 := by
    cases (ofBytes_eq_ok_iff.1 ((hSame _).symm.trans hCode)).2
    decide
  exact ⟨hView, by decide, by decide, code, hCode, hOther, hStores _ code hCode, hBound⟩

end Code
end ShaderBackend.Spirv
