import Mathlib.Algebra.Ring.Nat
import ShaderBackend.Spirv.Bytes
import ShaderBackend.Text.Utf8

/-! Words and texts as bytes, and back. A word is read from its four bytes and a text from its UTF-8,
and a text has a zero byte only where it has the null character. -/
namespace ShaderBackend

namespace Spirv

theorem toNat_shiftLeft_toUInt32 (b : UInt8) (shift : Nat) (hShift : shift ≤ 24) :
    (b.toUInt32 <<< UInt32.ofNat shift).toNat = 2 ^ shift * b.toNat := by
  have hPower : 2 ^ shift ≤ 2 ^ 24 := Nat.pow_le_pow_right (by decide) hShift
  have hInside : b.toNat * 2 ^ shift < 2 ^ 32 :=
    calc b.toNat * 2 ^ shift ≤ b.toNat * 2 ^ 24 := Nat.mul_le_mul_left _ hPower
      _ < 2 ^ 8 * 2 ^ 24 := Nat.mul_lt_mul_of_pos_right b.toNat_lt (by decide)
  rw [UInt32.toNat_shiftLeft, UInt8.toNat_toUInt32, UInt32.toNat_ofNat', Nat.shiftLeft_eq,
    Nat.mod_eq_of_lt (show shift < 2 ^ 32 by omega), Nat.mod_eq_of_lt (show shift < 32 by omega),
    Nat.mod_eq_of_lt hInside, Nat.mul_comm]

/-- A word is the number its bytes make, the least significant byte first. -/
theorem toNat_wordOfBytes (a b c d : UInt8) :
    (wordOfBytes a b c d).toNat =
      a.toNat + 2 ^ 8 * b.toNat + 2 ^ 16 * c.toNat + 2 ^ 24 * d.toNat := by
  have hFirst := a.toNat_lt
  have hSecond : (b.toUInt32 <<< 8).toNat = _ := toNat_shiftLeft_toUInt32 b 8 (by decide)
  have hThird : (c.toUInt32 <<< 16).toNat = _ := toNat_shiftLeft_toUInt32 c 16 (by decide)
  have hFourth : (d.toUInt32 <<< 24).toNat = _ := toNat_shiftLeft_toUInt32 d 24 (by decide)
  have hByte := b.toNat_lt
  have hHalf := c.toNat_lt
  -- The bytes share no bit, so that putting them together is adding them up.
  rw [wordOfBytes, UInt32.toNat_or, UInt32.toNat_or, UInt32.toNat_or, hSecond, hThird, hFourth,
    UInt8.toNat_toUInt32, Nat.or_comm a.toNat, ← Nat.two_pow_add_eq_or_of_lt (i := 8) (by omega),
    Nat.or_comm _ (2 ^ 16 * _), ← Nat.two_pow_add_eq_or_of_lt (i := 16) (by omega),
    Nat.or_comm _ (2 ^ 24 * _), ← Nat.two_pow_add_eq_or_of_lt (i := 24) (by omega)]
  omega

theorem toNat_toUInt8_shiftRight (w : UInt32) (shift : Nat) (hShift : shift < 32) :
    ((w >>> UInt32.ofNat shift).toUInt8).toNat = w.toNat / 2 ^ shift % 2 ^ 8 := by
  rw [UInt32.toNat_toUInt8, UInt32.toNat_shiftRight, UInt32.toNat_ofNat', Nat.shiftRight_eq_div_pow,
    Nat.mod_eq_of_lt (Nat.lt_trans hShift (by decide)), Nat.mod_eq_of_lt hShift]

/-- A word is read back from its bytes. -/
theorem wordOfBytes_bytesOfWord (w : UInt32) :
    wordOfBytes w.toUInt8 (w >>> 8).toUInt8 (w >>> 16).toUInt8 (w >>> 24).toUInt8 = w := by
  have hWord := w.toNat_lt
  have hSecond : ((w >>> 8).toUInt8).toNat = _ := toNat_toUInt8_shiftRight w 8 (by decide)
  have hThird : ((w >>> 16).toUInt8).toNat = _ := toNat_toUInt8_shiftRight w 16 (by decide)
  have hFourth : ((w >>> 24).toUInt8).toNat = _ := toNat_toUInt8_shiftRight w 24 (by decide)
  refine UInt32.toNat_inj.1 ?_
  rw [toNat_wordOfBytes, UInt32.toNat_toUInt8, hSecond, hThird, hFourth]
  omega

/-- Bytes are read back from the word that they make. -/
theorem bytesOfWord_wordOfBytes (a b c d : UInt8) : bytesOfWord (wordOfBytes a b c d) = [a, b, c, d] := by
  have hWord := toNat_wordOfBytes a b c d
  have hFirst := a.toNat_lt
  have hSecond := b.toNat_lt
  have hThird := c.toNat_lt
  have hFourth := d.toNat_lt
  have hByte (shift : Nat) (hShift : shift < 32) :=
    toNat_toUInt8_shiftRight (wordOfBytes a b c d) shift hShift
  rw [hWord] at hByte
  have hA : (wordOfBytes a b c d).toUInt8 = a := by
    rw [← UInt8.toNat_inj, UInt32.toNat_toUInt8, hWord]
    omega
  have hB : (wordOfBytes a b c d >>> 8).toUInt8 = b :=
    UInt8.toNat_inj.1 ((hByte 8 (by decide)).trans (by omega))
  have hC : (wordOfBytes a b c d >>> 16).toUInt8 = c :=
    UInt8.toNat_inj.1 ((hByte 16 (by decide)).trans (by omega))
  have hD : (wordOfBytes a b c d >>> 24).toUInt8 = d :=
    UInt8.toNat_inj.1 ((hByte 24 (by decide)).trans (by omega))
  rw [bytesOfWord, hA, hB, hC, hD]

/-- Bytes behind the last whole word are dropped. -/
theorem length_wordsOfBytes : ∀ bytes, (wordsOfBytes bytes).length = bytes.length / 4
  | [] | [_] | [_, _] | [_, _, _] => by simp [wordsOfBytes]
  | a :: b :: c :: d :: rest => by
      rw [wordsOfBytes, List.length_cons, length_wordsOfBytes rest]
      simp only [List.length_cons]
      omega

/-- Whole words of bytes have the bytes again, if none are left over. -/
theorem bytesOfWords_wordsOfBytes :
    ∀ {bytes : List UInt8}, bytes.length % 4 = 0 → bytesOfWords (wordsOfBytes bytes) = bytes
  | [], _ => rfl
  | [_], h | [_, _], h | [_, _, _], h => by simp at h
  | a :: b :: c :: d :: rest, h => by
      have hRest : rest.length % 4 = 0 := by
        simp only [List.length_cons] at h
        omega
      rw [wordsOfBytes, bytesOfWords, List.flatMap_cons, bytesOfWord_wordOfBytes, ← bytesOfWords,
        bytesOfWords_wordsOfBytes hRest]
      rfl

/-- Words are read back from their bytes. -/
theorem wordsOfBytes_bytesOfWords (words : List UInt32) : wordsOfBytes (bytesOfWords words) = words := by
  induction words with
  | nil => rfl
  | cons w words ih =>
      have hBytes : bytesOfWords (w :: words) = bytesOfWord w ++ bytesOfWords words :=
        List.flatMap_cons
      rw [hBytes, bytesOfWord, List.cons_append, List.cons_append, List.cons_append,
        List.cons_append, List.nil_append, wordsOfBytes, wordOfBytes_bytesOfWord, ih]

@[simp]
theorem length_bytesOfWords (words : List UInt32) : (bytesOfWords words).length = 4 * words.length := by
  induction words with
  | nil => rfl
  | cons w words ih =>
      rw [bytesOfWords, List.flatMap_cons, List.length_append, ← bytesOfWords, ih, List.length_cons]
      simp only [bytesOfWord, List.length_cons, List.length_nil]
      omega

theorem bytesOfWords_append (first second : List UInt32) :
    bytesOfWords (first ++ second) = bytesOfWords first ++ bytesOfWords second :=
  List.flatMap_append

end Spirv

namespace Text

theorem toByteArray_utf8 (s : String) : (utf8 s).toByteArray = s.toByteArray := by
  have hData : (utf8 s).toByteArray.data = s.toByteArray.data := by simp [utf8]
  exact ByteArray.ext hData

/-- A text is read back from its bytes. -/
theorem decode?_utf8 (s : String) : decode? (utf8 s) = some s := by
  rw [decode?, toByteArray_utf8, String.fromUTF8?, dif_pos s.isValidUTF8]
  rfl

/-- A text is decoded from its own bytes and from no others. -/
theorem decode?_eq_some_iff {bytes : List UInt8} {s : String} :
    decode? bytes = some s ↔ utf8 s = bytes := by
  constructor
  · intro h
    rw [decode?, String.fromUTF8?] at h
    split at h
    · cases h
      exact congrArg Array.toList List.data_toByteArray
    · cases h
  · rintro rfl
    exact decode?_utf8 s

/-- The bytes of a text are as many as its size in UTF-8. -/
theorem length_utf8 (s : String) : (utf8 s).length = s.utf8ByteSize := by
  rw [← List.size_toByteArray, toByteArray_utf8, String.size_toByteArray]

theorem utf8_eq_flatMap (s : String) : utf8 s = s.toList.flatMap String.utf8EncodeChar := by
  rw [utf8, String.toUTF8_eq_toByteArray, ← String.utf8Encode_toList]
  simp [List.utf8Encode]

/-- No character has more bytes than are looked at. -/
theorem leadingChar?_utf8EncodeChar_append (c : Char) (rest : List UInt8) :
    leadingChar? (String.utf8EncodeChar c ++ rest) = some c := by
  have hWhole : (String.utf8EncodeChar c).take 4 = String.utf8EncodeChar c :=
    List.take_of_length_le (String.length_utf8EncodeChar c ▸ c.utf8Size_le_four)
  rw [leadingChar?, List.take_append, hWhole, List.toByteArray_append,
    ByteArray.utf8DecodeChar?_utf8EncodeChar_append]

/-- One character at the front is decoded as itself, and decoding goes on behind it. -/
theorem decodeLossy_utf8EncodeChar_append (c : Char) (rest : List UInt8) :
    decodeLossy (String.utf8EncodeChar c ++ rest) = c :: decodeLossy rest := by
  have hLeading := leadingChar?_utf8EncodeChar_append c rest
  cases hBytes : String.utf8EncodeChar c ++ rest with
  | nil => exact absurd (List.append_eq_nil_iff.1 hBytes).1 String.utf8EncodeChar_ne_nil
  | cons first later =>
      rw [hBytes] at hLeading
      rw [decodeLossy, hLeading]
      simp only
      rw [← hBytes, List.drop_left' (String.length_utf8EncodeChar c)]

/-- Reading that replaces what is ill formed has nothing to replace in a text. -/
theorem decodeLossy_utf8 (s : String) : decodeLossy (utf8 s) = s.toList := by
  rw [utf8_eq_flatMap]
  induction s.toList with
  | nil => rw [List.flatMap_nil, decodeLossy]
  | cons c rest ih => rw [List.flatMap_cons, decodeLossy_utf8EncodeChar_append, ih]

/-- Only the zero character has a zero byte in its encoding. -/
theorem zero_mem_utf8EncodeChar_iff (c : Char) : 0 ∈ String.utf8EncodeChar c ↔ c = '\x00' := by
  have hZero (n : Nat) : (0 : UInt8) = UInt8.ofNat n ↔ n % 256 = 0 := by
    rw [← UInt8.toNat_inj, UInt8.toNat_ofNat', eq_comm]
    rfl
  have hNull : c = '\x00' ↔ c.val.toNat = 0 := by
    rw [Char.ext_iff, ← UInt32.toNat_inj]
    rfl
  rw [hNull]
  fun_cases String.utf8EncodeChar with
  | case1 | case2 | case3 | case4 =>
    simp only [List.mem_cons, List.not_mem_nil, hZero, or_false]
    omega

/-- A zero byte stands for the null character and is part of no other. -/
theorem zero_mem_utf8_iff (s : String) : 0 ∈ utf8 s ↔ '\x00' ∈ s.toList := by
  rw [utf8_eq_flatMap, List.mem_flatMap]
  simp only [zero_mem_utf8EncodeChar_iff, exists_eq_right]

end Text

end ShaderBackend
