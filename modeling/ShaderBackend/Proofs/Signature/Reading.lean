import ShaderBackend.Signature.Chunk
import ShaderBackend.Signature.Layout
import Mathlib.Data.List.TakeWhile

/-! What a cursor reads, said of the bytes under it: a word where four bytes are left, and a name where
the bytes hold well-formed text with a zero byte behind. -/
namespace ShaderBackend.Signature

/-- Two steps succeed if the first does and the second does with what it gives. -/
theorem bind_eq_ok_iff {ε α β : Type} {x : Except ε α} {f : α → Except ε β} {b : β} :
    x >>= f = .ok b ↔ ∃ a, x = .ok a ∧ f a = .ok b := by
  cases x with
  | error cause => simp [bind, Except.bind]
  | ok a => simp [bind, Except.bind]

theorem map_eq_ok_iff {ε α β : Type} {x : Except ε α} {f : α → β} {b : β} :
    f <$> x = .ok b ↔ ∃ a, x = .ok a ∧ f a = b := by
  cases x with
  | error cause => simp [Functor.map, Except.map]
  | ok a => simp [Functor.map, Except.map]

/-- Success is blind to how errors are told. -/
theorem mapError_eq_ok_iff {ε δ α : Type} {x : Except ε α} {f : ε → δ} {a : α} :
    x.mapError f = .ok a ↔ x = .ok a := by
  cases x <;> simp [Except.mapError]

/-- The word at a place, the least significant byte first. Bytes past the end count as zero. -/
def wordAt (data : List UInt8) (position : Nat) : UInt32 :=
  Spirv.wordOfBytes (data.getD position 0) (data.getD (position + 1) 0)
    (data.getD (position + 2) 0) (data.getD (position + 3) 0)

/-- At this place stands a name, and a zero byte behind it. -/
def NameAt (data : List UInt8) (position : Nat) (name : String) : Prop :=
  ∃ bytes rest, data.drop position = bytes ++ 0 :: rest ∧ (0 : UInt8) ∉ bytes ∧
    Text.decode? bytes = some name

/-- The first zero ends a name. -/
theorem takeWhile_append_zero {bytes rest : List UInt8} (hBytes : (0 : UInt8) ∉ bytes) :
    (bytes ++ 0 :: rest).takeWhile (· ≠ 0) = bytes := by
  rw [List.takeWhile_append_of_pos]
  · simp
  · intro b hIn
    refine decide_eq_true ?_
    rintro rfl
    exact hBytes hIn

/-- Bytes hold no zero, or they begin with bytes that hold none and a zero. -/
theorem takeWhile_cases (bytes : List UInt8) :
    bytes.takeWhile (· ≠ 0) = bytes ∨
      ∃ rest, bytes = bytes.takeWhile (· ≠ 0) ++ 0 :: rest := by
  induction bytes with
  | nil => exact .inl rfl
  | cons b bytes ih =>
      by_cases hZero : b = 0
      · exact .inr ⟨bytes, by simp [hZero]⟩
      · rw [List.takeWhile_cons_of_pos (by simpa using hZero)]
        obtain hAll | ⟨rest, hRest⟩ := ih
        · exact .inl (by rw [hAll])
        · exact .inr ⟨rest, congrArg (b :: ·) hRest⟩

theorem zero_not_mem_takeWhile (bytes : List UInt8) : (0 : UInt8) ∉ bytes.takeWhile (· ≠ 0) := by
  intro hIn
  have h := List.mem_takeWhile_imp hIn
  simp at h

/-- There is one name at a place. -/
theorem NameAt.unique {data : List UInt8} {position : Nat} {first second : String}
    (h : NameAt data position first) (hOther : NameAt data position second) : first = second := by
  obtain ⟨bytes, rest, hData, hBytes, hFirst⟩ := h
  obtain ⟨others, remaining, hSame, hOthers, hSecond⟩ := hOther
  have hTaken := congrArg (List.takeWhile (· ≠ 0)) (hData.symm.trans hSame)
  rw [takeWhile_append_zero hBytes, takeWhile_append_zero hOthers] at hTaken
  rw [hTaken] at hFirst
  exact Option.some.inj (hFirst.symm.trans hSecond)

namespace Cursor

variable {r next : Cursor}

/-- The cursor this many bytes further on. -/
def advance (r : Cursor) (count : Nat) : Cursor := { r with position := r.position + count }

@[simp]
theorem data_advance (count : Nat) : (r.advance count).data = r.data := rfl

@[simp]
theorem position_advance (count : Nat) : (r.advance count).position = r.position + count := rfl

@[simp]
theorem advance_advance (first second : Nat) :
    (r.advance first).advance second = r.advance (first + second) := by
  simp [advance, Nat.add_assoc]

/-- A word is read wherever four bytes are left, and from the bytes of its position alone. -/
theorem word_eq (r : Cursor) :
    r.word = if r.position + 4 ≤ r.data.length then .ok (wordAt r.data r.position, r.advance 4)
      else .error (.wordBeyondEnd r.position r.length) := by
  have hLength : r.rest.length = r.data.length - r.position := List.length_drop
  have hByte (i : Nat) : r.data.getD (r.position + i) 0 = r.rest.getD i 0 := by
    simp [rest, List.getD]
  rw [wordAt, show r.data.getD r.position 0 = _ from hByte 0, hByte, hByte, hByte, word]
  match h : r.rest with
  | a :: b :: c :: d :: more =>
    rw [h] at hLength
    rw [if_pos (by simp at hLength; omega)]
    rfl
  | [] | [_] | [_, _] | [_, _, _] =>
    rw [h] at hLength
    rw [if_neg (by simp at hLength; omega)]

/-- What a word is, said without running the cursor. -/
theorem word_eq_ok_iff {value : UInt32} :
    r.word = .ok (value, next) ↔
      r.position + 4 ≤ r.data.length ∧ value = wordAt r.data r.position ∧ next = r.advance 4 := by
  rw [word_eq]
  split
  · rename_i hInside
    simp [hInside, eq_comm]
  · rename_i hOutside
    simp [hOutside]

/-- Skipping succeeds as long as it does not lead behind the end. -/
theorem skip_eq_ok_iff {count : Nat} :
    r.skip count = .ok next ↔ r.position + count ≤ r.data.length ∧ next = r.advance count := by
  rw [skip, length]
  split
  · rename_i hInside
    simp [hInside, advance, eq_comm]
  · rename_i hOutside
    simp [hOutside]

/-- A string is read exactly where a name stands. -/
theorem string_eq_ok_iff {name : String} :
    (∃ next, r.string = .ok (name, next)) ↔ NameAt r.data r.position name := by
  rw [string]
  obtain hAll | ⟨rest, hZero⟩ := takeWhile_cases r.rest
  · rw [hAll, if_pos rfl]
    refine ⟨fun ⟨_, h⟩ => (nomatch h), fun ⟨bytes, more, hData, hBytes, _⟩ => ?_⟩
    -- Bytes that are all taken hold no zero.
    have hIn : (0 : UInt8) ∈ r.rest := by
      rw [Cursor.rest, hData]
      exact List.mem_append_right _ List.mem_cons_self
    rw [← hAll] at hIn
    exact absurd hIn (zero_not_mem_takeWhile _)
  · have hShort : ¬ (r.rest.takeWhile (· ≠ 0)).length = r.rest.length := by
      intro hSame
      have hLength := congrArg List.length hZero
      rw [← hSame, List.length_append, List.length_cons] at hLength
      omega
    rw [if_neg hShort]
    constructor
    · rintro ⟨next, h⟩
      split at h
      · cases h
      · rename_i text hText
        cases h
        exact ⟨_, rest, hZero, zero_not_mem_takeWhile _, hText⟩
    · rintro ⟨bytes, more, hData, hBytes, hText⟩
      have hTaken : r.rest.takeWhile (· ≠ 0) = bytes := by
        rw [Cursor.rest, hData, takeWhile_append_zero hBytes]
      rw [hTaken, hText]
      exact ⟨_, rfl⟩

/-- A name is read through a second cursor if it stands where that cursor is set. -/
theorem seek_string_iff {offset : Nat} {name : String} :
    (∃ names, r.seek offset = .ok names ∧ ∃ next, names.string = .ok (name, next)) ↔
      NameAt r.data offset name := by
  rw [seek]
  split
  · rename_i hBeyond
    refine ⟨fun ⟨_, h, _⟩ => (nomatch h), fun ⟨bytes, rest, hData, _, _⟩ => ?_⟩
    rw [List.drop_eq_nil_of_le (Nat.le_of_lt hBeyond)] at hData
    simp at hData
  · constructor
    · rintro ⟨names, h, hText⟩
      cases h
      exact string_eq_ok_iff.1 hText
    · intro hName
      exact ⟨_, rfl, string_eq_ok_iff.2 hName⟩

end Cursor

theorem reading_eq_ok_iff {α : Type} {result : Except ReadError α} {a : α} :
    reading result = .ok a ↔ result = .ok a := mapError_eq_ok_iff

end ShaderBackend.Signature
