import Mathlib.Data.List.Induction
import ShaderBackend.Proofs.Encoding
import ShaderBackend.Proofs.Signature.Reading
import ShaderBackend.Signature.Readers

/-! What a stack of cursors answers, said of the bytes under the topmost one. Whatever is asked and in
whatever order, no cursor passes the end, and so no check of a sum or a range fails. -/
namespace ShaderBackend.Signature

/-- Most bytes that data in memory has: its length is a signed number of 64 bits. -/
def mostBytes : Nat := 2 ^ 63 - 1

namespace Readers

/-- The topmost cursor moves forward, and those below it stay. -/
def advance (s : Readers) (count : Nat) : Readers := s.replaceTop (s.top.advance count)

/-- What is answered, and the stack after it. A failure leaves the whole stack as it was. -/
inductive Acts (s : Readers) : Request → Reply → Readers → Prop where
  | word {a b c d : UInt8} {later : List UInt8} (h : s.top.rest = a :: b :: c :: d :: later) :
      Acts s .word (.word (Spirv.wordOfBytes a b c d)) (s.advance 4)
  | wordBeyondEnd (h : s.top.data.length < s.top.position + 4) :
      Acts s .word (.failed (.wordBeyondEnd s.top.position s.top.length)) s
  | skip {count : Nat} (h : s.top.position + count ≤ s.top.data.length) :
      Acts s (.skip count) .done (s.advance count)
  | skipBeyondEnd {count : Nat} (h : s.top.data.length < s.top.position + count) :
      Acts s (.skip count) (.failed (.skipBeyondEnd count s.top.position s.top.length)) s
  /-- The bytes of the text are those up to the first zero byte. -/
  | string {text : String} {later : List UInt8} (h : s.top.rest = Text.utf8 text ++ 0 :: later)
      (hZero : (0 : UInt8) ∉ Text.utf8 text) :
      Acts s .string (.text text) (s.advance ((Text.utf8 text).length + 1))
  | unterminatedString (h : (0 : UInt8) ∉ s.top.rest) :
      Acts s .string (.failed (.unterminatedString s.top.position)) s
  | malformedString {bytes later : List UInt8} (h : s.top.rest = bytes ++ 0 :: later)
      (hZero : (0 : UInt8) ∉ bytes) (hText : ∀ text, Text.utf8 text ≠ bytes) :
      Acts s .string (.failed (.malformedString s.top.position)) s
  | seek {offset : Nat} (h : offset ≤ s.top.data.length) :
      Acts s (.seek offset) .done (s.push { s.top with position := offset })
  | seekBeyondEnd {offset : Nat} (h : s.top.data.length < offset) :
      Acts s (.seek offset) (.failed (.offsetBeyondEnd offset s.top.length)) s
  | pop {top : Cursor} {below : List Cursor} (h : s.below = top :: below) :
      Acts s .pop .done { top, below }
  | popLast (h : s.below = []) : Acts s .pop .done s

end Readers

namespace Cursor

variable {r : Cursor}

theorem exists_word (h : r.position + 4 ≤ r.data.length) :
    ∃ a b c d later, r.rest = a :: b :: c :: d :: later := by
  have hLength : r.rest.length = r.data.length - r.position := List.length_drop
  match hRest : r.rest with
  | a :: b :: c :: d :: later => exact ⟨a, b, c, d, later, rfl⟩
  | [] | [_] | [_, _] | [_, _, _] =>
    rw [hRest] at hLength
    simp only [List.length_cons, List.length_nil] at hLength
    omega

/-- Four bytes ahead are read as a word, with the first byte lowest. -/
theorem word_of_rest {a b c d : UInt8} {later : List UInt8} (h : r.rest = a :: b :: c :: d :: later) :
    r.word = .ok (Spirv.wordOfBytes a b c d, r.advance 4) := by
  simp only [word, h]
  rfl

/-- With less than four bytes ahead there is no word, and the error names the position at which it
was looked for. -/
theorem word_of_lt (h : r.data.length < r.position + 4) :
    r.word = .error (.wordBeyondEnd r.position r.length) := by
  rw [word_eq, if_neg (by omega)]

/-- A string ends in front of the first zero, and its bytes have to be text. -/
theorem string_of_rest {bytes later : List UInt8} (h : r.rest = bytes ++ 0 :: later)
    (hZero : (0 : UInt8) ∉ bytes) :
    r.string = match Text.decode? bytes with
      | none => .error (.malformedString r.position)
      | some text => .ok (text, r.advance (bytes.length + 1)) := by
  have hShort : bytes.length ≠ r.rest.length := by
    rw [h, List.length_append, List.length_cons]
    omega
  simp only [string, h, takeWhile_append_zero hZero, advance]
  rw [if_neg (by rw [← h]; exact hShort)]
  cases Text.decode? bytes <;> rfl

/-- Without a zero up to the end of the bytes there is no string. -/
theorem string_of_no_zero (h : (0 : UInt8) ∉ r.rest) :
    r.string = .error (.unterminatedString r.position) := by
  obtain hAll | ⟨later, hLater⟩ := takeWhile_cases r.rest
  · rw [string]
    simp only [hAll, if_true]
  · exact absurd (hLater ▸ List.mem_append_right _ List.mem_cons_self) h

/-- What is read ends inside the bytes. -/
theorem position_add_le (hInside : r.position ≤ r.data.length) {front later : List UInt8}
    (h : r.rest = front ++ later) : r.position + front.length ≤ r.data.length := by
  have hLength : r.rest.length = r.data.length - r.position := List.length_drop
  rw [h, List.length_append] at hLength
  omega

section Checked

/-- There is room for a word behind all data. -/
theorem sum64?_eq {a b : Nat} (h : a + b ≤ mostBytes + 4) : sum64? a b = some (a + b) :=
  if_pos (Nat.lt_of_le_of_lt h (by decide))

/-- Two positions in order cut out the bytes between them. -/
theorem slice?_eq {bytes : List UInt8} {start stop : Nat} (hOrder : start ≤ stop)
    (hInside : stop ≤ bytes.length) :
    slice? bytes start stop = some ((bytes.drop start).take (stop - start)) :=
  if_pos ⟨hOrder, hInside⟩

theorem slice?_eq_none {bytes : List UInt8} {start stop : Nat} (h : bytes.length < stop) :
    slice? bytes start stop = none := if_neg (by omega)

/-- The bytes in front of others are what is cut off at their length. -/
theorem slice?_append (bytes later : List UInt8) :
    slice? (bytes ++ later) 0 bytes.length = some bytes := by
  rw [slice?_eq (Nat.zero_le _) (by rw [List.length_append]; omega), List.drop_zero, Nat.sub_zero,
    List.take_left]

theorem findIdx?_eq_none {bytes : List UInt8} (hZero : (0 : UInt8) ∉ bytes) :
    bytes.findIdx? (· = 0) = none := by
  rw [List.findIdx?_eq_none_iff]
  intro b hIn
  exact decide_eq_false fun h => hZero (h ▸ hIn)

/-- The first zero stands behind the bytes that are not zero. -/
theorem findIdx?_append_zero {bytes later : List UInt8} (hZero : (0 : UInt8) ∉ bytes) :
    (bytes ++ 0 :: later).findIdx? (· = 0) = some bytes.length := by
  rw [List.findIdx?_append, findIdx?_eq_none hZero, List.findIdx?_cons]
  simp

variable (hInside : r.position ≤ r.data.length) (hFits : r.data.length ≤ mostBytes)
include hInside hFits

/-- No sum that a word needs leaves its bits, so the checked read answers as the plain one does. -/
theorem word?_eq : r.word? = some r.word := by
  have hSum : sum64? r.position 4 = some (r.position + 4) := sum64?_eq (by omega)
  by_cases hEnd : r.position + 4 ≤ r.data.length
  · obtain ⟨a, b, c, d, later, hRest⟩ := exists_word hEnd
    have hSlice : slice? r.data r.position (r.position + 4) = some [a, b, c, d] := by
      rw [slice?_eq (Nat.le_add_right _ _) hEnd, Nat.add_sub_cancel_left, ← rest, hRest]
      rfl
    rw [word_of_rest hRest]
    simp only [word?, hSum, hSlice]
    rfl
  · rw [word_of_lt (by omega)]
    simp only [word?, hSum, slice?_eq_none (show r.data.length < r.position + 4 by omega)]

omit hInside in
/-- A count is compared with what is left before it is added, so no count is too large. -/
theorem skip?_eq (count : Nat) : r.skip? count = some (r.skip count) := by
  rw [skip?, skip, length]
  by_cases hEnd : r.position + count ≤ r.data.length
  · rw [sum64?_eq (by omega), if_pos hEnd, Option.filter_some, if_pos (by simpa using hEnd)]
  · have hNone : (sum64? r.position count).filter (· ≤ r.data.length) = none := by
      rw [sum64?]
      split
      · rw [Option.filter_some, if_neg (by simpa using hEnd)]
      · rfl
    rw [hNone, if_neg hEnd]

/-- A string that is found ends inside the bytes, so no slice of it fails. -/
theorem string?_eq : r.string? = some r.string := by
  have hTail : slice? r.data (min r.position r.length) r.length = some r.rest := by
    rw [length, Nat.min_eq_left hInside, slice?_eq hInside (Nat.le_refl _), rest,
      List.take_of_length_le (by rw [List.length_drop])]
  rw [string?, hTail, Option.bind_eq_bind, Option.bind_some]
  by_cases hZero : (0 : UInt8) ∈ r.rest
  · obtain ⟨bytes, later, hRest, hNone⟩ := List.eq_append_cons_of_mem hZero
    have hEnd := position_add_le hInside (hRest.trans (List.append_cons bytes 0 later))
    rw [List.length_append, List.length_singleton] at hEnd
    have hLength : sum64? bytes.length 1 = some (bytes.length + 1) := sum64?_eq (by omega)
    have hStop : sum64? r.position (bytes.length + 1) = some (r.position + (bytes.length + 1)) :=
      sum64?_eq (by omega)
    rw [string_of_rest hRest hNone]
    simp only [hRest, findIdx?_append_zero hNone, slice?_append, hLength, hStop,
      Option.bind_eq_bind, Option.bind_some]
    cases Text.decode? bytes <;> rfl
  · have hIndex : r.rest.findIdx? (· = 0) = none := findIdx?_eq_none hZero
    rw [string_of_no_zero hZero, hIndex]
    rfl

end Checked

end Cursor

namespace Readers

variable {s next : Readers} {data : List UInt8}

section Acting

variable {request : Request} {reply : Reply}

/-- The relation describes what the cursors do. -/
theorem ask_of_acts (h : s.Acts request reply next) : s.ask request = (reply, next) := by
  cases h with
  | word h => rw [ask, Cursor.word_of_rest h]; rfl
  | wordBeyondEnd h => rw [ask, Cursor.word_of_lt h]; rfl
  | skip h => rw [ask, Cursor.skip, Cursor.length, if_pos h]; rfl
  | skipBeyondEnd h => rw [ask, Cursor.skip, Cursor.length, if_neg (by omega)]; rfl
  | string h hZero =>
      rw [ask, Cursor.string_of_rest h hZero, Text.decode?_utf8]
      rfl
  | unterminatedString h => rw [ask, Cursor.string_of_no_zero h]; rfl
  | malformedString h hZero hText =>
      rw [ask, Cursor.string_of_rest h hZero,
        Option.eq_none_iff_forall_ne_some.2 fun text hSome =>
          hText text (Text.decode?_eq_some_iff.1 hSome)]
      rfl
  | seek h => rw [ask, Cursor.seek, Cursor.length, if_neg (by omega)]; rfl
  | seekBeyondEnd h => rw [ask, Cursor.seek, Cursor.length, if_pos h]; rfl
  | pop h => simp only [ask, Readers.pop, h]
  | popLast h => simp only [ask, Readers.pop, h]

/-- There is an answer to everything. -/
theorem exists_acts (s : Readers) (request : Request) :
    ∃ reply next, s.Acts request reply next := by
  cases request with
  | word =>
      rcases Nat.lt_or_ge s.top.data.length (s.top.position + 4) with hBeyond | hEnd
      · exact ⟨_, _, .wordBeyondEnd hBeyond⟩
      · obtain ⟨a, b, c, d, later, hRest⟩ := Cursor.exists_word hEnd
        exact ⟨_, _, .word hRest⟩
  | skip count =>
      rcases Nat.lt_or_ge s.top.data.length (s.top.position + count) with hBeyond | hEnd
      · exact ⟨_, _, .skipBeyondEnd hBeyond⟩
      · exact ⟨_, _, .skip hEnd⟩
  | string =>
      by_cases hZero : (0 : UInt8) ∈ s.top.rest
      · obtain ⟨bytes, later, hRest, hNone⟩ := List.eq_append_cons_of_mem hZero
        cases hText : Text.decode? bytes with
        | some text =>
            rw [← Text.decode?_eq_some_iff.1 hText] at hRest hNone
            exact ⟨_, _, .string hRest hNone⟩
        | none =>
            refine ⟨_, _, .malformedString hRest hNone fun text hSame => ?_⟩
            rw [Text.decode?_eq_some_iff.2 hSame] at hText
            cases hText
      · exact ⟨_, _, .unterminatedString hZero⟩
  | seek offset =>
      rcases Nat.lt_or_ge s.top.data.length offset with hBeyond | hEnd
      · exact ⟨_, _, .seekBeyondEnd hBeyond⟩
      · exact ⟨_, _, .seek hEnd⟩
  | pop =>
      cases hBelow : s.below with
      | nil => exact ⟨_, _, .popLast hBelow⟩
      | cons top below => exact ⟨_, _, .pop hBelow⟩

/-- It says no less and no more than the function. -/
theorem ask_eq_iff : s.ask request = (reply, next) ↔ s.Acts request reply next := by
  refine ⟨fun h => ?_, ask_of_acts⟩
  obtain ⟨_, _, hActs⟩ := s.exists_acts request
  cases h.symm.trans (ask_of_acts hActs)
  exact hActs

end Acting

section Runs

variable {request : Request} {reply : Reply}

/-- All cursors stand over the same bytes, none of them past the end. -/
def Inside (data : List UInt8) (s : Readers) : Prop :=
  ∀ r ∈ s.all, r.data = data ∧ r.position ≤ data.length

theorem inside_start (data : List UInt8) : (start data).Inside data := by
  intro r hIn
  rw [List.mem_singleton.1 hIn]
  exact ⟨rfl, Nat.zero_le _⟩

/-- The topmost cursor has not left its bytes. -/
theorem Inside.position_le (h : s.Inside data) : s.top.position ≤ s.top.data.length := by
  obtain ⟨hData, hPosition⟩ := h s.top List.mem_cons_self
  exact hData ▸ hPosition

/-- A cursor inside the same bytes may take the place of the topmost one. -/
theorem Inside.replaceTop {top : Cursor} (h : s.Inside data) (hData : top.data = data)
    (hTop : top.position ≤ data.length) : (s.replaceTop top).Inside data :=
  List.forall_mem_cons.2 ⟨⟨hData, hTop⟩, (List.forall_mem_cons.1 h).2⟩

/-- A step that ends inside the bytes keeps all cursors inside. -/
theorem Inside.advance {count : Nat} (h : s.Inside data)
    (hEnd : s.top.position + count ≤ s.top.data.length) : (s.advance count).Inside data := by
  have hData := (h s.top List.mem_cons_self).1
  exact h.replaceTop hData (hData ▸ hEnd)

/-- One request keeps all cursors inside. -/
theorem Acts.inside (hActs : s.Acts request reply next) (h : s.Inside data) : next.Inside data := by
  cases hActs with
  | word hRest =>
      have hFront : s.top.rest = [_, _, _, _] ++ _ := hRest
      exact h.advance (Cursor.position_add_le h.position_le hFront)
  | skip hEnd => exact h.advance hEnd
  | string hRest =>
      have hEnd := Cursor.position_add_le h.position_le (hRest.trans (List.append_cons _ 0 _))
      rw [List.length_append] at hEnd
      exact h.advance hEnd
  | seek hEnd =>
      have hData := (h s.top List.mem_cons_self).1
      exact List.forall_mem_cons.2 ⟨⟨hData, hData ▸ hEnd⟩, h⟩
  | pop hBelow =>
      have hRest := (List.forall_mem_cons.1 h).2
      rw [hBelow] at hRest
      exact hRest
  | wordBeyondEnd | skipBeyondEnd | unterminatedString | malformedString | seekBeyondEnd | popLast =>
      exact h

/-- On cursors inside bytes that can exist, no check of any request fails. -/
theorem ask?_eq (h : s.Inside data) (hFits : data.length ≤ mostBytes) (request : Request) :
    s.ask? request = some (s.ask request) := by
  have hFits : s.top.data.length ≤ mostBytes := (h s.top List.mem_cons_self).1 ▸ hFits
  cases request with
  | word => rw [ask?, Cursor.word?_eq h.position_le hFits]; rfl
  | skip count => rw [ask?, Cursor.skip?_eq hFits]; rfl
  | string => rw [ask?, Cursor.string?_eq h.position_le hFits]; rfl
  | seek | pop => rfl

/-- The stack after some requests. -/
def after (data : List UInt8) (requests : List Request) : Readers :=
  requests.foldl (fun s request => (s.ask request).2) (start data)

def after? (data : List UInt8) (requests : List Request) : Option Readers :=
  requests.foldlM (fun s request => (s.ask? request).map (·.2)) (start data)

theorem after_concat (data : List UInt8) (requests : List Request) (request : Request) :
    after data (requests ++ [request]) = ((after data requests).ask request).2 := by
  rw [after, List.foldl_append]
  rfl

/-- All cursors stay inside, whatever is asked. -/
theorem inside_after (data : List UInt8) (requests : List Request) :
    (after data requests).Inside data := by
  induction requests using List.reverseRecOn with
  | nil => exact inside_start data
  | append_singleton requests request ih =>
      rw [after_concat]
      exact (ask_eq_iff.1 rfl : Acts _ request _ _).inside ih

/-- No check fails in a whole run of requests. -/
theorem after?_eq (hFits : data.length ≤ mostBytes) (requests : List Request) :
    after? data requests = some (after data requests) := by
  induction requests using List.reverseRecOn with
  | nil => rfl
  | append_singleton requests request ih =>
      rw [after?, List.foldlM_append, ← after?, ih, Option.bind_eq_bind, Option.bind_some,
        List.foldlM_cons, ask?_eq (inside_after data requests) hFits, after_concat]
      rfl

end Runs

/-- Whatever has been asked, no cursor has left the bytes, and what is asked next is answered as
`Acts` says and in no other way: what succeeds moves the topmost cursor over what it read and no
other one, and what fails changes nothing. On all data that fits into memory no check of a sum or a
range fails. -/
theorem readers_exact (data : List UInt8) (requests : List Request) (request : Request) :
    (∀ r ∈ (after data requests).all, r.data = data ∧ r.position ≤ data.length) ∧
    (∀ reply next, (after data requests).ask request = (reply, next) ↔
      (after data requests).Acts request reply next) ∧
    (data.length ≤ mostBytes →
      after? data requests = some (after data requests) ∧
      (after data requests).ask? request = some ((after data requests).ask request)) := by
  have hInside := inside_after data requests
  exact ⟨hInside, fun _ _ => ask_eq_iff, fun hFits =>
    ⟨after?_eq hFits requests, ask?_eq hInside hFits request⟩⟩

/-- An offset, the name that stands there, and a byte that is no text. -/
def nameBehindWord : List UInt8 := [4, 0, 0, 0, 97, 98, 0, 255, 0, 7]

/-- A word, a string behind it, a skip that is far too long, and requests that find nothing any
more. -/
theorem readers_exact_nameBehindWord :
    nameBehindWord.length ≤ mostBytes ∧
      (after? nameBehindWord [.word, .seek 4, .string, .skip (2 ^ 64 - 1), .string, .word]).map
        (fun s => s.all.map (·.position)) = some [7, 4] := by
  have hFits : nameBehindWord.length ≤ mostBytes := by decide
  obtain ⟨-, -, hChecked⟩ := readers_exact nameBehindWord
    [.word, .seek 4, .string, .skip (2 ^ 64 - 1), .string, .word] .pop
  refine ⟨hFits, ?_⟩
  rw [(hChecked hFits).1]
  decide

end Readers
end ShaderBackend.Signature
