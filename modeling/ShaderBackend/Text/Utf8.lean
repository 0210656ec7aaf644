/-!
Text read from bytes. A well-formed text is read as it stands. In any other, each maximal
piece that could still begin a character becomes one replacement character.
-/
namespace ShaderBackend.Text

/-- The character whose encoding begins the bytes, if there is one. -/
def leadingChar? (bytes : List UInt8) : Option Char :=
  (bytes.take 4).toByteArray.utf8DecodeChar? 0

/-- Whether `b` can follow the leading byte `a`. The narrower ranges keep out overlong forms,
surrogates and numbers above the last character. -/
def canFollow (a b : UInt8) : Bool :=
  if a < 0xc2 then false
  else if a < 0xe0 then 0x80 ≤ b && b ≤ 0xbf
  else if a = 0xe0 then 0xa0 ≤ b && b ≤ 0xbf
  else if a = 0xed then 0x80 ≤ b && b ≤ 0x9f
  else if a < 0xf0 then 0x80 ≤ b && b ≤ 0xbf
  else if a = 0xf0 then 0x90 ≤ b && b ≤ 0xbf
  else if a < 0xf4 then 0x80 ≤ b && b ≤ 0xbf
  else if a = 0xf4 then 0x80 ≤ b && b ≤ 0x8f
  else false

/-- Number of bytes in the maximal ill-formed piece at the front of bytes that begin with no
character. The fourth byte never belongs to it: with it the character would be complete. -/
def brokenLength : List UInt8 → Nat
  | a :: b :: c :: _ =>
    if canFollow a b && 0xe0 ≤ a then
      if 0xf0 ≤ a && 0x80 ≤ c && c ≤ 0xbf then 3 else 2
    else 1
  | [a, b] => if canFollow a b && 0xe0 ≤ a then 2 else 1
  | _ => 1

theorem brokenLength_pos (bytes : List UInt8) : 0 < brokenLength bytes := by
  unfold brokenLength
  repeat' split
  all_goals omega

/-- The characters of the bytes, ill-formed pieces replaced. -/
def decodeLossy (bytes : List UInt8) : List Char :=
  match bytes with
  | [] => []
  | first :: rest =>
    match leadingChar? (first :: rest) with
    | some c => c :: decodeLossy ((first :: rest).drop c.utf8Size)
    | none => '\uFFFD' :: decodeLossy ((first :: rest).drop (brokenLength (first :: rest)))
termination_by bytes.length
decreasing_by
  · have := Char.utf8Size_pos c
    simp only [List.length_drop, List.length_cons]
    omega
  · have := brokenLength_pos (first :: rest)
    simp only [List.length_drop, List.length_cons]
    omega

/-- Text of well-formed bytes, `none` if they are not well formed. -/
def decode? (bytes : List UInt8) : Option String :=
  String.fromUTF8? bytes.toByteArray

/-- The bytes of a text. -/
def utf8 (s : String) : List UInt8 := s.toUTF8.data.toList

end ShaderBackend.Text
