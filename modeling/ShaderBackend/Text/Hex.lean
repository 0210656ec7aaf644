/-! Hexadecimal numerals in lower case, and bytes written as two digits each. -/
namespace ShaderBackend.Text

/-- The digits of `n` in base sixteen, without leading zeros; zero is one digit. -/
def hex (n : Nat) : String := String.ofList (Nat.toDigits 16 n)

/-- The same digits, padded with zeros on the left to at least `width` characters. -/
def hexPadded (width n : Nat) : String :=
  String.ofList ((Nat.toDigits 16 n).leftpad width '0')

/-- Decimal digits, padded with zeros on the left to at least `width` characters. -/
def decimalPadded (width n : Nat) : String :=
  String.ofList ((Nat.toDigits 10 n).leftpad width '0')

/-- Value of one digit. -/
def hexDigit? (c : Char) : Option Nat :=
  if '0' ≤ c ∧ c ≤ '9' then some (c.toNat - '0'.toNat)
  else if 'a' ≤ c ∧ c ≤ 'f' then some (c.toNat - 'a'.toNat + 10)
  else none

/-- Two digits for each byte. -/
def hexOfBytes (bytes : List UInt8) : String :=
  String.join (bytes.map fun b => hexPadded 2 b.toNat)

/-- Bytes written as two digits each; `none` for an odd digit out or any other character. -/
def bytesOfHex? : List Char → Option (List UInt8)
  | [] => some []
  | [_] => none
  | high :: low :: rest => do
    let h ← hexDigit? high
    let l ← hexDigit? low
    return UInt8.ofNat (h * 16 + l) :: (← bytesOfHex? rest)

end ShaderBackend.Text
