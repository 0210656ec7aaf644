import ShaderBackend.Text.Hex
import ShaderBackend.Text.Unseen
/-!
Quoted text: a text between double quotes in which quotes, backslashes and everything that
cannot be seen on its own is written as an escape.
-/
namespace ShaderBackend.Text

/-- One character inside quotes. -/
def escapeChar (c : Char) : List Char :=
  match c with
  | '\x00' => ['\\', '0']
  | '\t' => ['\\', 't']
  | '\r' => ['\\', 'r']
  | '\n' => ['\\', 'n']
  | '"' => ['\\', '"']
  | '\\' => ['\\', '\\']
  | c =>
    if c.toNat < 0x20 || c.toNat = 0x7f || (0x80 ≤ c.toNat && isUnseen c) then
      ['\\', 'u', '\x7b'] ++ (hex c.toNat).toList ++ ['\x7d']
    else [c]

/-- The text in double quotes, each character escaped on its own. -/
def quoted (s : String) : String :=
  String.ofList ('"' :: s.toList.flatMap escapeChar ++ ['"'])

end ShaderBackend.Text
