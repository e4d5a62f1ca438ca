/-!
# Writing JSON

Objects whose fields keep their order. Control characters, quotes and backslashes are escaped; all
else stays as it is.
-/

namespace Headend.Json

def hexDigit (n : Nat) : Char := (Nat.toDigits 16 n).headD '0'

def escape (c : Char) : List Char :=
  match c with
  | '"' => ['\\', '"']
  | '\\' => ['\\', '\\']
  | '\n' => ['\\', 'n']
  | '\r' => ['\\', 'r']
  | '\t' => ['\\', 't']
  | '\x08' => ['\\', 'b']
  | '\x0c' => ['\\', 'f']
  | c =>
    if c.toNat < 0x20 then ['\\', 'u', '0', '0', hexDigit (c.toNat / 16), hexDigit (c.toNat % 16)]
    else [c]

/-- A text as a value. -/
def quoted (s : String) : String := String.ofList (['"'] ++ s.toList.flatMap escape ++ ['"'])

/-- An object of fields whose values are written already. -/
def object (fields : List (String × String)) : String :=
  "\x7b" ++ ",".intercalate (fields.map fun f => quoted f.1 ++ ":" ++ f.2) ++ "\x7d"

end Headend.Json
