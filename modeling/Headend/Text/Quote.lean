import Headend.Text.Hidden

/-!
# Quoting text for messages

`quote` puts a text between double quotes so that nothing in it is invisible: quotes, backslashes
and the usual controls get a backslash, and all that has no glyph of its own is written as its
number.
-/

namespace Headend.Quote

def isHidden (c : Char) : Bool := hidden.any fun (lo, hi) => lo ≤ c.toNat && c.toNat ≤ hi

def hexDigits (n : Nat) : List Char := Nat.toDigits 16 n

def char (c : Char) : List Char :=
  match c with
  | '\x00' => ['\\', '0']
  | '\t' => ['\\', 't']
  | '\r' => ['\\', 'r']
  | '\n' => ['\\', 'n']
  | '"' => ['\\', '"']
  | '\\' => ['\\', '\\']
  | c => if isHidden c then ['\\', 'u', '\x7b'] ++ hexDigits c.toNat ++ ['\x7d'] else [c]

def text (s : String) : String :=
  String.ofList (['"'] ++ s.toList.flatMap char ++ ['"'])

/-- A list of quoted texts. -/
def texts (ss : List String) : String := "[" ++ ", ".intercalate (ss.map text) ++ "]"

end Headend.Quote
