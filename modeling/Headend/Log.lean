import Headend.Text.Json
import Headend.Text.Split

/-!
# The log

A line of the log has a level and a target, which says what part of the server it comes from.
-/

namespace Headend.Log

/-- From the most to the least important. -/
inductive Level where
  | error
  | warn
  | info
  | debug
  | trace
  deriving Repr, DecidableEq

namespace Level

def rank : Level → Nat
  | error => 1
  | warn => 2
  | info => 3
  | debug => 4
  | trace => 5

def name : Level → String
  | error => "ERROR"
  | warn => "WARN"
  | info => "INFO"
  | debug => "DEBUG"
  | trace => "TRACE"

end Level

structure Line where
  level : Level
  target : String
  message : String
  deriving Repr, DecidableEq

/-! ## Written lines -/

/-- A character of a message, where what could drive a terminal is made visible. -/
def shown (c : Char) : List Char :=
  if c.toNat ∈ [0x07, 0x08, 0x0c, 0x1b, 0x7f] then
    ['\\', 'x'] ++ (Nat.toDigits 16 (256 + c.toNat)).tail
  else if 0x80 ≤ c.toNat && c.toNat ≤ 0x9f then
    ['\\', 'u', '\x7b'] ++ Nat.toDigits 16 c.toNat ++ ['\x7d']
  else [c]

/-- What is printed: a line of the log, or text that is no part of one. -/
inductive Printed where
  | line (l : Line)
  | text (s : String)
  deriving Repr, DecidableEq

/-- Text without the carriage return at its end. -/
def withoutReturn (s : String) : String :=
  if s.endsWith "\r" then String.ofList s.toList.dropLast else s

/-- A line for people. What follows a line break in its message is on lines of its own. -/
def Line.printed (l : Line) : List Printed :=
  match splitParts '\n' (String.ofList (l.message.toList.flatMap shown)) with
  | [] => []
  | [message] => [.line { l with message := message }]
  | first :: rest =>
    .line { l with message := withoutReturn first } :: rest.dropLast.map (.text ∘ withoutReturn)
      ++ [.text (rest.getLastD "")]

/-- A line as an object of JSON. -/
def Line.json (l : Line) : String :=
  Json.object [("level", Json.quoted l.level.name),
    ("fields", Json.object [("message", Json.quoted l.message)]), ("target", Json.quoted l.target)]

end Headend.Log
