/-!
# Addresses

IPv4 and IPv6 addresses and endpoints as text. Reading is strict: the parts of an IPv4 address have
no leading zeros, and an IPv6 address has no zone. IPv6 addresses are written with lower-case digits
and the longest run of zeros left out.
-/

namespace Headend.Net

inductive Ip where
  | v4 (a b c d : Nat)
  /-- Eight groups of 16 bits. -/
  | v6 (groups : List Nat)
  deriving Repr, DecidableEq

/-! ## Reading -/

abbrev Reader (α : Type) := List Char → Option (α × List Char)

def digitValue (radix : Nat) (c : Char) : Option Nat :=
  let v :=
    if '0' ≤ c && c ≤ '9' then c.toNat - 48
    else if 'a' ≤ c && c ≤ 'f' then c.toNat - 87
    else if 'A' ≤ c && c ≤ 'F' then c.toNat - 55
    else radix
  if v < radix then some v else none

/-- A number below `bound` of at most `most` digits. -/
def number (radix : Nat) (most : Option Nat) (leadingZeros : Bool) (bound : Nat) : Reader Nat :=
  fun cs =>
    let digits := (cs.takeWhile fun c => (digitValue radix c).isSome).filterMap (digitValue radix)
    let value := digits.foldl (fun n d => n * radix + d) 0
    if digits.isEmpty || most.any (· < digits.length) || bound ≤ value then none
    else if !leadingZeros && digits.length > 1 && digits.head? == some 0 then none
    else some (value, cs.drop digits.length)

def expect (c : Char) : Reader Unit
  | d :: cs => if c = d then some ((), cs) else none
  | [] => none

def octet : Reader Nat := number 10 (some 3) false 256

def readV4 : Reader (Nat × Nat × Nat × Nat) := fun cs => do
  let (a, cs) ← octet cs
  let ((), cs) ← expect '.' cs
  let (b, cs) ← octet cs
  let ((), cs) ← expect '.' cs
  let (c, cs) ← octet cs
  let ((), cs) ← expect '.' cs
  let (d, cs) ← octet cs
  return ((a, b, c, d), cs)

/-- Skip the colon that stands before every group but the first. -/
def separated {α : Type} (first : Bool) (read : Reader α) : Reader α := fun cs =>
  if first then read cs else (expect ':' cs).bind fun ((), cs) => read cs

/-- As many groups as there are, at most `left`. An IPv4 address may stand for the last two. -/
def readGroups : (left : Nat) → (first : Bool) → List Char → List Nat × Bool × List Char
  | 0, _, cs => ([], false, cs)
  | left + 1, first, cs =>
    match if left = 0 then none else separated first readV4 cs with
    | some ((a, b, c, d), rest) => ([a * 256 + b, c * 256 + d], true, rest)
    | none =>
      match separated first (number 16 (some 4) true 65536) cs with
      | none => ([], false, cs)
      | some (g, rest) =>
        let (gs, embedded, rest) := readGroups left false rest
        (g :: gs, embedded, rest)

def readV6 : Reader (List Nat) := fun cs =>
  let (head, embedded, cs) := readGroups 8 true cs
  if head.length = 8 then some (head, cs)
  else if embedded then none
  else do
    let ((), cs) ← expect ':' cs
    let ((), cs) ← expect ':' cs
    let (tail, _, cs) := readGroups (7 - head.length) true cs
    return (head ++ List.replicate (8 - head.length - tail.length) 0 ++ tail, cs)

def readIp : Reader Ip := fun cs =>
  match readV4 cs with
  | some ((a, b, c, d), rest) => some (.v4 a b c d, rest)
  | none => (readV6 cs).map fun (groups, rest) => (.v6 groups, rest)

/-- What the reader makes of the whole text. -/
def whole {α : Type} (read : Reader α) (s : String) : Option α :=
  match read s.toList with
  | some (a, []) => some a
  | _ => none

def Ip.parse (s : String) : Option Ip := whole readIp s

/-- What is wrong with a text that is no address. -/
def syntaxError : String := "invalid IP address syntax"

/-! ## Writing -/

/-- Start and length of the longest run of zeros; the first of several. -/
def longestZeros : (i : Nat) → List Nat → (run best : Nat × Nat) → Nat × Nat
  | _, [], _, best => best
  | i, g :: gs, run, best =>
    if g = 0 then
      let run := if run.2 = 0 then (i, 1) else (run.1, run.2 + 1)
      longestZeros (i + 1) gs run (if best.2 < run.2 then run else best)
    else longestZeros (i + 1) gs (0, 0) best

def hexGroup (n : Nat) : String := String.ofList (Nat.toDigits 16 n)

def hexGroups (gs : List Nat) : String := ":".intercalate (gs.map hexGroup)

def dotted (a b c d : Nat) : String := s!"{a}.{b}.{c}.{d}"

def Ip.toString : Ip → String
  | v4 a b c d => dotted a b c d
  | v6 [0, 0, 0, 0, 0, 0xffff, x, y] =>
    "::ffff:" ++ dotted (x / 256) (x % 256) (y / 256) (y % 256)
  | v6 gs =>
    let (start, length) := longestZeros 0 gs (0, 0) (0, 0)
    if length ≤ 1 then hexGroups gs
    else hexGroups (gs.take start) ++ "::" ++ hexGroups (gs.drop (start + length))

def Ip.isV6 : Ip → Bool
  | v6 _ => true
  | v4 .. => false

/-- 169.254/16 and fe80::/10. -/
def Ip.isLinkLocal : Ip → Bool
  | v4 a b _ _ => a == 169 && b == 254
  | v6 gs => gs.head?.any fun g => g / 64 == 0xfe80 / 64

/-! ## Endpoints -/

structure Endpoint where
  ip : Ip
  port : Nat
  deriving Repr, DecidableEq

namespace Endpoint

def toString (e : Endpoint) : String :=
  if e.ip.isV6 then s!"[{e.ip.toString}]:{e.port}" else s!"{e.ip.toString}:{e.port}"

def readPort : Reader Nat := fun cs =>
  (expect ':' cs).bind fun ((), cs) => number 10 none true 65536 cs

/-- A zone after an IPv6 address, which is not kept. -/
def skipZone (cs : List Char) : Option (List Char) :=
  match cs with
  | '%' :: rest => (number 10 none true UInt32.size rest).map Prod.snd
  | _ => some cs

def read : Reader Endpoint := fun cs =>
  match readV4 cs with
  | some ((a, b, c, d), rest) => do
    let (port, rest) ← readPort rest
    return (⟨.v4 a b c d, port⟩, rest)
  | none => do
    let ((), cs) ← expect '[' cs
    let (groups, cs) ← readV6 cs
    let cs ← skipZone cs
    let ((), cs) ← expect ']' cs
    let (port, cs) ← readPort cs
    return (⟨.v6 groups, port⟩, cs)

def parse (s : String) : Option Endpoint := whole read s

end Endpoint

end Headend.Net
