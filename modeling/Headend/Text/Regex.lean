import Headend.Text.Alphanumeric

/-!
# Regular expressions

Which texts are regular expressions. Anchors, groups, flags, sets and repetitions are known; looking
around and word boundaries are not, and neither are repetitions with a count.
-/

namespace Headend.Regex

/-- Characters that a backslash makes literal wherever they stand. -/
def isMeta (c : Char) : Bool := "\\.+*?()|[]\x7b\x7d^$#&-~".contains c

/-! ## Escapes -/

/-- What a backslash and what follows it stand for. -/
inductive Escape where
  | literal (c : Char)
  | set
  | anchor
  deriving Repr, DecidableEq

def hexDigit? (c : Char) : Option Nat :=
  if '0' ≤ c && c ≤ '9' then some (c.toNat - 48)
  else if 'a' ≤ c.toLower && c.toLower ≤ 'f' then some (c.toLower.toNat - 87)
  else none

/-- A character by its number, in a fixed count of digits. -/
def numbered (width : Nat) (cs : List Char) : Option (Escape × List Char) := do
  let digits ← (cs.take width).mapM hexDigit?
  let n := digits.foldl (fun n d => 16 * n + d) 0
  if digits.length = width && n.isValidChar then some (.literal (Char.ofNat n), cs.drop width)
  else none

def escape : List Char → Option (Escape × List Char)
  | [] => none
  | 'x' :: cs => numbered 2 cs
  | 'u' :: cs => numbered 4 cs
  | 'U' :: cs => numbered 8 cs
  | 'p' :: c :: cs | 'P' :: c :: cs =>
    if "clmnpsz".contains c.toLower then some (.set, cs) else none
  | c :: cs =>
    if "dDsSwW".contains c then some (.set, cs)
    else if c == 'A' || c == 'z' then some (.anchor, cs)
    else if isMeta c || "aftnrv".contains c then some (.literal c, cs)
    else if c.toNat < 0x80 && !c.isAlphanum && c != '<' && c != '>' then some (.literal c, cs)
    else none

/-! ## Sets -/

/-- Names of the sets of ASCII characters. -/
def asciiSets : List String :=
  ["alnum", "alpha", "ascii", "blank", "cntrl", "digit", "graph", "lower", "print", "punct",
   "space", "upper", "word", "xdigit"]

/-- What follows a named set of ASCII characters, of which the bracket has been read. -/
def afterAsciiSet? (cs : List Char) : Option (List Char) :=
  match cs with
  | ':' :: cs =>
    let cs := if cs.head? = some '^' then cs.tail else cs
    match cs.span (· != ':') with
    | (name, ':' :: ']' :: cs) =>
      if asciiSets.contains (String.ofList name) then some cs else none
    | _ => none
  | _ => none

/-- What follows the opening of a set, in which a bracket or dashes in front are literal. -/
def afterOpening (cs : List Char) : List Char :=
  let cs := if cs.head? = some '^' then cs.tail else cs
  match cs with
  | ']' :: cs => cs
  | cs => cs.dropWhile (· == '-')

/-- A member of a set, or an end of a range in it. -/
def item : List Char → Option (Escape × List Char)
  | [] => none
  | '\\' :: cs => (escape cs).filter fun e => e.1 != .anchor
  | c :: cs => some (.literal c, cs)

/-- What follows a member of a set or a range. -/
def afterItem? (cs : List Char) : Option (List Char) := do
  let (first, rest) ← item cs
  match rest with
  | '-' :: ']' :: _ | '-' :: '-' :: _ => some rest
  | '-' :: rest =>
    let (last, rest) ← item rest
    match first, last with
    | .literal lo, .literal hi => if lo ≤ hi then some rest else none
    | _, _ => none
  | _ => some rest

/-- What follows the sets that are open. -/
def afterSets? : (fuel depth : Nat) → List Char → Option (List Char)
  | _, 0, cs => some cs
  | 0, _, _ | _, _, [] => none
  | fuel + 1, depth + 1, '[' :: cs =>
    match afterAsciiSet? cs with
    | some cs => afterSets? fuel (depth + 1) cs
    | none => afterSets? fuel (depth + 2) (afterOpening cs)
  | fuel + 1, depth + 1, ']' :: cs => afterSets? fuel depth cs
  | fuel + 1, depth + 1, '&' :: '&' :: cs | fuel + 1, depth + 1, '-' :: '-' :: cs
  | fuel + 1, depth + 1, '~' :: '~' :: cs => afterSets? fuel (depth + 1) cs
  | fuel + 1, depth + 1, cs => (afterItem? cs).bind (afterSets? fuel (depth + 1))

/-! ## Groups -/

/-- The beginning of a group, possibly with a name, or flags by themselves. -/
inductive Opening where
  | group (name : Option String)
  | flags
  deriving Repr, DecidableEq

def isName : List Char → Bool
  | [] => false
  | c :: cs => (c == '_' || (isAlphanumeric c && !c.isDigit))
    && cs.all fun c => isAlphanumeric c || "_.[]".contains c

def isFlags (cs : List Char) : Bool :=
  cs.Nodup && cs.all ("imsUuRx-".contains ·) && cs.getLast? != some '-'

/-- The beginning of a group, of which the parenthesis has been read. -/
def opening : List Char → Option (Opening × List Char)
  | '?' :: 'P' :: '<' :: cs | '?' :: '<' :: cs =>
    match cs.span (· != '>') with
    | (name, '>' :: cs) => if isName name then some (.group (String.ofList name), cs) else none
    | _ => none
  | '?' :: cs =>
    match cs.span fun c => c != ':' && c != ')' with
    | (flags, ':' :: cs) => if isFlags flags then some (.group none, cs) else none
    | (flags, ')' :: cs) => if isFlags flags && !flags.isEmpty then some (.flags, cs) else none
    | _ => none
  | cs => some (.group none, cs)

/-! ## The whole -/

structure State where
  /-- Groups that are open. -/
  depth : Nat
  /-- Whether there is something to repeat. -/
  repeatable : Bool
  names : List String
  deriving Repr, DecidableEq

def accepts : (fuel : Nat) → State → List Char → Bool
  | 0, _, _ => false
  | _, s, [] => s.depth == 0
  | fuel + 1, s, c :: cs =>
    let go (repeatable : Bool) := accepts fuel { s with repeatable := repeatable }
    match c with
    | '|' => go false cs
    | '?' | '*' | '+' => s.repeatable && go true (if cs.head? = some '?' then cs.tail else cs)
    | '\x7b' => false
    | '\\' => (escape cs).any fun e => go true e.2
    | '[' => (afterSets? cs.length 1 (afterOpening cs)).any (go true)
    | ')' => s.depth != 0 && accepts fuel { s with depth := s.depth - 1, repeatable := true } cs
    | '(' =>
      match opening cs with
      | none => false
      | some (.flags, cs) => go false cs
      | some (.group name, cs) =>
        !name.any s.names.contains && accepts fuel
          { depth := s.depth + 1, repeatable := false, names := name.toList ++ s.names } cs
    | _ => go true cs

end Regex

/-- Whether a text is a regular expression. -/
def isRegex (s : String) : Bool :=
  Regex.accepts (s.length + 1) ⟨0, false, []⟩ s.toList

end Headend
