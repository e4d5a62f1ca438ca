import Headend.Log
import Headend.Outcome
import Headend.Text.Number
import Headend.Text.Regex
import Headend.Text.Space
import Headend.Text.Utf8

/-!
# Log filters

A filter tells which lines of the log are written. It is a list of directives, and of those that
apply to a line the most specific one decides: a longer target comes first, then more fields.

A directive is a level, a target, or `target[span{field}]=level`, in which parts may be missing.
-/

namespace Headend.Log

/-- A field that has to be there, possibly with a certain value. -/
structure FieldTest where
  name : String
  valued : Bool
  deriving Repr, DecidableEq

structure Directive where
  /-- All targets that begin with it. -/
  target : String
  span : Option String
  fields : List FieldTest
  /-- The rank up to which lines are written. -/
  rank : Nat
  deriving Repr, DecidableEq

abbrev Filter := List Directive

namespace Directive

def ofTarget (target : String) (rank : Nat) : Directive := ⟨target, none, [], rank⟩

def ofRank (rank : Nat) : Directive := ofTarget "" rank

/-- The only field of a line. -/
def messageField : String := "message"

/-- Whether a directive says something about a line. Nothing is logged inside of spans, and values
are only looked for there. -/
def applies (d : Directive) (l : Line) : Bool :=
  d.span.isNone && l.target.startsWith d.target
    && d.fields.all fun f => f.name == messageField && !f.valued

/-- Whether a directive decides before another one that applies to the same line. -/
def outranks (d e : Directive) : Bool :=
  e.target.length < d.target.length
    || (d.target.length == e.target.length && e.fields.length < d.fields.length)

/-- The directive that decides; of equally specific ones the last. -/
def deciding (f : Filter) (l : Line) : Option Directive :=
  (f.filter (·.applies l)).foldl
    (fun best d => if best.any (·.outranks d) then best else some d) none

end Directive

def allows (f : Filter) (l : Line) : Bool :=
  (Directive.deciding f l).any fun d => l.level.rank ≤ d.rank

theorem Directive.deciding_singleton (d : Directive) (l : Line) :
    deciding [d] l = if d.applies l then some d else none := by
  by_cases h : d.applies l <;> simp [deciding, h]

/-! ## Reading -/

/-- Levels by name and number, lower case only. -/
def rankNames : List (String × Nat) :=
  [("off", 0), ("error", 1), ("warn", 2), ("info", 3), ("debug", 4), ("trace", 5)]

def rank? (s : String) : Option Nat :=
  below? 6 s <|> rankNames.lookup (s.map Char.toLower)

/-- A level, which may be left out. -/
def rankOrAll? (s : String) : Option Nat := if s.isEmpty then some 5 else rank? s

def isExponent : List Char → Bool
  | [] => true
  | e :: cs => e.toLower == 'e' && (digits? (match cs with
    | '+' :: cs | '-' :: cs => cs
    | cs => cs)).isSome

/-- An unsigned number in decimal notation, or the name of one that has none. -/
def isDecimal (cs : List Char) : Bool :=
  let (whole, rest) := cs.span Char.isDigit
  let (part, rest) := match rest with
    | '.' :: rest => rest.span Char.isDigit
    | rest => ([], rest)
  ((!whole.isEmpty || !part.isEmpty) && isExponent rest)
    || ["inf", "infinity", "nan"].contains (String.ofList (cs.map Char.toLower))

/-- What a value is compared with: a truth value, a number or a regular expression. -/
def isValue (s : String) : Bool :=
  match s.toList with
  | '+' :: cs => isDecimal cs
  | _ => isRegex s

def FieldTest.parse? (s : String) : Option FieldTest :=
  match splitParts '=' s with
  | [name] => if name.isEmpty then none else some ⟨name, false⟩
  | name :: value :: _ => if isValue value then some ⟨name, true⟩ else none
  | [] => none

namespace Directive

/-- What is being read, and where it began. -/
inductive Phase where
  | start
  | head (i : Nat)
  | span (i : Nat)
  | field (i : Nat)
  /-- The fields have been read. -/
  | fields
  /-- The brackets have been read. -/
  | bracketed
  | level (i : Nat)
  deriving Repr, DecidableEq

/-- A directive that is being read, a text that is none, or a crash. -/
abbrev Reading := Outcome Unit (Phase × Directive)

def isHeadStart (c : Char) : Bool := "-:_".contains c || isAlphanumeric c

/-- The text between two positions, neither of which may be inside of a character. -/
def cut (bytes : Bytes) (i j : Nat) : Outcome Unit String :=
  if (bytes[i]?).any Utf8.isContinuation || (bytes[j]?).any Utf8.isContinuation then .crash
  else .ofOption? (Utf8.decode ((bytes.take j).drop i)).toOption

/-- The next character, at a position. -/
def next (bytes : Bytes) (s : Phase × Directive) (i : Nat) (c : Char) : Reading :=
  let (phase, d) := s
  match phase, c with
  | .start, '[' => pure (.span (i + 1), d)
  | .start, c => if isHeadStart c then pure (.head i, d) else .error ()
  | .head j, '=' => do return (.level (i + 1), { d with target := ← cut bytes j i })
  | .head j, '[' => do return (.span (i + 1), { d with target := ← cut bytes j i })
  | .span j, ']' => do return (.bracketed, { d with span := some (← cut bytes j i) })
  | .span j, '\x7b' => do
    let span ← cut bytes j i
    return (.field (i + 1), { d with span := if span.isEmpty then none else some span })
  | .field j, '\x7d' => do
    match FieldTest.parse? (← cut bytes j i) with
    | some field => return (.fields, { d with fields := d.fields ++ [field] })
    | none => .error ()
  | .fields, ']' => pure (.bracketed, d)
  | .fields, _ => .error ()
  | .bracketed, '=' => pure (.level (i + 1), d)
  | .bracketed, _ => .error ()
  | _, _ => pure s

def readFrom (bytes : Bytes) (s : Phase × Directive) (i : Nat) : List Char → Reading
  | [] => pure s
  | c :: cs => do readFrom bytes (← next bytes s i c) (i + c.utf8Size) cs

/-- A directive at the end of the text. -/
def complete (bytes : Bytes) : Phase × Directive → Outcome Unit Directive
  | (.head j, _) => do
    let s ← cut bytes j bytes.length
    match rank? s with
    | some rank => return ofRank rank
    | none => return ofTarget s 5
  | (.level j, d) => do
    match rankOrAll? (← cut bytes j bytes.length) with
    | some rank => return { d with rank := rank }
    | none => .error ()
  | (.bracketed, d) => pure d
  | _ => .error ()

/-- Positions are found in the text without the white space around it, but what stands between them
is cut from the whole text. -/
def parse (s : String) : Outcome Unit Directive := do
  let bytes := Utf8.encode s
  complete bytes (← readFrom bytes (.start, ofRank 5) 0 (trimSpace s).toList)

end Directive

/-- Directives between commas. None at all let errors through. -/
def readFilter (s : String) : Outcome Unit Filter := do
  let ds ← ((splitParts ',' s).filter fun p => !p.isEmpty).mapM Directive.parse
  return if ds.isEmpty then [.ofRank 1] else ds

end Headend.Log
