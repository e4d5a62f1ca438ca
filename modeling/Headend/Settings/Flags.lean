import Headend.Text.Split

/-!
# Flags

Command lines made of flags only. A flag with a value is written `--flag value` or `--flag=value`;
what begins with a dash is never taken as the value of the flag before it. A flag may be given once,
and what the command line leaves open the environment may settle.
-/

namespace Headend.Flags

/-- Why a command line is not run. -/
inductive Refusal where
  | unknownArgument
  | invalidValue
  | valueValidation
  | argumentConflict
  | tooManyValues
  | displayHelp
  | displayVersion
  deriving Repr, DecidableEq

inductive Arity where
  | value
  /-- On when it is there. -/
  | switch
  /-- Counts how often it is there. -/
  | count
  | help
  | version
  deriving Repr, DecidableEq

structure Flag where
  name : String
  arity : Arity := .value
  short : Option Char := none
  /-- The environment variable that settles it. -/
  env : Option String := none
  about : String := ""
  /-- What stands for its value in the help. -/
  metavar : String := ""
  default : Option String := none
  /-- Values that the help lists. -/
  choices : List String := []
  /-- Whether the help leaves out what the environment says. -/
  secret : Bool := false
  /-- Why a value is refused. -/
  check : String → Option Refusal := fun _ => none

structure Parsed where
  /-- Flags and their values; a switch has the value `true`. -/
  values : List (String × String)
  /-- Counting flags, once for each time. -/
  counted : List String
  deriving Repr, DecidableEq

structure State where
  parsed : Parsed
  /-- A flag still to be completed, and the value it has if any. -/
  pending : Option (Flag × Option String)
  /-- Whether a double dash came. -/
  trailing : Bool

def State.start : State := ⟨⟨[], []⟩, none, false⟩

def Parsed.has (p : Parsed) (name : String) : Bool := p.values.any fun v => v.1 == name

def Parsed.get? (p : Parsed) (name : String) : Option String := p.values.lookup name

/-- Take a value for a flag. -/
def accept (s : State) (f : Flag) (v : String) : Except Refusal State :=
  if s.parsed.has f.name then .error .argumentConflict
  else match f.check v with
    | some refusal => .error refusal
    | none => .ok { s with parsed := { s.parsed with values := s.parsed.values ++ [(f.name, v)] } }

/-- Complete the flag that is pending. -/
def settle (s : State) : Except Refusal State :=
  match s.pending with
  | none => .ok s
  | some (_, none) => .error .invalidValue
  | some (f, some v) => accept { s with pending := none } f v

/-- A flag without a value of its own. -/
def bare (s : State) (f : Flag) : Except Refusal State := do
  let s ← settle s
  match f.arity with
  | .value => return { s with pending := some (f, none) }
  | .switch => accept s f "true"
  | .count => return { s with parsed := { s.parsed with counted := s.parsed.counted ++ [f.name] } }
  | .help => .error .displayHelp
  | .version => .error .displayVersion

def long (flags : List Flag) (s : State) (cs : List Char) : Except Refusal State :=
  let (name, value) := splitFirst '=' (String.ofList cs)
  match flags.find? (·.name == name), value with
  | none, _ => .error .unknownArgument
  | some f, none => bare s f
  | some f, some v => if f.arity = .value then do accept (← settle s) f v else .error .tooManyValues

/-- Short flags may stand together; the rest of a flag with a value is its value. -/
def short (flags : List Flag) (s : State) : List Char → Except Refusal State
  | [] => .ok s
  | c :: cs =>
    match flags.find? (·.short == some c) with
    | none => .error .unknownArgument
    | some f =>
      if f.arity = .value && !cs.isEmpty then do
        accept (← settle s) f (String.ofList (if cs.head? = some '=' then cs.tail else cs))
      else do short flags (← bare s f) cs

def argument (flags : List Flag) (s : State) (arg : String) : Except Refusal State :=
  if s.trailing then .error .unknownArgument else
  match arg.toList with
  | ['-', '-'] => .ok { s with trailing := true }
  | '-' :: '-' :: cs => long flags s cs
  | '-' :: c :: cs => short flags s (c :: cs)
  | _ =>
    match s.pending with
    | some (f, none) => .ok { s with pending := some (f, some arg) }
    | _ => .error .unknownArgument

/-- What the environment says about flags that were not given. -/
def fromEnvironment (env : List (String × String)) (p : Parsed) (f : Flag) :
    Except Refusal Parsed :=
  if p.has f.name then .ok p else
  match f.env.bind fun name => env.lookup name with
  | none => .ok p
  | some v =>
    match f.check v with
    | some refusal => .error refusal
    | none => .ok { p with values := p.values ++ [(f.name, v)] }

def parse (flags : List Flag) (args : List String) (env : List (String × String)) :
    Except Refusal Parsed := do
  let s ← args.foldlM (argument flags) State.start
  let s ← settle s
  flags.foldlM (fromEnvironment env) s.parsed

/-! ## Help -/

def Flag.usage (f : Flag) : String :=
  (match f.short with
    | some c => s!"-{c}, --{f.name}"
    | none => s!"    --{f.name}")
  ++ match f.arity with
    | .value => s!" <{f.metavar}>"
    | .count => "..."
    | _ => ""

def Flag.notes (env : List (String × String)) (f : Flag) : List String :=
  (if f.about.isEmpty then [] else [f.about])
  ++ (f.env.map fun name =>
    let value := (env.lookup name).getD ""
    if f.secret then s!"[env: {name}]" else s!"[env: {name}={value}]").toList
  ++ (f.default.map fun v => s!"[default: {v}]").toList
  ++ if f.choices.isEmpty then [] else ["[possible values: " ++ ", ".intercalate f.choices ++ "]"]

/-- The help: what the program does, and each flag with what there is to say about it. -/
def helpText (about name : String) (env : List (String × String)) (flags : List Flag) :
    List String :=
  [about, "", s!"Usage: {name} [OPTIONS]", "", "Options:"]
  ++ flags.flatMap fun f =>
    ("  " ++ f.usage) :: (splitParts '\n' (" ".intercalate (f.notes env))).map ("          " ++ ·)

/-! ## Values -/

def yes : List String := ["y", "yes", "t", "true", "on", "1"]

def no : List String := ["n", "no", "f", "false", "off", "0"]

def boolean? (s : String) : Option Bool :=
  let s := s.map Char.toLower
  if yes.contains s then some true else if no.contains s then some false else none

/-- Refuse what the reader cannot read. -/
def checked {α : Type} (read : String → Option α) (refusal : Refusal) (s : String) :
    Option Refusal :=
  if (read s).isSome then none else some refusal

end Headend.Flags
