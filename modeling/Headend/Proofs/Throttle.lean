import Headend.Throttle
import Mathlib.Algebra.Ring.Nat
import Mathlib.Data.List.Chain
import Mathlib.Data.List.Induction

/-!
# What a throttle lets through

A history is a list of calls with the answers to them. Of a key only the checks since it was last
forgotten count: each of their lines has passed, has been reported with one that passed, or is
pending, and those that passed are an interval apart. Calls for other keys change nothing of it.
-/

namespace Headend.Throttle

/-! ## Histories -/

inductive Call where
  | check (now : Nat) (key : String)
  | clear (key : String)
  deriving Repr, DecidableEq

namespace Call

def key : Call → String
  | check _ key => key
  | clear key => key

def time? : Call → Option Nat
  | check now _ => some now
  | clear _ => none

end Call

/-- Make a call. Only a check has an answer. -/
def call (t : Throttle) : Call → Throttle × Option Nat
  | .check now key => t.check now key
  | .clear key => (t.clear key, none)

def run (t : Throttle) (calls : List Call) : Throttle :=
  calls.foldl (fun t c => (t.call c).1) t

/-- The calls with their answers. -/
def trace (t : Throttle) : List Call → List (Call × Option Nat)
  | [] => []
  | c :: calls => (c, (t.call c).2) :: (t.call c).1.trace calls

variable {t t' : Throttle} {now : Nat} {key : String} {c : Call} {calls : List Call}

theorem run_concat (t : Throttle) (calls : List Call) (c : Call) :
    t.run (calls ++ [c]) = ((t.run calls).call c).1 := by
  rw [run, List.foldl_append]
  rfl

theorem trace_concat (t : Throttle) (calls : List Call) (c : Call) :
    t.trace (calls ++ [c]) = t.trace calls ++ [(c, ((t.run calls).call c).2)] := by
  induction calls generalizing t with
  | nil => rfl
  | cons d calls ih => exact congrArg (_ :: ·) (ih (t.call d).1)

/-! ## One call -/

/-- What a check does: the first line of a key passes; a later one is held back within the interval
and passes after it. -/
theorem check_cases (t : Throttle) (now : Nat) (key : String) :
    t.get? key = none ∧ t.check now key = (t.put key ⟨now, 0⟩, some 0) ∨
    (∃ e, t.get? key = some e ∧ now - e.last < t.interval ∧
      t.check now key = (t.put key ⟨e.last, e.suppressed + 1⟩, none)) ∨
    ∃ e, t.get? key = some e ∧ t.interval ≤ now - e.last ∧
      t.check now key = (t.put key ⟨now, 0⟩, some e.suppressed) := by
  unfold check
  cases hget : t.get? key with
  | none => exact .inl ⟨rfl, rfl⟩
  | some e =>
    by_cases hwithin : now - e.last < t.interval
    · exact .inr (.inl ⟨e, rfl, hwithin, if_pos hwithin⟩)
    · exact .inr (.inr ⟨e, rfl, Nat.le_of_not_lt hwithin, if_neg hwithin⟩)

@[simp] theorem call_interval (t : Throttle) (c : Call) : (t.call c).1.interval = t.interval := by
  cases c with
  | clear key => rfl
  | check now key =>
    rw [call]
    rcases t.check_cases now key with ⟨-, h⟩ | ⟨e, -, -, h⟩ | ⟨e, -, -, h⟩ <;> rw [h] <;> rfl

@[simp] theorem run_interval (t : Throttle) (calls : List Call) :
    (t.run calls).interval = t.interval := by
  induction calls generalizing t with
  | nil => rfl
  | cons c calls ih => exact (ih (t.call c).1).trans (t.call_interval c)

/-- A call leaves the other keys alone. -/
theorem call_get?_of_ne (h : c.key ≠ key) : (t.call c).1.get? key = t.get? key := by
  cases c with
  | clear other =>
    have hne : key ≠ other := Ne.symm h
    rw [call, get?_clear, if_neg hne]
  | check now other =>
    have hne : key ≠ other := Ne.symm h
    rw [call]
    rcases t.check_cases now other with ⟨-, hcheck⟩ | ⟨e, -, -, hcheck⟩ | ⟨e, -, -, hcheck⟩ <;>
      rw [hcheck, get?_put, if_neg hne]

/-- What it does with its own key and what it answers depend on the entry of that key only. -/
theorem call_congr (hinterval : t.interval = t'.interval) (hget : t.get? c.key = t'.get? c.key) :
    (t.call c).2 = (t'.call c).2 ∧ (t.call c).1.get? c.key = (t'.call c).1.get? c.key := by
  cases c with
  | clear key => simp only [call, Call.key, get?_clear, if_true, and_self]
  | check now key =>
    change t.get? key = t'.get? key at hget
    change (t.check now key).2 = (t'.check now key).2 ∧
      (t.check now key).1.get? key = (t'.check now key).1.get? key
    unfold check
    rw [hget, hinterval]
    cases t'.get? key with
    | none => simp only [get?_put, if_true, and_self]
    | some e =>
      by_cases hwithin : now - e.last < t'.interval <;>
        simp only [hwithin, get?_put, if_true, if_false, and_self]

/-- Without the calls for other keys the answers are the same. -/
theorem trace_filter (hinterval : t.interval = t'.interval) (hget : t.get? key = t'.get? key) :
    (t.trace calls).filter (fun e => e.1.key = key) =
      t'.trace (calls.filter fun c => c.key = key) := by
  induction calls generalizing t t' with
  | nil => rfl
  | cons c calls ih =>
    rw [trace]
    by_cases hkey : c.key = key
    · subst hkey
      obtain ⟨hanswer, hget'⟩ := call_congr hinterval hget
      rw [List.filter_cons_of_pos (by simp), List.filter_cons_of_pos (by simp), trace, hanswer]
      exact congrArg (_ :: ·) (ih (by simpa using hinterval) hget')
    · rw [List.filter_cons_of_neg (by simpa using hkey),
        List.filter_cons_of_neg (by simpa using hkey)]
      exact ih (by simpa using hinterval) ((call_get?_of_ne hkey).trans hget)

/-! ## Since the last clear -/

/-- A check and the answer to it. -/
structure Check where
  now : Nat
  answer : Option Nat
  deriving Repr, DecidableEq

/-- A check whose line passed, and the number of lines reported with it. -/
structure Pass where
  now : Nat
  reported : Nat
  deriving Repr, DecidableEq

def record (key : String) (seen : List Check) : Call × Option Nat → List Check
  | (.check now other, answer) => if other = key then seen ++ [⟨now, answer⟩] else seen
  | (.clear other, _) => if other = key then [] else seen

/-- The checks of a key since it was last forgotten, or from the start. -/
def since (key : String) (trace : List (Call × Option Nat)) : List Check :=
  trace.foldl (record key) []

theorem record_of_ne (h : c.key ≠ key) (seen : List Check) (answer : Option Nat) :
    record key seen (c, answer) = seen := by
  cases c with
  | check now other => exact if_neg h
  | clear other => exact if_neg h

def passes (seen : List Check) : List Pass :=
  seen.filterMap fun c => c.answer.map fun n => ⟨c.now, n⟩

/-- Lines of a key held back and not yet reported. -/
def pending (t : Throttle) (key : String) : Nat := (t.get? key).elim 0 Entry.suppressed

theorem since_trace_concat (t : Throttle) (calls : List Call) (c : Call) (key : String) :
    since key (t.trace (calls ++ [c])) =
      record key (since key (t.trace calls)) (c, ((t.run calls).call c).2) := by
  rw [trace_concat, since, List.foldl_append]
  rfl

/-- The books of a key: what its entry says of the checks since the last clear. -/
structure Accounted (interval : Nat) (entry : Option Entry) (seen : List Check) : Prop where
  conserved : (passes seen).length + ((passes seen).map Pass.reported).sum +
    entry.elim 0 Entry.suppressed = seen.length
  spaced : (passes seen).IsChain (·.now + interval ≤ ·.now)
  last : entry.map Entry.last = (passes seen).getLast?.map Pass.now

theorem passes_concat_none (seen : List Check) (now : Nat) :
    passes (seen ++ [⟨now, none⟩]) = passes seen := by
  simp [passes]

theorem passes_concat_some (seen : List Check) (now n : Nat) :
    passes (seen ++ [⟨now, some n⟩]) = passes seen ++ [⟨now, n⟩] := by
  simp [passes]

namespace Accounted

variable {interval : Nat} {e : Entry} {entry : Option Entry} {seen : List Check}

theorem nil (interval : Nat) : Accounted interval none [] := ⟨rfl, .nil, rfl⟩

/-- A line that is held back becomes pending. -/
theorem hold (h : Accounted interval (some e) seen) (now : Nat) :
    Accounted interval (some ⟨e.last, e.suppressed + 1⟩) (seen ++ [⟨now, none⟩]) := by
  obtain ⟨hconserved, hspaced, hlast⟩ := h
  constructor
  case conserved =>
    rw [passes_concat_none, List.length_append, ← hconserved]
    rfl
  case spaced => rwa [passes_concat_none]
  case last => rwa [passes_concat_none]

/-- A line that passes reports all that is pending. -/
theorem pass (h : Accounted interval entry seen)
    (hspace : ∀ e ∈ entry, e.last + interval ≤ now) :
    Accounted interval (some ⟨now, 0⟩)
      (seen ++ [⟨now, some (entry.elim 0 Entry.suppressed)⟩]) := by
  obtain ⟨hconserved, hspaced, hlast⟩ := h
  constructor
  case conserved =>
    rw [passes_concat_some, List.length_append, List.length_append, List.map_append,
      List.sum_append, ← hconserved]
    simp only [List.length_singleton, List.map_singleton, List.sum_singleton, Option.elim_some]
    omega
  case spaced =>
    rw [passes_concat_some]
    refine List.isChain_append.2 ⟨hspaced, .singleton _, fun p hp q hq => ?_⟩
    -- The entry tells when the last line before this one passed.
    obtain rfl : _ = q := by simpa using hq
    rw [Option.mem_def.1 hp] at hlast
    obtain ⟨e, he, hsame⟩ := Option.map_eq_some_iff.1 hlast
    rw [← hsame]
    exact hspace e he
  case last =>
    rw [passes_concat_some, List.getLast?_concat]
    rfl

/-- A check of the key itself. -/
theorem check (h : Accounted interval (t.get? key) seen) (hinterval : t.interval = interval)
    (hordered : ∀ e ∈ t.get? key, e.last ≤ now) :
    Accounted interval ((t.check now key).1.get? key) (seen ++ [⟨now, (t.check now key).2⟩]) := by
  rcases t.check_cases now key with
    ⟨hget, hcheck⟩ | ⟨e, hget, -, hcheck⟩ | ⟨e, hget, hafter, hcheck⟩
  · rw [hcheck, get?_put, if_pos rfl]
    rw [hget] at h
    exact h.pass (by simp)
  · rw [hcheck, get?_put, if_pos rfl]
    rw [hget] at h
    exact h.hold now
  · rw [hcheck, get?_put, if_pos rfl]
    rw [hget] at h hordered
    -- Without the order of times a check before `last` would pass when the interval is zero.
    have hle := hordered e rfl
    refine h.pass fun e' he' => ?_
    obtain rfl := Option.some.inj he'
    omega

end Accounted

/-! ## Several calls -/

/-- The last line of a key has passed at one of the checks. -/
theorem last_mem_times {interval : Nat} {e : Entry}
    (h : ((new interval).run calls).get? key = some e) : e.last ∈ calls.filterMap Call.time? := by
  induction calls using List.reverseRecOn generalizing e with
  | nil => cases h
  | append_singleton calls c ih =>
    rw [run_concat] at h
    rw [List.filterMap_append, List.mem_append]
    by_cases hkey : c.key = key
    · cases c with
      | clear other =>
        obtain rfl : other = key := hkey
        rw [call, get?_clear, if_pos rfl] at h
        cases h
      | check now other =>
        obtain rfl : other = key := hkey
        rw [call] at h
        rcases ((new interval).run calls).check_cases now other with
          ⟨-, hcheck⟩ | ⟨e', hget, -, hcheck⟩ | ⟨e', -, -, hcheck⟩ <;>
          rw [hcheck, get?_put, if_pos rfl] at h <;> obtain rfl := Option.some.inj h
        · exact .inr (List.mem_singleton_self now)
        · -- A line held back leaves the time of the last one.
          have hearlier : e'.last ∈ calls.filterMap Call.time? := ih hget
          exact .inl hearlier
        · exact .inr (List.mem_singleton_self now)
    · rw [call_get?_of_ne hkey] at h
      exact .inl (ih h)

/-- By induction on the calls. -/
theorem accounted_since (interval : Nat) (calls : List Call) (key : String)
    (hordered : (calls.filterMap Call.time?).Pairwise (· ≤ ·)) :
    Accounted interval (((new interval).run calls).get? key)
      (since key ((new interval).trace calls)) := by
  induction calls using List.reverseRecOn with
  | nil => exact .nil interval
  | append_singleton calls c ih =>
    rw [List.filterMap_append, List.pairwise_append] at hordered
    obtain ⟨hearlier, -, hlater⟩ := hordered
    have haccounted := ih hearlier
    rw [since_trace_concat, run_concat]
    by_cases hkey : c.key = key
    · cases c with
      | clear other =>
        obtain rfl : other = key := hkey
        rw [record, if_pos rfl, call, get?_clear, if_pos rfl]
        exact .nil interval
      | check now other =>
        obtain rfl : other = key := hkey
        have hnow : ∀ e ∈ ((new interval).run calls).get? other, e.last ≤ now := fun e he =>
          hlater _ (last_mem_times he) _ (List.mem_singleton_self now)
        rw [record, if_pos rfl]
        exact haccounted.check (run_interval _ calls) hnow
    · rw [call_get?_of_ne hkey, record_of_ne hkey]
      exact haccounted

/-- Since a key was last forgotten each line checked has passed, was reported with one that passed
later, or is pending; those that passed are an interval apart; and without the calls for other keys
all the answers would be the same. -/
theorem trace_accounts (interval : Nat) (calls : List Call) (key : String)
    (hordered : (calls.filterMap Call.time?).Pairwise (· ≤ ·)) :
    (passes (since key ((new interval).trace calls))).length +
        ((passes (since key ((new interval).trace calls))).map Pass.reported).sum +
        ((new interval).run calls).pending key =
      (since key ((new interval).trace calls)).length ∧
    (passes (since key ((new interval).trace calls))).IsChain (·.now + interval ≤ ·.now) ∧
    ((new interval).trace calls).filter (fun e => e.1.key = key) =
      (new interval).trace (calls.filter fun c => c.key = key) := by
  have haccounted := accounted_since interval calls key hordered
  exact ⟨haccounted.conserved, haccounted.spaced, trace_filter rfl rfl⟩

/-- Lines of two keys, one of which is forgotten. -/
def interleaved : List Call :=
  [.check 0 "pipe", .check 1 "pipe", .check 1 "track", .clear "pipe", .check 2 "pipe",
    .check 3 "pipe", .check 11 "pipe", .check 11 "track", .check 12 "pipe", .check 13 "pipe"]

/-- Of the five lines of `pipe` since then two have passed and two are reported, so one is
pending. -/
theorem trace_accounts_interleaved :
    (interleaved.filterMap Call.time?).Pairwise (· ≤ ·) ∧
    since "pipe" ((new 10).trace interleaved) =
      [⟨2, some 0⟩, ⟨3, none⟩, ⟨11, none⟩, ⟨12, some 2⟩, ⟨13, none⟩] ∧
    ((new 10).run interleaved).pending "pipe" = 1 := by
  have hordered : (interleaved.filterMap Call.time?).Pairwise (· ≤ ·) := by decide
  have hsince : since "pipe" ((new 10).trace interleaved) =
      [⟨2, some 0⟩, ⟨3, none⟩, ⟨11, none⟩, ⟨12, some 2⟩, ⟨13, none⟩] := by decide +kernel
  obtain ⟨hconserved, -, -⟩ := trace_accounts 10 interleaved "pipe" hordered
  rw [hsince] at hconserved
  refine ⟨hordered, hsince, ?_⟩
  simp only [passes, List.filterMap_cons, List.filterMap_nil, Option.map_some, Option.map_none,
    List.map_cons, List.map_nil, List.length_cons, List.length_nil, List.sum_cons,
    List.sum_nil] at hconserved
  omega

end Headend.Throttle
