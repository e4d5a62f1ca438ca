/-!
# Shutdown

A list of teardown tasks that run when shutdown is triggered, newest first. Shutdown triggers once;
a task added afterwards runs at once. The registry only decides what runs and when: `add` and
`trigger` hand out the tasks to run, in order.

`Call` is what a task or its owner may do with the registry, and `perform` plays such calls, with
tasks that call back into the registry while they run.
-/

namespace Headend

structure Shutdown (α : Type) where
  /-- Oldest first. -/
  tasks : List (Nat × α)
  nextId : Nat
  triggered : Bool
  deriving Repr, DecidableEq

namespace Shutdown

variable {α : Type}

def new : Shutdown α := ⟨[], 0, false⟩

def pending (s : Shutdown α) : Nat := s.tasks.length

/-- Register a task under a number of its own. After the trigger it is handed back to be run. -/
def add (s : Shutdown α) (task : α) : Shutdown α × Nat × Option α :=
  if s.triggered then ({ s with nextId := s.nextId + 1 }, s.nextId, some task)
  else ({ s with tasks := s.tasks ++ [(s.nextId, task)], nextId := s.nextId + 1 }, s.nextId, none)

/-- Forget a task, and tell whether it was still pending. -/
def remove (s : Shutdown α) (id : Nat) : Shutdown α × Bool :=
  ({ s with tasks := s.tasks.filter fun t => t.1 != id }, s.tasks.any fun t => t.1 == id)

/-- The first trigger hands out all tasks, newest first; later ones hand out nothing. -/
def trigger (s : Shutdown α) : Shutdown α × List α :=
  if s.triggered then (s, [])
  else ({ s with tasks := [], triggered := true }, (s.tasks.map Prod.snd).reverse)

/-! ### What the calls leave -/

theorem add_of_triggered {s : Shutdown α} (h : s.triggered = true) (task : α) :
    s.add task = ({ s with nextId := s.nextId + 1 }, s.nextId, some task) := if_pos h

theorem add_of_untriggered {s : Shutdown α} (h : s.triggered = false) (task : α) :
    s.add task
      = ({ s with tasks := s.tasks ++ [(s.nextId, task)], nextId := s.nextId + 1 }, s.nextId, none) :=
  if_neg (Bool.eq_false_iff.mp h)

theorem trigger_of_triggered {s : Shutdown α} (h : s.triggered = true) : s.trigger = (s, []) :=
  if_pos h

theorem trigger_of_untriggered {s : Shutdown α} (h : s.triggered = false) : s.trigger
    = ({ s with tasks := [], triggered := true }, (s.tasks.map Prod.snd).reverse) :=
  if_neg (Bool.eq_false_iff.mp h)

theorem triggered_trigger (s : Shutdown α) : s.trigger.1.triggered = true := by
  rw [trigger]
  split
  · assumption
  · rfl

theorem triggered_add (s : Shutdown α) (task : α) : (s.add task).1.triggered = s.triggered := by
  rw [add]
  split <;> rfl

theorem nextId_add (s : Shutdown α) (task : α) : (s.add task).1.nextId = s.nextId + 1 := by
  rw [add]
  split <;> rfl

/-! ## Tasks that call back -/

inductive Call where
  | add (name : String) (body : List Call)
  /-- Remove the task added at this position among all those added so far. -/
  | remove (position : Nat)
  | trigger
  | cancelToken
  | pending
  | cancelled
  deriving Repr

structure Task where
  name : String
  body : List Call
  deriving Repr

inductive Answer where
  | none
  | id (n : Nat)
  | flag (b : Bool)
  | count (n : Nat)
  deriving Repr, DecidableEq

inductive Entry where
  /-- A task began. -/
  | ran (name : String)
  /-- A call made by a task was answered. -/
  | called (name : String) (answer : Answer)
  deriving Repr, DecidableEq

structure Session where
  registry : Shutdown Task
  /-- Whether the token that every session descends from is cancelled. -/
  tokenCancelled : Bool
  /-- Numbers of the tasks added, in the order in which `add` answered. -/
  added : List Nat
  log : List Entry

def Session.new : Session := ⟨.new, false, [], []⟩

def Session.record (s : Session) (e : Entry) : Session := { s with log := s.log ++ [e] }

mutual

/-- How many calls a call holds, itself included. -/
def Call.size : Call → Nat
  | .add _ body => 1 + Call.totalSize body
  | .remove _ | .trigger | .cancelToken | .pending | .cancelled => 1

def Call.totalSize : List Call → Nat
  | [] => 0
  | c :: cs => c.size + Call.totalSize cs

end

def perform : (fuel : Nat) → Session → Call → Session × Answer
  | 0, s, _ => (s, .none)
  | fuel + 1, s, call =>
    let run (s : Session) (t : Task) : Session :=
      t.body.foldl (fun s c =>
        let (s, answer) := perform fuel s c
        s.record (.called t.name answer)) (s.record (.ran t.name))
    match call with
    | .add name body =>
      let (registry, id, now) := s.registry.add ⟨name, body⟩
      let s := { s with registry := registry }
      let s := now.elim s (run s)
      ({ s with added := s.added ++ [id] }, .id id)
    | .remove position =>
      match s.added[position]? with
      | none => (s, .none)
      | some id =>
        let (registry, found) := s.registry.remove id
        ({ s with registry := registry }, .flag found)
    | .trigger =>
      let first := !s.registry.triggered
      let (registry, tasks) := s.registry.trigger
      let s := { s with registry := registry, tokenCancelled := s.tokenCancelled || first }
      (tasks.foldl run s, .none)
    | .cancelToken => ({ s with tokenCancelled := true }, .none)
    | .pending => (s, .count s.registry.pending)
    | .cancelled => (s, .flag s.tokenCancelled)

/-- Calls made by the owner and those still waiting in tasks nest no deeper than there are calls. -/
def Session.perform (s : Session) (call : Call) : Session × Answer :=
  let waiting := Call.totalSize (s.registry.tasks.flatMap fun t => t.2.body)
  Shutdown.perform (waiting + s.registry.tasks.length + call.size + 1) s call

end Shutdown

end Headend
