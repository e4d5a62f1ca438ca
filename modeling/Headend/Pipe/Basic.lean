import Headend.Bytes

/-!
# Byte pipes

A bounded queue of chunks between one writer and one reader. `offer`, `take` and `read` are single
attempts: they say what comes of the operation, or that it has to wait. A closed pipe fails both
ends at once; a pipe whose writer is gone ends when it is empty.

`pending` is the view: the bytes on their way to the reader.
-/

namespace Headend

structure Pipe where
  capacity : Nat
  queue : List Bytes
  /-- What is left of a chunk of which only a part was read. -/
  leftover : Bytes
  closed : Bool
  writerGone : Bool
  readerGone : Bool
  deriving Repr, DecidableEq

namespace Pipe

/-- A pipe holds at least one chunk. -/
def new (capacity : Nat) : Pipe :=
  ⟨max capacity 1, [], [], false, false, false⟩

def defaultCapacity : Nat := 64

def close (p : Pipe) : Pipe := { p with closed := true }

def dropWriter (p : Pipe) : Pipe := { p with writerGone := true }

def dropReader (p : Pipe) : Pipe := { p with readerGone := true }

/-! ## Writing -/

inductive Offer where
  | accepted (count : Nat) (pipe : Pipe)
  | broken
  | wait
  deriving Repr, DecidableEq

/-- Hand a chunk over. An empty chunk is accepted and not queued, also when the reader is gone. -/
def offer (p : Pipe) (chunk : Bytes) : Offer :=
  if p.closed then .broken
  else if chunk.isEmpty then .accepted 0 p
  else if p.readerGone then .broken
  else if p.queue.length < p.capacity then
    .accepted chunk.length { p with queue := p.queue ++ [chunk] }
  else .wait

/-! ## Reading -/

inductive Take where
  | chunk (data : Bytes) (pipe : Pipe)
  | ended
  | broken
  | wait
  deriving Repr, DecidableEq

/-- Receive the next chunk. What an earlier read left comes first, even from a closed pipe. -/
def take (p : Pipe) : Take :=
  if !p.leftover.isEmpty then .chunk p.leftover { p with leftover := [] }
  else if p.closed then .broken
  else match p.queue with
    | c :: rest => .chunk c { p with queue := rest }
    | [] => if p.writerGone then .ended else .wait

/-- Receive at most `size` bytes; what is left of the chunk is kept for later. No bytes at all mean
the end, unless none were asked for. -/
def read (p : Pipe) (size : Nat) : Take :=
  if size = 0 then .chunk [] p else
  match p.take with
  | .chunk data p => .chunk (data.take size) { p with leftover := data.drop size }
  | .ended => .chunk [] p
  | .broken => .broken
  | .wait => .wait

/-- What a reader finds when nothing more comes. -/
inductive Rest where
  | waiting
  | ended
  | broken
  deriving Repr, DecidableEq

/-- Receive everything that can be had without waiting. -/
def drain (p : Pipe) : List Bytes × Pipe × Rest :=
  let kept := if p.leftover.isEmpty then [] else [p.leftover]
  let p := { p with leftover := [] }
  if p.closed then (kept, p, .broken)
  else (kept ++ p.queue, { p with queue := [] }, if p.writerGone then .ended else .waiting)

/-! ## The view -/

/-- The bytes accepted and not yet delivered. -/
def pending (p : Pipe) : Bytes := p.leftover ++ p.queue.flatten

theorem pending_offer {p q : Pipe} {chunk : Bytes} {n : Nat}
    (h : p.offer chunk = .accepted n q) : q.pending = p.pending ++ chunk := by
  unfold offer at h
  split at h
  · simp at h
  · split at h
    · simp_all
    · split at h
      · simp at h
      · split at h
        · injection h with _ h
          subst h
          simp [pending]
        · simp at h

end Pipe

end Headend
