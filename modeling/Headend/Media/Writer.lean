import Headend.Media.Error
import Headend.Pipe.Basic

/-!
# Packet writers

A packet writer turns packets into chunks for a pipe. It works in moves, so that the pipe can make
it wait between two chunks: `accept` begins a packet, and `resume` goes on once a chunk was taken.

`write` runs all moves of a packet against a pipe; `collect` runs them with nothing in the way.
-/

namespace Headend.Media

/-- What a writer does next with the packet in hand. -/
inductive Move where
  /-- Send a chunk and go on. -/
  | emit (chunk : Bytes)
  /-- Send a chunk; the packet is done and counts for `result`. -/
  | last (chunk : Bytes) (result : Nat)
  /-- Go on without sending anything. -/
  | again
  | finish (result : Except Error Nat)
  | crash
  deriving Repr

class PacketWriter (W : Type) where
  accept : W → Bytes → W × Move
  resume : W → W × Move

/-- How a write ends. -/
inductive Ending where
  | finished (result : Except Error Nat)
  /-- The pipe was full; the chunk is lost. -/
  | blocked
  | crashed
  deriving Repr

variable {W : Type} [PacketWriter W]

/-! ## Writing into a pipe -/

structure Written (W : Type) where
  writer : W
  pipe : Pipe
  /-- Chunks read while the write went on. -/
  drained : List Bytes
  ending : Ending

/-- Hand a chunk to the pipe. If there is a reader at hand, it empties a pipe that is full. -/
def send (drain : Bool) (pipe : Pipe) (chunk : Bytes) : List Bytes × Pipe.Offer :=
  match pipe.offer chunk with
  | .wait =>
    if drain then
      let (out, pipe, _) := pipe.drain
      (out, pipe.offer chunk)
    else ([], .wait)
  | r => ([], r)

/-- More moves than any packet takes. -/
def moveLimit : Nat := 1 <<< 17

def writeMoves (drain : Bool) : (fuel : Nat) → W → Pipe → List Bytes → Move → Written W
  | 0, w, pipe, out, _ => ⟨w, pipe, out, .blocked⟩
  | fuel + 1, w, pipe, out, move =>
    match move with
    | .crash => ⟨w, pipe, out, .crashed⟩
    | .finish result => ⟨w, pipe, out, .finished result⟩
    | .again =>
      let (w, move) := PacketWriter.resume w
      writeMoves drain fuel w pipe out move
    | .last chunk result =>
      match send drain pipe chunk with
      | (more, .accepted _ pipe) => ⟨w, pipe, out ++ more, .finished (.ok result)⟩
      | (more, .broken) => ⟨w, pipe, out ++ more, .finished (.error .pipeClosed)⟩
      | (more, .wait) => ⟨w, pipe, out ++ more, .blocked⟩
    | .emit chunk =>
      match send drain pipe chunk with
      | (more, .accepted _ pipe) =>
        let (w, move) := PacketWriter.resume w
        writeMoves drain fuel w pipe (out ++ more) move
      | (more, .broken) => ⟨w, pipe, out ++ more, .finished (.error .pipeClosed)⟩
      | (more, .wait) => ⟨w, pipe, out ++ more, .blocked⟩

/-- Write one packet without waiting. -/
def write (drain : Bool) (w : W) (pipe : Pipe) (packet : Bytes) : Written W :=
  let (w, move) := PacketWriter.accept w packet
  writeMoves drain moveLimit w pipe [] move

/-! ## Collecting the output -/

structure Collected (W : Type) where
  writer : W
  chunks : List Bytes
  ending : Ending

def collectMoves : (fuel : Nat) → W → List Bytes → Move → Collected W
  | 0, w, out, _ => ⟨w, out, .blocked⟩
  | fuel + 1, w, out, move =>
    match move with
    | .crash => ⟨w, out, .crashed⟩
    | .finish result => ⟨w, out, .finished result⟩
    | .again =>
      let (w, move) := PacketWriter.resume w
      collectMoves fuel w out move
    | .last chunk result => ⟨w, out ++ [chunk], .finished (.ok result)⟩
    | .emit chunk =>
      let (w, move) := PacketWriter.resume w
      collectMoves fuel w (out ++ [chunk]) move

/-- Write one packet into a pipe that is always drained. -/
def collect (w : W) (packet : Bytes) : Collected W :=
  let (w, move) := PacketWriter.accept w packet
  collectMoves moveLimit w [] move

end Headend.Media
