import Headend.Files

/-!
# FIFOs on disk

A FIFO hands a second input to a subprocess. It is removed once, when it is closed.
-/

namespace Headend.Hls

structure Fifo where
  path : String
  removed : Bool
  deriving Repr, DecidableEq

namespace Fifo

def fileName (id : String) : String := "pipe-" ++ id ++ ".fifo"

/-- Make a FIFO in a directory. -/
def create (fs : Files) (dir id : String) : Except Files.Fault (Files × Fifo) := do
  let path := Path.join dir (fileName id)
  return (← fs.create path .fifo, ⟨path, false⟩)

/-- Remove the FIFO, the first time. It does not matter if someone else already did. -/
def close (fs : Files) (f : Fifo) : Files × Fifo × Except Files.Fault Unit :=
  if f.removed then (fs, f, .ok ()) else
  let f := { f with removed := true }
  match fs.unlink f.path with
  | .ok fs => (fs, f, .ok ())
  | .error .notFound => (fs, f, .ok ())
  | .error e => (fs, f, .error e)

/-- Open the writing end; only what is a FIFO can be opened. -/
def openSender (fs : Files) (f : Fifo) : Except Files.Fault Unit := do
  match ← fs.find f.path with
  | (_, .fifo) => return ()
  | (_, .dir) => .error .isDirectory
  | (_, .file _) => .error .notFifo

end Fifo

end Headend.Hls
