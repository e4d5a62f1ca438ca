import Headend.Hls.Fifo

/-!
# Transcoding sessions

A processor runs the transcoder for one session: it makes an output directory with a FIFO in it,
starts the program, waits for it, and removes the directory. The session can be destroyed at any
time, also while it is being set up.

A call to transcode is a sequence of events, each of them what happens between two points at which
the call waits. The outside world decides whether directories, FIFOs and processes can be made and
how the program ends.
-/

namespace Headend.Hls

inductive TranscodeError where
  | spawn (cause : String)
  | namedPipe (cause : String)
  | io (cause : String)
  | exit (status : String)
  deriving Repr, DecidableEq

def TranscodeError.message : TranscodeError → String
  | spawn c => "failed to spawn transcoder: " ++ c
  | namedPipe c => "named pipe error: " ++ c
  | io c => "IO error: " ++ c
  | exit s => "transcoder exited: " ++ s

/-- How a program ends. -/
inductive Exit where
  | code (n : Nat)
  | signal (n : Nat)
  deriving Repr, DecidableEq

namespace Exit

/-- Names of the signals, from 1 on. -/
def signalNames : List String := [
  "SIGHUP", "SIGINT", "SIGQUIT", "SIGILL", "SIGTRAP", "SIGABRT", "SIGBUS", "SIGFPE", "SIGKILL",
  "SIGUSR1", "SIGSEGV", "SIGUSR2", "SIGPIPE", "SIGALRM", "SIGTERM", "SIGSTKFLT", "SIGCHLD",
  "SIGCONT", "SIGSTOP", "SIGTSTP", "SIGTTIN", "SIGTTOU", "SIGURG", "SIGXCPU", "SIGXFSZ",
  "SIGVTALRM", "SIGPROF", "SIGWINCH", "SIGIO", "SIGPWR", "SIGSYS"]

def toString : Exit → String
  | code n => s!"exit status: {n}"
  | signal n =>
    match if n = 0 then none else signalNames[n - 1]? with
    | some name => s!"signal: {n} ({name})"
    | none => s!"signal: {n}"

def result : Exit → Except TranscodeError Unit
  | code 0 => .ok ()
  | e => .error (.exit e.toString)

end Exit

structure Session where
  dir : Path
  manifest : Path
  fifo : Path
  deriving Repr, DecidableEq

/-- The session in a base directory that is named by an identifier, with one for its manifest. -/
def Session.named (base : Path) (id manifest : String) : Session :=
  let dir := base ++ [id ++ "-hls"]
  ⟨dir, dir ++ [manifest ++ ".m3u8"], dir ++ [Fifo.fileName "audio"]⟩

structure Processor where
  base : Path
  files : Files
  /-- Set by the first destruction and by the end of a call; nothing is started any more. -/
  killed : Bool
  session : Option Session
  /-- Directories left to be removed in the background. -/
  doomed : List Path
  deriving Repr, DecidableEq

namespace Processor

def new (base : Path) (files : Files) : Processor := ⟨base, files, false, none, []⟩

/-- Where the output is found while there is any. -/
def output? (p : Processor) : Option (Path × Path) := p.session.map fun s => (s.dir, s.manifest)

/-- Take the session away and close its FIFO. -/
def endSession (p : Processor) : Processor × Option Session :=
  match p.session with
  | none => ({ p with killed := true }, none)
  | some s => ({ p with killed := true, session := none, files := p.files.erase s.fifo }, some s)

/-- Stop the program and leave the directory to be removed. -/
def destroy (p : Processor) : Processor :=
  match p.endSession with
  | (p, none) => p
  | (p, some s) => { p with doomed := p.doomed ++ [s.dir] }

/-- Remove the first directory that is to be removed. -/
def removeDoomed (p : Processor) : Option Processor :=
  match p.doomed with
  | [] => none
  | dir :: rest => some { p with files := p.files.removeTree dir, doomed := rest }

end Processor

/-! ## Calls -/

inductive Phase where
  /-- Before the call begins, with the identifiers that it is going to draw. -/
  | called (id manifest : String)
  /-- The directory is being made. -/
  | making (s : Session)
  | made (s : Session)
  /-- The directory is removed again, because it could not get its FIFO. -/
  | discarding (dir : Path) (e : TranscodeError)
  | running
  /-- Waiting for the program to be gone. -/
  | stopping
  | removing (dir : Path) (result : Except TranscodeError Unit)
  | returned (result : Except TranscodeError Unit)

/-- What can go wrong once the directory is there. -/
inductive Trouble where
  | fifo (cause : String)
  | opening (cause : String)
  | spawning (cause : String)
  deriving Repr, DecidableEq

inductive Event where
  | begin
  /-- The directory is made, unless the system refuses. -/
  | makeDir (refusal : Option String)
  /-- The FIFO is made and the program started, unless there is trouble. -/
  | setUp (trouble : Option Trouble)
  | exit (status : Exit)
  /-- The program could not be waited for. -/
  | lose (cause : String)
  /-- Cancelled, or destroyed. -/
  | stop
  | stopped
  | remove
  deriving Repr, DecidableEq

/-- The end of a call: what is left of its session is removed before it returns. -/
def finish (p : Processor) (result : Except TranscodeError Unit) : Processor × Phase :=
  match p.endSession with
  | (p, none) => (p, .returned result)
  | (p, some s) => (p, .removing s.dir result)

/-- Make the FIFO in the directory of a session, and start the program. -/
def setUp (p : Processor) (s : Session) (trouble : Option Trouble) : Processor × Phase :=
  match trouble, p.files.putNew s.fifo .fifo with
  | some (.fifo cause), _ => (p, .discarding s.dir (.namedPipe cause))
  | _, .error e => (p, .discarding s.dir (.namedPipe e.message))
  | _, .ok files =>
    let p := { p with files := files, session := some s }
    if p.killed then finish p (.ok ()) else
    match trouble with
    | some (.opening cause) => finish p (.error (.namedPipe cause))
    | some (.spawning cause) => finish p (.error (.spawn cause))
    | _ => (p, .running)

/-- What an event does to a call, unless it cannot happen now. -/
def transcode (p : Processor) (cancelled : Bool) : Phase → Event → Option (Processor × Phase)
  | .called id manifest, .begin =>
    if p.killed then some (p, .returned (.error (.spawn "processor already destroyed")))
    else some (p, .making (.named p.base id manifest))
  | .making s, .makeDir refusal =>
    match refusal with
    | some cause => some (p, .returned (.error (.io cause)))
    | none =>
      match p.files.makePath s.dir with
      | .error e => some (p, .returned (.error (.io e.message)))
      | .ok files => some ({ p with files := files }, .made s)
  | .made s, .setUp trouble => some (setUp p s trouble)
  | .discarding dir e, .remove =>
    some ({ p with files := p.files.removeTree dir }, .returned (.error e))
  | .running, .exit status => some (finish p status.result)
  | .running, .lose cause => some (finish p (.error (.io cause)))
  | .running, .stop => if cancelled || p.killed then some (p, .stopping) else none
  | .stopping, .stopped => some (finish p (.ok ()))
  | .removing dir result, .remove =>
    some ({ p with files := p.files.removeTree dir }, .returned result)
  | _, _ => none

/-- The events in turn, leaving out those that cannot happen. -/
def transcodeAll (p : Processor) (cancelled : Bool) (phase : Phase) (events : List Event) :
    Processor × Phase :=
  events.foldl (fun (p, phase) e => (transcode p cancelled phase e).getD (p, phase)) (p, phase)

/-- A call up to the point where the program runs, or does not. -/
def launch (p : Processor) (id : String) (trouble : Option Trouble) : Processor × Phase :=
  transcodeAll p false (.called id id) [.begin, .makeDir none, .setUp trouble]

/-- The rest of a call whose program exits by itself if it is not stopped. -/
def conclude (p : Processor) (cancelled : Bool) (phase : Phase) (status : Exit) :
    Processor × Phase :=
  transcodeAll p cancelled phase [.stop, .exit status, .stopped, .remove]

/-- Remove all directories that are left to be removed. -/
def Processor.cleanUp (p : Processor) : Processor :=
  { p with files := p.doomed.foldl Files.removeTree p.files, doomed := [] }

end Headend.Hls
