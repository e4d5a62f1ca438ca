import Headend.Hls.Transcode
import Headend.Proofs.Files
import Headend.Proofs.Runs

/-!
# Histories of a call to transcode

A `Job` is a processor with one call on it. A `Move` is what may happen next: the call goes on, it
is cancelled, the processor is destroyed, the background removes a directory, or somebody else
changes the tree of files, as the transcoder does. Moves come in any order and as often as they can.
-/

namespace Headend.Hls

/-! ## What a call does -/

/-- The events of a call that can happen, with what is left of the processor and where the call
stands then. -/
inductive Goes (p : Processor) : Phase → Event → Processor → Phase → Prop where
  | barred {id manifest : String} (hkilled : p.killed = true) :
      Goes p (.called id manifest) .begin p
      (.returned (.error (.spawn "processor already destroyed")))
  | begun {id manifest : String} (halive : p.killed = false) :
      Goes p (.called id manifest) .begin p (.making (.named p.base id manifest))
  | refused {s : Session} {refusal : Option String} {e : TranscodeError} :
      Goes p (.making s) (.makeDir refusal) p (.returned (.error e))
  | made {s : Session} {files : Files} (hok : p.files.makePath s.dir = .ok files) :
      Goes p (.making s) (.makeDir none) { p with files := files } (.made s)
  | spoiled {s : Session} {trouble : Option Trouble} {e : TranscodeError} :
      Goes p (.made s) (.setUp trouble) p (.discarding s.dir e)
  /-- The session is published and taken back at once. -/
  | failed {s : Session} {trouble : Option Trouble} {files : Files}
      {result : Except TranscodeError Unit} (hok : p.files.putNew s.fifo .fifo = .ok files) :
      Goes p (.made s) (.setUp trouble)
        { p with killed := true, session := none, files := files.erase s.fifo }
        (.removing s.dir result)
  | ran {s : Session} {trouble : Option Trouble} {files : Files} (halive : p.killed = false)
      (hok : p.files.putNew s.fifo .fifo = .ok files) :
      Goes p (.made s) (.setUp trouble) { p with files := files, session := some s } .running
  | discarded {dir : Path} {e : TranscodeError} : Goes p (.discarding dir e) .remove
      { p with files := p.files.removeTree dir } (.returned (.error e))
  | ended {e : Event} {result : Except TranscodeError Unit} :
      Goes p .running e (finish p result).1 (finish p result).2
  | stopping : Goes p .running .stop p .stopping
  | stopped {result : Except TranscodeError Unit} :
      Goes p .stopping .stopped (finish p result).1 (finish p result).2
  | removed {dir : Path} {result : Except TranscodeError Unit} : Goes p (.removing dir result)
      .remove { p with files := p.files.removeTree dir } (.returned result)

theorem setUp_goes (p : Processor) (s : Session) (trouble : Option Trouble) :
    Goes p (.made s) (.setUp trouble) (setUp p s trouble).1 (setUp p s trouble).2 := by
  unfold setUp
  split
  case h_1 => exact .spoiled
  case h_2 => exact .spoiled
  case h_3 hfiles hok =>
    by_cases hkilled : p.killed = true
    · rw [if_pos hkilled]
      exact .failed hok
    · rw [if_neg hkilled]
      split
      case h_1 => exact .failed hok
      case h_2 => exact .failed hok
      case h_3 => exact .ran (eq_false_of_ne_true hkilled) hok

theorem transcode_goes {p p' : Processor} {cancelled : Bool} {phase phase' : Phase} {e : Event}
    (h : transcode p cancelled phase e = some (p', phase')) : Goes p phase e p' phase' := by
  unfold transcode at h
  split at h
  case h_1 =>
    split at h <;> cases h
    case isTrue hkilled => exact .barred hkilled
    case isFalse halive => exact .begun (eq_false_of_ne_true halive)
  case h_2 =>
    split at h
    case h_1 =>
      cases h
      exact .refused
    case h_2 =>
      split at h <;> cases h
      case h_1 => exact .refused
      case h_2 hok => exact .made hok
  case h_3 s trouble =>
    have hgoes := setUp_goes p s trouble
    rwa [Option.some.inj h] at hgoes
  case h_4 =>
    cases h
    exact .discarded
  case h_5 status =>
    have hgoes : Goes p .running (.exit status) (finish p status.result).1
      (finish p status.result).2 := .ended
    rwa [Option.some.inj h] at hgoes
  case h_6 cause =>
    have hgoes : Goes p .running (.lose cause) (finish p (.error (.io cause))).1
      (finish p (.error (.io cause))).2 := .ended
    rwa [Option.some.inj h] at hgoes
  case h_7 =>
    split at h <;> cases h
    exact .stopping
  case h_8 =>
    have hgoes : Goes p .stopping .stopped (finish p (.ok ())).1 (finish p (.ok ())).2 := .stopped
    rwa [Option.some.inj h] at hgoes
  case h_9 =>
    cases h
    exact .removed
  case h_10 => cases h

/-! ## Moves -/

structure Job where
  processor : Processor
  phase : Phase
  cancelled : Bool

inductive Move where
  /-- The call goes on. -/
  | step (e : Event)
  | cancel
  | destroy
  /-- A directory is removed in the background. -/
  | remove
  /-- Somebody else puts something into a directory. -/
  | put (path : Path) (node : Files.Node)
  /-- Somebody else removes something, with all below it. -/
  | discard (path : Path)
  deriving DecidableEq

namespace Job

/-- A new processor that is going to be called. -/
def new (base : Path) (files : Files) (id manifest : String) : Job :=
  ⟨.new base files, .called id manifest, false⟩

def files (j : Job) : Files := j.processor.files

/-- Only the processor or its files change. -/
def withProcessor (j : Job) (p : Processor) : Job := { j with processor := p }

/-- The job after a move, if it can be made. -/
def advance (j : Job) : Move → Option Job
  | .step e =>
    (transcode j.processor j.cancelled j.phase e).map fun (p, phase) => ⟨p, phase, j.cancelled⟩
  | .cancel => some { j with cancelled := true }
  | .destroy => some (j.withProcessor j.processor.destroy)
  | .remove => j.processor.removeDoomed.map j.withProcessor
  | .put path node =>
    (j.files.putNew path node).toOption.map fun files =>
      j.withProcessor { j.processor with files := files }
  | .discard path =>
    some (j.withProcessor { j.processor with files := j.files.removeTree path })

def play (j : Job) (ms : List Move) : Option Job := ms.foldlM advance j

/-- The call has returned, and nothing is left to be done in the background. -/
def Over (j : Job) : Prop := (∃ result, j.phase = .returned result) ∧ j.advance .remove = none

/-- A job whose transcoder runs, with what others have put into the tree of files since. -/
def launched (others : List (Path × Files.Node)) : Job :=
  ⟨⟨["tmp"], ⟨[(["tmp"], .dir), (["tmp", "s-hls"], .dir),
    (["tmp", "s-hls", "pipe-audio.fifo"], .fifo)] ++ others⟩, false,
    some (.named ["tmp"] "s" "m"), []⟩, .running, false⟩

variable {j j' : Job} {m : Move} {ms before after : List Move}

theorem play_launched : (new ["tmp"] .empty "s" "m").play
    [.step .begin, .step (.makeDir none), .step (.setUp none)] = some (launched []) := by
  have hmade : Files.empty.makePath (Session.named ["tmp"] "s" "m").dir
      = .ok ⟨[(["tmp"], .dir), (["tmp", "s-hls"], .dir)]⟩ := by
    rw [Files.makePath, Files.permit_eq_ok.mpr ⟨by decide, by decide⟩]
    rfl
  have hgoesOn : advance ⟨.new ["tmp"] .empty, .making (.named ["tmp"] "s" "m"), false⟩
      (.step (.makeDir none)) = some ⟨⟨["tmp"], ⟨[(["tmp"], .dir), (["tmp", "s-hls"], .dir)]⟩,
        false, none, []⟩, .made (.named ["tmp"] "s" "m"), false⟩ := by
    simp only [advance, Processor.new, transcode, hmade]
    rfl
  exact Runs.foldlM_cons_eq_some.mpr
    ⟨_, rfl, Runs.foldlM_cons_eq_some.mpr ⟨_, hgoesOn, rfl⟩⟩

/-! ## What a move does -/

/-- The moves that can be made, and what they make of a job. -/
inductive Happens (j : Job) : Move → Job → Prop where
  | step {e : Event} {p : Processor} {phase : Phase} (hgoes : Goes j.processor j.phase e p phase) :
      Happens j (.step e) ⟨p, phase, j.cancelled⟩
  | cancel : Happens j .cancel { j with cancelled := true }
  | destroy : Happens j .destroy (j.withProcessor j.processor.destroy)
  | remove {dir : Path} {rest : List Path} (hdue : j.processor.doomed = dir :: rest) :
      Happens j .remove (j.withProcessor
        { j.processor with files := j.files.removeTree dir, doomed := rest })
  | put {path : Path} {node : Files.Node} {files : Files}
      (hok : j.files.putNew path node = .ok files) :
      Happens j (.put path node) (j.withProcessor { j.processor with files := files })
  | discard {path : Path} : Happens j (.discard path)
      (j.withProcessor { j.processor with files := j.files.removeTree path })

theorem advance_happens (h : j.advance m = some j') : j.Happens m j' := by
  cases m with
  | step e =>
    obtain ⟨⟨p, phase⟩, hcalled, rfl⟩ := Option.map_eq_some_iff.mp h
    exact .step (transcode_goes hcalled)
  | cancel => exact Option.some.inj h ▸ .cancel
  | destroy => exact Option.some.inj h ▸ .destroy
  | remove =>
    obtain ⟨p, hremoved, rfl⟩ := Option.map_eq_some_iff.mp h
    rw [Processor.removeDoomed] at hremoved
    split at hremoved
    case h_1 => cases hremoved
    case h_2 dir rest hdue => exact Option.some.inj hremoved ▸ .remove hdue
  | put path node =>
    obtain ⟨files, hok, rfl⟩ := Option.map_eq_some_iff.mp h
    cases hmade : j.files.putNew path node with
    | error e =>
      rw [hmade] at hok
      cases hok
    | ok files' =>
      rw [hmade] at hok
      cases hok
      exact .put hmade
  | discard path => exact Option.some.inj h ▸ .discard

end Job

end Headend.Hls
