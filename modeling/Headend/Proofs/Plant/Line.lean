import Headend.Plant.Track
import Headend.Proofs.Plant.Sinks

/-!
# From a muxer to its consumer

The way of a chunk: a muxer behind a lane of a fan-out puts it into a pipe of its own, a relay
copies it to the target pipe, and a consumer reads it there. `Line` is a plant with these parts and
no others. `Sound` says at every moment where the chunks are that the muxer has put out, and who may
let go of which pipe when; each task keeps it.
-/

namespace Headend.Plant

open Media Media.Fanout

/-! ## The parts -/

/-- What the relay is doing. -/
inductive Carry where
  | waiting
  | taken (chunk : Bytes)
  | sending (chunk : Bytes)
  | served (chunk : Bytes)
  | ended
  deriving DecidableEq

namespace Carry

/-- The chunk that was taken out of one pipe and not yet put into the other. -/
def hand : Carry → List Bytes
  | taken chunk | sending chunk => [chunk]
  | _ => []

def phase : Carry → Relay.Phase
  | waiting => .waiting
  | taken chunk | sending chunk => .serving chunk 0
  | served chunk => .serving chunk 1
  | ended => .ended

def move : Carry → Option Move
  | sending chunk => some (.last chunk chunk.length)
  | _ => none

def relay (c : Carry) (copied : Nat) : Relay :=
  ⟨0, 1, [⟨.forward, some 0, c.move⟩], c.phase, copied⟩

end Carry

/-- A consumer that reads the first pipe and lets go of nothing. -/
def reader (spent : Bool) (received : List Bytes) : Consumer :=
  ⟨.consume, 1, false, .both 0, ⟨spent, true⟩, ⟨received, []⟩, .running⟩

structure Line where
  /-- Whether the first token, that of the fan-out and the relay, is cancelled. -/
  cut : Bool
  target : Pipe
  inner : Pipe
  fan : Fan
  carry : Carry
  copied : Nat
  /-- Whether the consumer has seen the end. -/
  spent : Bool
  received : List Bytes

namespace Line

def pipes (x : Line) : Pipes := [x.target, x.inner]

def plant (x : Line) : Plant where
  tokens := ⟨[⟨x.cut, []⟩, ⟨false, []⟩]⟩
  pipes := x.pipes
  fans := [x.fan]
  relays := [x.carry.relay x.copied]
  consumers := [reader x.spent x.received]
  links := []

/-- The chunks that the muxer has put out. -/
def made (x : Line) : List Bytes :=
  x.received ++ x.target.queue ++ x.carry.hand ++ x.inner.queue

/-! ## The muxer -/

/-- The muxer was handed the packets `H` and has put out the chunks `made`. -/
inductive Muxed (m : Muxer) (H made : List Bytes) (lost : Prop) (s : Sink) : Worker → Prop where
  | idle (hwriter : s.writer = .muxer (collectAll m H).1) (hall : made = (collectAll m H).2) :
      Muxed m H made lost s .idle
  | writing {p : Bytes} {rest : List Bytes} (howing : s.Owing rest (collectAll m H).1)
      (hall : made ++ rest = (collectAll m H).2) : Muxed m H made lost s (.writing p)
  | ended (hfirst : made <+: (collectAll m H).2) (hwhole : ¬ lost → made = (collectAll m H).2) :
      Muxed m H made lost s .ended

variable {m : Muxer} {H made : List Bytes} {lost : Prop} {s : Sink} {w : Worker}

theorem Muxed.prefix_collectAll (h : Muxed m H made lost s w) : made <+: (collectAll m H).2 := by
  cases h with
  | idle hwriter hall => exact hall ▸ List.prefix_rfl
  | writing howing hall => exact ⟨_, hall⟩
  | ended hfirst => exact hfirst

theorem Muxed.mono (h : Muxed m H made lost s w) {lost' : Prop} (himp : lost → lost') :
    Muxed m H made lost' s w := by
  cases h with
  | idle hwriter hall => exact .idle hwriter hall
  | writing howing hall => exact .writing howing hall
  | ended hfirst hwhole => exact .ended hfirst fun hkept => hwhole fun h => hkept (himp h)

/-- Once packets can be lost, the worker may as well end. -/
theorem Muxed.abort (h : Muxed m H made lost s w) {lost' : Prop} (hlost : lost') {s' : Sink} :
    Muxed m H made lost' s' .ended :=
  .ended h.prefix_collectAll fun h => absurd hlost h

/-! ## What holds at every moment -/

/-- The fan-out at the beginning: the muxer is its last sink, and no other has a target. -/
def fan₀ (readings : List Reading) (hangs : Bool) (others : List Sink) (m : Muxer) : Fan :=
  .new 0 (.script readings hangs) false (others ++ [.new (.muxer m) (some 1)])

structure Sound (readings : List Reading) (hangs : Bool) (others : List Sink) (m : Muxer)
    (es : List Event) (x : Line) : Prop where
  cut : x.cut = decide (.cancelled ∈ es)
  run : Fan.Run (fan₀ readings hangs others m) es x.fan
  source : ∃ rs, x.fan.source = .script rs hangs
  target : x.target.Intact
  inner : x.inner.Intact
  /-- Nobody lets go of a pipe before it is done with it. -/
  held : x.target.readerGone = false
  innerReader : x.inner.readerGone = true → x.carry = .ended
  innerWriter : x.inner.writerGone = true ↔ x.fan.core.worker others.length = .ended
  targetWriter : x.target.writerGone = true ↔ x.carry = .ended
  /-- What is upstream ends first, unless all is cancelled. -/
  carried : .cancelled ∉ es → x.carry = .ended →
    x.inner.queue = [] ∧ x.fan.core.worker others.length = .ended
  spent : x.spent = true → x.target.queue = [] ∧ x.carry = .ended
  unfailed : .cancelled ∉ es → .failed others.length ∉ es
  muxed : ∃ s, x.fan.sinks[others.length]? = some s ∧
    Muxed m (handedTo others.length es) x.made (Gone others.length es ∨ .cancelled ∈ es) s
      (x.fan.core.worker others.length)

section Sound

variable {readings : List Reading} {hangs : Bool} {others : List Sink} {es ev : List Event}
  {x : Line}
  {fan : Fan} {pipes : Pipes} {i : Nat}

theorem Sound.targets (h : Sound readings hangs others m es x) :
    x.fan.sinks.map Sink.target = others.map Sink.target ++ [some 1] := by
  have := h.run.targets
  simpa [fan₀, Fan.new, Sink.new] using this

/-- A step of the fan-out that leaves the muxer's lane alone. -/
theorem Sound.quiet (h : Sound readings hangs others m es x)
    (hrun : Fan.Run (fan₀ readings hangs others m) (es ++ ev) fan)
    (hsource : fan.source = x.fan.source ∨ ∃ rs, fan.source = .script rs hangs)
    (hworker : fan.core.worker others.length = x.fan.core.worker others.length)
    (hsinks : fan.sinks[others.length]? = x.fan.sinks[others.length]?)
    (huncut : .cancelled ∉ ev)
    (hunseen : handedTo others.length ev = [] ∧ .failed others.length ∉ ev ∧
      .crashed others.length ∉ ev) :
    Sound readings hangs others m (es ++ ev) { x with fan := fan } := by
  obtain ⟨hhanded, hfailed, hcrashed⟩ := hunseen
  have hcut : Event.cancelled ∈ es ++ ev ↔ .cancelled ∈ es := by simp [huncut]
  have hgone : Gone others.length (es ++ ev) ↔ Gone others.length es := by
    simp [Gone, hfailed, hcrashed]
  obtain ⟨s, hs, hmuxed⟩ := h.muxed
  refine ⟨?_, hrun, ?_, h.target, h.inner, h.held, h.innerReader, ?_, h.targetWriter, ?_, h.spent,
    ?_, s, by rw [hsinks, hs], ?_⟩
  · simp only [hcut]
    exact h.cut
  · exact hsource.elim (fun heq => heq ▸ h.source) id
  · rw [hworker]
    exact h.innerWriter
  · rw [hcut, hworker]
    exact h.carried
  · intro hnone hmem
    exact h.unfailed (hcut.not.mp hnone) ((List.mem_append.mp hmem).resolve_right hfailed)
  · simp only [hcut, hgone, hworker, handedTo_append, hhanded, List.append_nil]
    exact hmuxed

/-! ## The loop -/

/-- All that the sinks let go of together is the muxer's pipe. -/
theorem Sound.drop_sinks (h : Sound readings hangs others m es x)
    (hidle : ∀ s ∈ others, s.target = none) :
    x.fan.sinks.foldl (fun ps s => s.drop ps) x.pipes = [x.target, x.inner.dropWriter] := by
  have hdrop (sinks : List Sink) (ps : Pipes) : sinks.foldl (fun ps s => s.drop ps) ps =
      (sinks.map Sink.target).foldl
        (fun ps target => target.elim ps fun k => ps.update k Pipe.dropWriter) ps := by
    rw [List.foldl_map]
    congr 1
    funext ps s
    unfold Sink.drop
    cases s.target <;> rfl
  have hothers (sinks : List Sink) (ps : Pipes) (hnone : ∀ s ∈ sinks, s.target = none) :
      (sinks.map Sink.target).foldl
        (fun ps target => target.elim ps fun k => ps.update k Pipe.dropWriter) ps = ps := by
    induction sinks with
    | nil => rfl
    | cons s sinks ih =>
      obtain ⟨hs, hsinks⟩ := List.forall_mem_cons.mp hnone
      rw [List.map_cons, hs]
      exact ih hsinks
  rw [hdrop, h.targets, List.foldl_append, hothers _ _ hidle]
  rfl

/-- The loop returns. Cancelled, it ends everything, whatever the muxer still has to put out. -/
theorem Sound.close {core : Fanout} (h : Sound readings hangs others m es x)
    (hidle : ∀ s ∈ others, s.target = none)
    (hrun : Fan.Run (fan₀ readings hangs others m) (es ++ []) { x.fan with core := core })
    (hstep : x.fan.core.close x.cut = some core) :
    ∃ inner,
      (if x.cut then x.fan.sinks.foldl (fun ps s => s.drop ps) x.pipes else x.pipes) =
        [x.target, inner] ∧
      Sound readings hangs others m (es ++ [])
        { x with fan := { x.fan with core := core }, inner := inner } := by
  have hunseen : handedTo others.length [] = [] ∧ Event.failed others.length ∉ [] ∧
      Event.crashed others.length ∉ [] := ⟨rfl, List.not_mem_nil, List.not_mem_nil⟩
  unfold Fanout.close at hstep
  split at hstep
  · cases hstep
  · split at hstep
    · rename_i hcut
      cases hstep
      have hmem : .cancelled ∈ es ++ [] := by simpa [h.cut] using hcut
      have hended : (x.fan.core.lanes.map Lane.finish)[others.length]?.elim .ended Lane.worker =
          .ended := by
        rw [List.getElem?_map]
        cases x.fan.core.lanes[others.length]? <;> rfl
      rw [if_pos hcut, h.drop_sinks hidle]
      obtain ⟨s, hs, hmuxed⟩ := h.muxed
      refine ⟨_, rfl, by simpa using h.cut, hrun, h.source, h.target, h.inner.dropWriter, h.held,
        h.innerReader, ⟨fun _ => hended, fun _ => rfl⟩, h.targetWriter, ?_, h.spent, ?_, s, hs, ?_⟩
      · exact fun hnone => absurd hmem hnone
      · exact fun hnone => absurd hmem hnone
      · rw [List.append_nil, Fanout.worker, hended]
        exact hmuxed.abort (.inr (by simpa using hmem))
    · rename_i hcut
      rw [if_neg hcut]
      split at hstep
      · cases hstep
        exact ⟨x.inner, rfl, h.quiet hrun (.inl rfl) rfl rfl List.not_mem_nil hunseen⟩
      · cases hstep

theorem Sound.loop (h : Sound readings hangs others m es x) (hidle : ∀ s ∈ others, s.target = none)
    (hstep₀ : x.fan.loop x.cut x.pipes = some (fan, pipes)) :
    ∃ inner, pipes = [x.target, inner] ∧
      Sound readings hangs others m (es ++ x.fan.loopEvents x.cut x.pipes)
        { x with fan := fan, inner := inner } := by
  have hrun :
      Fan.Run (fan₀ readings hangs others m) (es ++ x.fan.loopEvents x.cut x.pipes) fan := by
    have := h.cut ▸ hstep₀
    rw [h.cut]
    exact .loop h.run this
  have hstep := Fan.loop_cases hstep₀
  generalize x.fan.loopEvents x.cut x.pipes = ev at hrun hstep
  have huncut := hstep.core.not_cancelled
  have hunseen := hstep.unseen others.length
  obtain ⟨rs, hsource⟩ := h.source
  cases hstep with
  | interrupt =>
    exact ⟨x.inner, rfl, h.quiet hrun (.inl rfl) rfl rfl huncut hunseen⟩
  | @read r source _ core hlive hanswer hcore =>
    obtain ⟨rfl, hscript⟩ : pipes = x.pipes ∧ ∃ rs', source = .script rs' hangs := by
      rw [hsource] at hanswer
      cases rs with
      | nil =>
        cases hangs with
        | true => cases hanswer
        | false =>
          cases hanswer
          exact ⟨rfl, [], rfl⟩
      | cons r rs =>
        cases hanswer
        exact ⟨rfl, rs, rfl⟩
    exact ⟨x.inner, rfl, h.quiet hrun (.inr hscript) (Fan.read_worker hcore _) rfl huncut hunseen⟩
  | offer hoffering hcore =>
    exact ⟨x.inner, rfl, h.quiet hrun (.inl rfl) (Fan.offer_worker hcore _) rfl huncut hunseen⟩
  | close hcore =>
    have hdrop (ps : Pipes) : x.fan.source.drop ps = ps := by
      rw [hsource]
      rfl
    rw [hdrop]
    exact h.close hidle hrun hcore

/-! ## The lanes -/

theorem Sound.target_eq (h : Sound readings hangs others m es x)
    (hidle : ∀ s ∈ others, s.target = none) (hsink : x.fan.sinks[i]? = some s) :
    s.target = if i = others.length then some 1 else none := by
  have htarget : (others.map Sink.target ++ [some 1])[i]? = some s.target := by
    rw [← h.targets, List.getElem?_map, hsink]
    rfl
  rcases Nat.lt_trichotomy i others.length with hlt | rfl | hgt
  · rw [List.getElem?_append_left (by simpa using hlt)] at htarget
    have hmem := List.mem_of_getElem? htarget
    obtain ⟨s', hs', heq⟩ := List.mem_map.mp hmem
    rw [if_neg (Nat.ne_of_lt hlt), ← heq, hidle s' hs']
  · simpa using htarget.symm
  · rw [List.getElem?_eq_none (by simpa using Nat.succ_le_of_lt hgt)] at htarget
    cases htarget

theorem drop_pipes (x : Line) (htarget : s.target = some 1) :
    s.drop x.pipes = [x.target, x.inner.dropWriter] := by
  rw [Sink.drop, htarget]
  rfl

/-- A step of the muxer's lane. -/
theorem Sound.own (h : Sound readings hangs others m es x) {inner : Pipe}
    (hrun : Fan.Run (fan₀ readings hangs others m) (es ++ ev) fan)
    (hsource : fan.source = x.fan.source) (hlive : x.fan.core.worker others.length ≠ .ended)
    (hintact : inner.Intact)
    (hreader : inner.readerGone = x.inner.readerGone)
    (hwriter : inner.writerGone = true ↔ fan.core.worker others.length = .ended)
    (huncut : .cancelled ∉ ev) (hunfailed : .cancelled ∉ es → .failed others.length ∉ ev)
    (hsink : fan.sinks[others.length]? = some s)
    (hmuxed : Muxed m (handedTo others.length (es ++ ev))
      (x.received ++ x.target.queue ++ x.carry.hand ++ inner.queue)
      (Gone others.length (es ++ ev) ∨ .cancelled ∈ es ++ ev) s (fan.core.worker others.length)) :
    Sound readings hangs others m (es ++ ev) { x with fan := fan, inner := inner } := by
  have hcut : Event.cancelled ∈ es ++ ev ↔ .cancelled ∈ es := by simp [huncut]
  refine ⟨?_, hrun, hsource ▸ h.source, h.target, hintact, h.held, ?_, hwriter, h.targetWriter, ?_,
    h.spent, ?_, s, hsink, hmuxed⟩
  · simp only [hcut]
    exact h.cut
  · rw [hreader]
    exact h.innerReader
  · intro hnone hended
    exact absurd (h.carried (hcut.not.mp hnone) hended).2 hlive
  · intro hnone hmem
    have hnone := hcut.not.mp hnone
    exact (List.mem_append.mp hmem).elim (h.unfailed hnone) (hunfailed hnone)

/-- The muxer's sink is lost. -/
theorem Sound.lose {e : Event} (h : Sound readings hangs others m es x)
    (hrun : Fan.Run (fan₀ readings hangs others m) (es ++ [e]) fan)
    (hsource : fan.source = x.fan.source) (hlive : x.fan.core.worker others.length ≠ .ended)
    (hended : fan.core.worker others.length = .ended)
    (hlost : e = .failed others.length ∨ e = .crashed others.length)
    (hunfailed : .cancelled ∉ es → .failed others.length ∉ [e])
    (hsink : fan.sinks[others.length]? = some s) :
    Sound readings hangs others m (es ++ [e])
      { x with fan := fan, inner := x.inner.dropWriter } := by
  obtain ⟨s', -, hmuxed⟩ := h.muxed
  have hgone : Gone others.length (es ++ [e]) := by
    rcases hlost with rfl | rfl <;> simp [Gone]
  have hhanded : handedTo others.length (es ++ [e]) = handedTo others.length es := by
    rcases hlost with rfl | rfl <;> simp [handedTo]
  have huncut : .cancelled ∉ [e] := by
    rcases hlost with rfl | rfl <;> simp
  refine h.own hrun hsource hlive h.inner.dropWriter rfl ⟨fun _ => hended, fun _ => rfl⟩
    huncut hunfailed
    hsink ?_
  rw [hended, hhanded]
  exact hmuxed.abort (Or.inl hgone)

/-- While the worker writes, its sink puts out a part of what the muxer owes. -/
theorem Sound.moved {p : Bytes} {next : Sink} {progress : Sink.Progress}
    (h : Sound readings hangs others m es x) (hidle : ∀ s ∈ others, s.target = none)
    (hnarrow : m.assembler.Narrow) (hwriting : x.fan.core.worker others.length = .writing p)
    (hsink : x.fan.sinks[others.length]? = some s)
    (hadvance : s.advance x.pipes = some (next, pipes, progress)) :
    ∃ rest, s.Moved rest (collectAll m (handedTo others.length es)).1 x.pipes 1 x.inner next pipes
        progress ∧
      x.made ++ rest = (collectAll m (handedTo others.length es)).2 := by
  obtain ⟨s', hs, hmuxed⟩ := h.muxed
  obtain rfl : s' = s := Option.some.inj (hs.symm.trans hsink)
  rw [hwriting] at hmuxed
  cases hmuxed with
  | @writing _ rest howing hall =>
    have htarget : s'.target = some 1 := by rw [h.target_eq hidle hsink, if_pos rfl]
    have hpipe : x.pipes[1]? = some x.inner := rfl
    have hnonempty : ∀ chunk ∈ rest, chunk ≠ [] := by
      intro chunk hchunk
      apply (Muxer.collectAll_ends hnarrow (handedTo others.length es)).2 chunk
      rw [← hall]
      exact List.mem_append_right _ hchunk
    exact ⟨rest, howing.advance htarget hpipe hnonempty hadvance, hall⟩

/-- The muxer's lane makes a step. -/
theorem Sound.muxer_lane (h : Sound readings hangs others m es x)
    (hidle : ∀ s ∈ others, s.target = none) (hnarrow₀ : m.assembler.Narrow)
    (hrun : Fan.Run (fan₀ readings hangs others m) (es ++ ev) fan)
    (hstep : Fan.LaneStep x.fan others.length x.pipes ev fan pipes) :
    ∃ inner, pipes = [x.target, inner] ∧
      Sound readings hangs others m (es ++ ev) { x with fan := fan, inner := inner } := by
  obtain ⟨s, hs, hmuxed⟩ := h.muxed
  have htarget : s.target = some 1 := by rw [h.target_eq hidle hs, if_pos rfl]
  have hset {next : Sink} : (x.fan.sinks.set others.length next)[others.length]? = some next := by
    simp [(List.getElem?_eq_some_iff.mp hs).1]
  cases hstep with
  | @hand p rest _ hown hlane =>
    -- One packet more was handed over, and all that comes of it is owed.
    obtain rfl := Option.some.inj (hs.symm.trans hown)
    have hworker : x.fan.core.worker others.length = .idle := worker_eq hlane
    have hhanded : handedTo others.length (es ++ [.handed others.length p]) =
        handedTo others.length es ++ [p] := by simp [handedTo]
    rw [hworker] at hmuxed
    cases hmuxed with
    | idle hwriter hall =>
      have hnarrow := (Muxer.collectAll_ends hnarrow₀ (handedTo others.length es)).1
      refine ⟨x.inner, rfl, h.own hrun rfl (by simp [hworker]) h.inner rfl ?_ (by simp) (by simp)
        hset ?_⟩
      · rw [h.innerWriter, hworker, worker_setLane hlane]
        simp
      · rw [worker_setLane hlane, hhanded]
        have howed := Sink.owing_start hwriter hnarrow p
        refine .writing (by rw [collectAll_concat]; exact howed) ?_
        rw [collectAll_concat]
        exact congrArg (· ++ _) hall
  | @retire _ hown hlane hclosing =>
    -- Between two packets the muxer owes nothing.
    obtain rfl := Option.some.inj (hs.symm.trans hown)
    have hworker : x.fan.core.worker others.length = .idle := worker_eq hlane
    rw [hworker] at hmuxed
    cases hmuxed with
    | idle hwriter hall =>
      refine ⟨x.inner.dropWriter, x.drop_pipes htarget, h.own hrun rfl (by simp [hworker])
        h.inner.dropWriter rfl ?_ (by simp) (by simp) hset ?_⟩
      · rw [worker_setLane hlane]
        exact ⟨fun _ => rfl, fun _ => rfl⟩
      · rw [worker_setLane hlane, List.append_nil]
        exact .ended (hall ▸ List.prefix_rfl) fun _ => hall
  | @work q p _ next _ hown hlane hadvance =>
    have hworker : x.fan.core.worker others.length = .writing p := worker_eq hlane
    obtain ⟨rest, hmoved, hall⟩ := h.moved hidle hnarrow₀ hworker hown hadvance
    cases hmoved with
    | @working _ sent rest' hsplit htarget₀ howing =>
      refine ⟨{ x.inner with queue := x.inner.queue ++ sent }, rfl,
        h.own hrun rfl (by simp [hworker]) (h.inner.queue _) rfl h.innerWriter (by simp) (by simp)
          hset ?_⟩
      rw [hworker, List.append_nil]
      refine .writing howing ?_
      rw [← hall, hsplit]
      simp [made]
  | @free q p _ next _ result hown hlane hadvance hpassing =>
    -- The last of what was owed goes into the pipe; a broken one would have ended the lane.
    have hworker : x.fan.core.worker others.length = .writing p := worker_eq hlane
    obtain ⟨rest, hmoved, hall⟩ := h.moved hidle hnarrow₀ hworker hown hadvance
    cases hmoved with
    | done =>
      have hgone : x.inner.writerGone ≠ true := by simp [h.innerWriter, hworker]
      refine ⟨{ x.inner with queue := x.inner.queue ++ rest }, rfl,
        h.own hrun rfl (by simp [hworker]) (h.inner.queue _) rfl ?_ (by simp) (by simp) hset ?_⟩
      · rw [worker_setLane hlane]
        simp [hgone]
      · rw [worker_setLane hlane, List.append_nil]
        refine .idle rfl ?_
        rw [← hall]
        simp [made]
    | broken htarget₀ hbroken => cases hpassing _ rfl
  | @fail q p _ next _ e hown hlane hadvance hterminal =>
    obtain rfl := Option.some.inj (hs.symm.trans hown)
    have hworker : x.fan.core.worker others.length = .writing p := worker_eq hlane
    obtain ⟨rest, hmoved, -⟩ := h.moved hidle hnarrow₀ hworker hown hadvance
    cases hmoved with
    | done hpassing => cases hterminal.symm.trans (hpassing e rfl)
    | broken htarget₀ hbroken =>
      -- The relay has let go of the pipe; so all is cancelled, for the muxer was not done.
      have hrelay : x.carry = .ended := h.innerReader (Pipe.readerGone_of_broken h.inner hbroken)
      have hunfailed : .cancelled ∉ es → .failed others.length ∉ [Event.failed others.length] := by
        intro hnone
        have hended := (h.carried hnone hrelay).2
        cases hworker.symm.trans hended
      exact ⟨x.inner.dropWriter, x.drop_pipes (htarget₀.trans htarget), h.lose hrun rfl
        (by simp [hworker]) (worker_setLane hlane) (.inl rfl) hunfailed hset⟩
  | @crash q p _ next _ hown hlane hadvance =>
    obtain rfl := Option.some.inj (hs.symm.trans hown)
    have hworker : x.fan.core.worker others.length = .writing p := worker_eq hlane
    obtain ⟨rest, hmoved, -⟩ := h.moved hidle hnarrow₀ hworker hown hadvance
    cases hmoved with
    | crashed htarget₀ =>
      exact ⟨x.inner.dropWriter, x.drop_pipes (htarget₀.trans htarget), h.lose hrun rfl
        (by simp [hworker]) (worker_setLane hlane) (.inr rfl) (by simp) hset⟩

/-- Another lane makes a step. Its sink has no pipe. -/
theorem Sound.other_lane (h : Sound readings hangs others m es x)
    (hidle : ∀ s ∈ others, s.target = none) (hne : i ≠ others.length)
    (hrun : Fan.Run (fan₀ readings hangs others m) (es ++ ev) fan)
    (hstep : Fan.LaneStep x.fan i x.pipes ev fan pipes) :
    pipes = x.pipes ∧ Sound readings hangs others m (es ++ ev) { x with fan := fan } := by
  obtain ⟨sink, hsink⟩ : ∃ sink, x.fan.sinks[i]? = some sink := by
    cases hstep <;> exact ⟨_, ‹_›⟩
  have htarget : sink.target = none := by rw [h.target_eq hidle hsink, if_neg hne]
  obtain ⟨hworker, hsinks, hunseen⟩ := hstep.apart (Ne.symm hne)
  have hsource : fan.source = x.fan.source := by cases hstep <;> rfl
  have hcore : Step false x.fan.core ev fan.core := hstep.core
  exact ⟨hstep.pipes_eq hsink htarget,
    h.quiet hrun (.inl hsource) hworker hsinks hcore.not_cancelled hunseen⟩

theorem Sound.lane (h : Sound readings hangs others m es x) (hidle : ∀ s ∈ others, s.target = none)
    (hnarrow : m.assembler.Narrow) (hstep₀ : x.fan.lane i x.pipes = some (fan, pipes)) :
    ∃ inner, pipes = [x.target, inner] ∧
      Sound readings hangs others m (es ++ x.fan.laneEvents i x.pipes)
        { x with fan := fan, inner := inner } := by
  have hrun : Fan.Run (fan₀ readings hangs others m) (es ++ x.fan.laneEvents i x.pipes) fan :=
    .lane i h.run hstep₀
  have hstep := Fan.lane_cases hstep₀
  by_cases hne : i = others.length
  · subst hne
    exact h.muxer_lane hidle hnarrow hrun hstep
  · exact ⟨x.inner, h.other_lane hidle hne hrun hstep⟩

/-! ## The relay -/

/-- The ways for the relay to make a step. -/
inductive RelayStep (cut : Bool) (target inner : Pipe) (copied : Nat) :
    Carry → Relay → Pipes → Prop where
  | finish (hthrough : cut = true ∨ inner.queue = [] ∧ inner.writerGone = true) :
      RelayStep cut target inner copied .waiting (Carry.ended.relay copied)
        [target.dropWriter, inner.dropReader]
  | take {chunk : Bytes} {rest : List Bytes} (hqueue : inner.queue = chunk :: rest) :
      RelayStep cut target inner copied .waiting ((Carry.taken chunk).relay (copied + chunk.length))
        [target, { inner with queue := rest }]
  | start (chunk : Bytes) :
      RelayStep cut target inner copied (.taken chunk) ((Carry.sending chunk).relay copied)
        [target, inner]
  | send {chunk : Bytes} {n : Nat} {q : Pipe} (haccepted : target.offer chunk = .accepted n q) :
      RelayStep cut target inner copied (.sending chunk) ((Carry.served chunk).relay copied)
        [q, inner]
  | fail {chunk : Bytes} (hbroken : target.offer chunk = .broken) :
      RelayStep cut target inner copied (.sending chunk) ((Carry.served chunk).relay copied)
        [target, inner]
  | next (chunk : Bytes) :
      RelayStep cut target inner copied (.served chunk) (Carry.waiting.relay copied) [target, inner]

theorem relay_cases {cut : Bool} {target inner : Pipe} {copied : Nat} {carry : Carry} {r : Relay}
    {pipes : Pipes} (hintact : inner.Intact)
    (hstep : (carry.relay copied).step cut [target, inner] = some (r, pipes)) :
    RelayStep cut target inner copied carry r pipes := by
  cases carry with
  | ended => cases hstep
  | waiting =>
    cases cut with
    | true =>
      cases hstep
      exact .finish (.inl rfl)
    | false =>
      have hget : Pipes.get [target, inner] 1 = inner := rfl
      simp only [Relay.step, Carry.relay, Carry.phase, Bool.false_eq_true, if_false, hget] at hstep
      rcases Pipe.take_cases hintact with ⟨chunk, rest, hqueue, htake⟩ | ⟨hqueue, htake⟩
      · rw [htake] at hstep
        cases hstep
        exact .take hqueue
      · rw [htake] at hstep
        cases hwriter : inner.writerGone with
        | false => simp [hwriter] at hstep
        | true =>
          rw [hwriter, if_pos rfl] at hstep
          cases hstep
          exact .finish (.inr ⟨hqueue, hwriter⟩)
  | taken chunk =>
    cases hstep
    exact .start chunk
  | sending chunk =>
    have hget : Pipes.get [target, inner] 0 = target := rfl
    simp only [Relay.step, Carry.relay, Carry.phase, Carry.move, List.getElem?_cons_zero,
      Sink.advance, hget] at hstep
    cases hoffer : target.offer chunk with
    | wait => simp [hoffer] at hstep
    | broken =>
      rw [hoffer] at hstep
      cases hstep
      exact .fail hoffer
    | accepted n q =>
      rw [hoffer] at hstep
      cases hstep
      exact .send hoffer
  | served chunk =>
    cases hstep
    exact .next chunk

theorem Sound.nonempty (h : Sound readings hangs others m es x) (hnarrow : m.assembler.Narrow) :
    ∀ chunk ∈ x.made, chunk ≠ [] := by
  obtain ⟨s, -, hmuxed⟩ := h.muxed
  intro chunk hchunk
  exact (Muxer.collectAll_ends hnarrow _).2 chunk (hmuxed.prefix_collectAll.subset hchunk)

/-- The relay ends, and lets go of both pipes. -/
theorem Sound.finish (h : Sound readings hangs others m es x) (hwaiting : x.carry = .waiting)
    (hthrough : .cancelled ∉ es →
      x.inner.queue = [] ∧ x.fan.core.worker others.length = .ended) :
    Sound readings hangs others m es
      { x with target := x.target.dropWriter, inner := x.inner.dropReader, carry := .ended } := by
  refine { h with
    target := h.target.dropWriter
    inner := h.inner.dropReader
    innerReader := fun _ => rfl
    targetWriter := ⟨fun _ => rfl, fun _ => rfl⟩
    carried := fun hnone _ => hthrough hnone
    spent := fun hspent => ⟨(h.spent hspent).1, rfl⟩
    muxed := ?_ }
  obtain ⟨s, hs, hmuxed⟩ := h.muxed
  refine ⟨s, hs, ?_⟩
  rw [made, hwaiting] at hmuxed
  exact hmuxed

/-- A chunk moves on along the way. -/
theorem Sound.pass (h : Sound readings hangs others m es x) (target inner : List Bytes)
    (carry : Carry) (copied : Nat) (hrunning : x.carry ≠ .ended) (hrunning' : carry ≠ .ended)
    (hsame : x.received ++ target ++ carry.hand ++ inner = x.made) :
    Sound readings hangs others m es
      { x with
        target := { x.target with queue := target }
        inner := { x.inner with queue := inner }
        carry := carry
        copied := copied } := by
  refine { h with
    target := h.target.queue target
    inner := h.inner.queue inner
    innerReader := fun hgone => absurd (h.innerReader hgone) hrunning
    targetWriter := ⟨fun hgone => absurd (h.targetWriter.mp hgone) hrunning,
      fun hended => absurd hended hrunning'⟩
    carried := fun _ hended => absurd hended hrunning'
    spent := fun hspent => absurd (h.spent hspent).2 hrunning
    muxed := ?_ }
  obtain ⟨s, hs, hmuxed⟩ := h.muxed
  rw [← hsame] at hmuxed
  exact ⟨s, hs, hmuxed⟩

theorem Sound.relay {r : Relay} (h : Sound readings hangs others m es x)
    (hnarrow : m.assembler.Narrow)
    (hstep₀ : (x.carry.relay x.copied).step x.cut x.pipes = some (r, pipes)) :
    ∃ target inner carry copied, r = carry.relay copied ∧ pipes = [target, inner] ∧
      Sound readings hangs others m es
        { x with target := target, inner := inner, carry := carry, copied := copied } := by
  have hstep : RelayStep x.cut x.target x.inner x.copied x.carry r pipes :=
    relay_cases h.inner hstep₀
  generalize hcarry : x.carry = carry at hstep
  cases hstep with
  | finish hthrough =>
    refine ⟨_, _, .ended, x.copied, rfl, rfl, h.finish hcarry fun huncut => ?_⟩
    have hcut : x.cut ≠ true := by simp [h.cut, huncut]
    obtain ⟨hqueue, hwriter⟩ := hthrough.resolve_left hcut
    exact ⟨hqueue, h.innerWriter.mp hwriter⟩
  | @take chunk rest hqueue₀ =>
    refine ⟨x.target, _, .taken chunk, _, rfl, rfl,
      h.pass x.target.queue rest (.taken chunk) _ (by simp [hcarry]) (by simp) ?_⟩
    simp [made, hcarry, Carry.hand, hqueue₀]
  | start chunk =>
    refine ⟨x.target, x.inner, .sending chunk, x.copied, rfl, rfl,
      h.pass x.target.queue x.inner.queue (.sending chunk) _ (by simp [hcarry]) (by simp) ?_⟩
    simp [made, hcarry, Carry.hand]
  | @send chunk n q haccepted =>
    -- An empty chunk would be accepted without a trace, but a muxer puts out none.
    have hne : chunk ≠ [] := by
      apply h.nonempty hnarrow chunk
      simp [made, hcarry, Carry.hand]
    obtain rfl := Pipe.offer_eq_accepted haccepted hne
    refine ⟨_, x.inner, .served chunk, x.copied, rfl, rfl,
      h.pass _ x.inner.queue (.served chunk) _ (by simp [hcarry]) (by simp) ?_⟩
    simp [made, hcarry, Carry.hand]
  | fail hbroken =>
    -- The consumer holds on to its pipe.
    have hgone := Pipe.readerGone_of_broken h.target hbroken
    cases h.held.symm.trans hgone
  | next chunk =>
    refine ⟨x.target, x.inner, .waiting, x.copied, rfl, rfl,
      h.pass x.target.queue x.inner.queue .waiting _ (by simp [hcarry]) (by simp) ?_⟩
    simp [made, hcarry, Carry.hand]

/-! ## The consumer -/

/-- A consumer that has not seen the end takes whatever comes. -/
theorem receive_reader (x : Line) : (reader false x.received).receive false .video x.pipes =
    match x.target.take with
    | .chunk data p => some (reader false (x.received ++ [data]), x.pipes.set 0 p)
    | .ended | .broken => some (reader true x.received, x.pipes)
    | .wait => none := rfl

theorem Sound.receive (h : Sound readings hangs others m es x) {c : Consumer}
    (hstep : (reader x.spent x.received).receive false .video x.pipes = some (c, pipes)) :
    ∃ target spent received, c = reader spent received ∧ pipes = [target, x.inner] ∧
      Sound readings hangs others m es
        { x with target := target, spent := spent, received := received } := by
  cases hspent : x.spent with
  | true => simp [reader, Consumer.receive, Sides.get, hspent] at hstep
  | false =>
    obtain ⟨s, hs, hmuxed⟩ := h.muxed
    rw [hspent, receive_reader] at hstep
    rcases Pipe.take_cases h.target with ⟨chunk, rest, hqueue, htake⟩ | ⟨hqueue, htake⟩
    · rw [htake] at hstep
      cases hstep
      refine ⟨{ x.target with queue := rest }, false, x.received ++ [chunk], rfl, rfl, ?_⟩
      refine { h with
        target := h.target.queue rest
        spent := fun hspent => absurd hspent Bool.false_ne_true
        muxed := ⟨s, hs, ?_⟩ }
      have hmade : x.made = x.received ++ [chunk] ++ rest ++ x.carry.hand ++ x.inner.queue := by
        simp [made, hqueue]
      rw [hmade] at hmuxed
      exact hmuxed
    · rw [htake] at hstep
      cases hwriter : x.target.writerGone with
      | false => simp [hwriter] at hstep
      | true =>
        rw [hwriter, if_pos rfl] at hstep
        cases hstep
        refine ⟨x.target, true, x.received, rfl, rfl, ?_⟩
        exact { h with
          spent := fun _ => ⟨hqueue, h.targetWriter.mp hwriter⟩
          muxed := ⟨s, hs, hmuxed⟩ }

theorem Sound.cancel (h : Sound readings hangs others m es x) :
    Sound readings hangs others m (es ++ [.cancelled]) { x with cut := true } := by
  have hmem : Event.cancelled ∈ es ++ [.cancelled] := by simp
  obtain ⟨s, hs, hmuxed⟩ := h.muxed
  have hhanded : handedTo others.length (es ++ [.cancelled]) = handedTo others.length es := by
    simp [handedTo]
  refine { h with
    cut := (decide_eq_true hmem).symm
    run := h.run.cancel
    carried := fun hnone => absurd hmem hnone
    unfailed := fun hnone => absurd hmem hnone
    muxed := ⟨s, hs, ?_⟩ }
  rw [hhanded]
  exact hmuxed.mono fun _ => .inr hmem

/-! ## What the consumer has -/

/-- The muxer was handed a first part of what its lane took. -/
theorem Sound.made_prefix (h : Sound readings hangs others m es x) :
    x.made <+: (collectAll m (queuedTo others.length es)).2 := by
  obtain ⟨s, -, hmuxed⟩ := h.muxed
  obtain ⟨l, -, hledger⟩ := h.run.core.history (i := others.length) (by simp)
  obtain ⟨rest, hrest⟩ := hledger.order
  refine hmuxed.prefix_collectAll.trans ?_
  rw [← hrest, collectAll_append]
  exact List.prefix_append ..

theorem Sound.received_prefix (h : Sound readings hangs others m es x) :
    x.received <+: (collectAll m (queuedTo others.length es)).2 := by
  refine List.IsPrefix.trans ?_ h.made_prefix
  rw [made, List.append_assoc, List.append_assoc]
  exact List.prefix_append ..

/-- A consumer that has seen the end has seen all, unless something was cancelled or lost. -/
theorem Sound.received_eq (h : Sound readings hangs others m es x) (huncut : .cancelled ∉ es)
    (hsteady : .crashed others.length ∉ es) (hspent : x.spent = true) :
    x.received = (collectAll m (queuedTo others.length es)).2 := by
  obtain ⟨htarget, hcarry⟩ := h.spent hspent
  obtain ⟨hinner, hended⟩ := h.carried huncut hcarry
  have hkept : ¬ Gone others.length es := fun hgone => hgone.elim (h.unfailed huncut) hsteady
  obtain ⟨s, -, hmuxed⟩ := h.muxed
  obtain ⟨l, hlane, hledger⟩ := h.run.core.history (i := others.length) (by simp)
  have hworker : l.worker = .ended := (worker_eq hlane).symm.trans hended
  obtain ⟨-, hwhy⟩ := hledger.ended hworker
  have hqueued : queuedTo others.length es = handedTo others.length es :=
    (hwhy.resolve_left hkept).resolve_left huncut
  rw [hended] at hmuxed
  cases hmuxed with
  | ended hfirst hwhole =>
    have hmade : x.made = x.received := by simp [made, htarget, hinner, hcarry, Carry.hand]
    rw [hqueued, ← hwhole (not_or.mpr ⟨hkept, huncut⟩), hmade]

end Sound

end Line

end Headend.Plant
