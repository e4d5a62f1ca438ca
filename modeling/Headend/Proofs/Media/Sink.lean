import Headend.Media.Sink
import Headend.Proofs.Media.Ending
import Headend.Proofs.Pipe.Basic

/-!
# A muxer behind a sink

A sink lets its writer move one `Step` at a time. `Owing` says what is still to come of the packet
that a muxer has in hand; each move sends a part of that, and nothing else, until nothing is owed.
-/

namespace Headend.Media.Sink

variable {s s' : Sink} {rest : List Bytes} {m m' : Muxer} {pipes pipes' : Pipes} {p : Pipe}
  {progress : Progress} {k : Nat}

/-! ## Steps -/

/-- What a sink can do: get its chunk out, find its pipe broken, or move on without the pipe. -/
inductive Step (s : Sink) (pipes : Pipes) : Sink → Pipes → Progress → Prop where
  | emit {chunk : Bytes} {k n : Nat} {p : Pipe} (hmove : s.move = some (.emit chunk))
      (htarget : s.target = some k) (haccepted : (pipes.get k).offer chunk = .accepted n p) :
      Step s pipes s.proceed (pipes.set k p) .working
  | last {chunk : Bytes} {result k n : Nat} {p : Pipe}
      (hmove : s.move = some (.last chunk result)) (htarget : s.target = some k)
      (haccepted : (pipes.get k).offer chunk = .accepted n p) :
      Step s pipes s.idle (pipes.set k p) (.done (.ok result))
  | broken (chunk : Bytes)
      (hbroken : ∀ k, s.target = some k → (pipes.get k).offer chunk = .broken) :
      Step s pipes s.idle pipes (.done (.error .pipeClosed))
  | again (hmove : s.move = some .again) : Step s pipes s.proceed pipes .working
  | finish {result : Except Error Nat} (hmove : s.move = some (.finish result)) :
      Step s pipes s.idle pipes (.done result)
  | crash (hmove : s.move = some .crash) : Step s pipes s.idle pipes .crashed

theorem step_of_advance (hstep : s.advance pipes = some (s', pipes', progress)) :
    Step s pipes s' pipes' progress := by
  unfold advance at hstep
  cases hmove : s.move with
  | none => simp [hmove] at hstep
  | some move =>
    cases move with
    | emit chunk | last chunk =>
      simp only [hmove] at hstep
      split at hstep
      case h_1 hnone =>
        cases hstep
        refine .broken chunk fun k hk => ?_
        cases hnone.symm.trans hk
      case h_2 k htarget =>
        split at hstep
        case h_1 haccepted =>
          cases hstep
          first
          | exact .emit hmove htarget haccepted
          | exact .last hmove htarget haccepted
        case h_2 hbroken =>
          cases hstep
          refine .broken chunk fun j hj => ?_
          cases htarget.symm.trans hj
          exact hbroken
        case h_3 => cases hstep
    | again =>
      simp only [hmove] at hstep
      cases hstep
      exact .again hmove
    | finish result =>
      simp only [hmove] at hstep
      cases hstep
      exact .finish hmove
    | crash =>
      simp only [hmove] at hstep
      cases hstep
      exact .crash hmove

theorem advance_target (hstep : s.advance pipes = some (s', pipes', progress)) :
    s'.target = s.target := by
  cases step_of_advance hstep <;> rfl

/-- A sink without a target touches no pipe. -/
theorem advance_pipes (htarget : s.target = none)
    (hstep : s.advance pipes = some (s', pipes', progress)) : pipes' = pipes := by
  cases step_of_advance hstep with
  | emit _ hsome | last _ hsome => cases htarget.symm.trans hsome
  | _ => rfl

/-- A sink still at work has a move to make. -/
theorem move_of_working (hstep : s.advance pipes = some (s', pipes', .working)) :
    s'.move ≠ none := by
  cases step_of_advance hstep <;> simp [proceed]

/-- A sink with a move to make waits for nothing but its pipe. -/
theorem offer_eq_wait {move : Move} (hmoving : s.move = some move)
    (hblocked : s.advance pipes = none) :
    ∃ k chunk, s.target = some k ∧ (pipes.get k).offer chunk = .wait := by
  unfold advance at hblocked
  cases htarget : s.target with
  | none => cases move <;> simp [hmoving, htarget] at hblocked
  | some k =>
    cases move with
    | emit chunk | last chunk =>
      simp only [hmoving, htarget] at hblocked
      split at hblocked
      · cases hblocked
      · cases hblocked
      · rename_i hwait
        exact ⟨k, chunk, rfl, hwait⟩
    | _ => simp [hmoving] at hblocked

/-! ## Muxers -/

/-- Before it is done with the packet in hand and `m'` is left, the muxer puts these chunks out. -/
def Owing (s : Sink) (rest : List Bytes) (m' : Muxer) : Prop :=
  ∃ m move fuel ending, s.writer = .muxer m ∧ s.move = some move ∧
    collectMoves fuel m [] move = ⟨m', rest, ending⟩ ∧ ending.Passes

/-- To begin with, all that comes of the packet is owed. -/
theorem owing_start (hwriter : s.writer = .muxer m) (h : m.assembler.Narrow) (packet : Bytes) :
    Owing (s.start packet) (collect m packet).chunks (collect m packet).writer := by
  refine ⟨(m.accept packet).1, (m.accept packet).2, moveLimit, (collect m packet).ending, ?_, ?_,
    rfl, (Muxer.collect_ends h packet).1⟩
  · simp [start, hwriter, Writer.accept]
  · simp [start, hwriter, Writer.accept]

/-- The ways for a sink to move on: `sent` is queued, and `rest` remains. -/
inductive Moved (s : Sink) (rest : List Bytes) (m' : Muxer) (pipes : Pipes) (k : Nat) (p : Pipe) :
    Sink → Pipes → Progress → Prop where
  | working {s' : Sink} {sent rest' : List Bytes} (hsplit : rest = sent ++ rest')
      (htarget : s'.target = s.target) (howing : Owing s' rest' m') :
      Moved s rest m' pipes k p s' (pipes.set k { p with queue := p.queue ++ sent }) .working
  | done {result : Except Error Nat} (hpassing : ∀ e, result = .error e → e.isTerminal = false) :
      Moved s rest m' pipes k p ⟨.muxer m', s.target, none⟩
        (pipes.set k { p with queue := p.queue ++ rest }) (.done result)
  | broken {s' : Sink} {chunk : Bytes} (htarget : s'.target = s.target)
      (hbroken : p.offer chunk = .broken) :
      Moved s rest m' pipes k p s' pipes (.done (.error .pipeClosed))
  | crashed {s' : Sink} (htarget : s'.target = s.target) :
      Moved s rest m' pipes k p s' pipes .crashed

/-- What the muxer does once it may go on. -/
theorem owing_proceed {fuel : Nat} {ending : Ending} (hwriter : s.writer = .muxer m)
    (hmore : collectMoves fuel m.resume.1 [] m.resume.2 = ⟨m', rest, ending⟩)
    (hpasses : ending.Passes) : Owing s.proceed rest m' := by
  refine ⟨m.resume.1, m.resume.2, fuel, ending, ?_, ?_, hmore, hpasses⟩
  · simp [proceed, hwriter, Writer.resume]
  · simp [proceed, hwriter, Writer.resume]

theorem Owing.advance (h : Owing s rest m') (htarget : s.target = some k)
    (hpipe₀ : pipes[k]? = some p) (hnonempty : ∀ chunk ∈ rest, chunk ≠ [])
    (hstep : s.advance pipes = some (s', pipes', progress)) :
    Moved s rest m' pipes k p s' pipes' progress := by
  obtain ⟨m, move, fuel, ending, hwriter, hmove, hcollect, hpasses⟩ := h
  have hpipe : pipes.get k = p := by simp [Pipes.get, hpipe₀]
  have hsame : pipes.set k { p with queue := p.queue ++ [] } = pipes := by
    obtain ⟨hk, rfl⟩ := List.getElem?_eq_some_iff.mp hpipe₀
    rw [List.append_nil]
    exact List.set_getElem_self hk
  cases fuel with
  | zero =>
    cases hcollect
    exact hpasses.elim
  | succ fuel =>
  cases step_of_advance hstep with
  | crash => exact .crashed rfl
  | broken chunk hbroken =>
    have hoffer := hbroken k htarget
    rw [hpipe] at hoffer
    exact .broken rfl hoffer
  | @finish result hfinish =>
    cases hmove.symm.trans hfinish
    cases hcollect
    have hdone : Moved s [] m' pipes k p ⟨.muxer m', s.target, none⟩
        (pipes.set k { p with queue := p.queue ++ [] }) (.done result) := by
      refine .done fun e he => ?_
      subst he
      exact hpasses
    rw [hsame, ← hwriter] at hdone
    exact hdone
  | again hagain =>
    cases hmove.symm.trans hagain
    have hworking : Moved s rest m' pipes k p s.proceed
        (pipes.set k { p with queue := p.queue ++ [] }) .working :=
      .working rfl rfl (owing_proceed hwriter hcollect hpasses)
    rwa [hsame] at hworking
  | @last chunk result _ _ _ hlast hto haccepted =>
    cases hmove.symm.trans hlast
    cases htarget.symm.trans hto
    cases hcollect
    rw [hpipe] at haccepted
    have hdone : Moved s [chunk] m' pipes k p ⟨.muxer m', s.target, none⟩
        (pipes.set k { p with queue := p.queue ++ [chunk] }) (.done (.ok result)) :=
      .done (by simp)
    rw [← hwriter, ← Pipe.offer_eq_accepted haccepted (hnonempty chunk (by simp))] at hdone
    exact hdone
  | @emit chunk _ _ _ hemit hto haccepted =>
    cases hmove.symm.trans hemit
    cases htarget.symm.trans hto
    rw [hpipe] at haccepted
    -- The chunk comes first, and the rest is owed once it is out.
    have hmore := collectMoves_out fuel m.resume.1 [chunk] m.resume.2
    change collectMoves fuel m.resume.1 [chunk] m.resume.2 = ⟨m', rest, ending⟩ at hcollect
    rw [hcollect] at hmore
    obtain ⟨hwriter', hrest, hending⟩ := Collected.mk.inj hmore
    have hmore : collectMoves fuel m.resume.1 [] m.resume.2 =
        ⟨m', (collectMoves fuel m.resume.1 [] m.resume.2).chunks, ending⟩ := by
      rw [hwriter', hending]
    rw [Pipe.offer_eq_accepted haccepted (hnonempty chunk (by rw [hrest]; simp))]
    exact .working hrest rfl (owing_proceed hwriter hmore hpasses)

end Headend.Media.Sink
