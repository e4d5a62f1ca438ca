import Headend.Plant.Basic
import Headend.Proofs.Plant.Sinks

/-!
# Closed pipes stay closed

Whoever uses a pipe leaves it closed if it was. So a writer that waits for room in a pipe does not
wait any longer once the pipe is closed, whatever else goes on in the meantime.
-/

namespace Headend

open Media

/-! ## Pipes in use -/

namespace Media.Pipes

variable {ps ps' ps'' : Pipes} {k : Nat} {p q : Pipe}

/-- No pipe is lost, and no closed one opened. -/
structure Keeps (ps ps' : Pipes) : Prop where
  size : ps.length ≤ ps'.length
  closed : ∀ k, k < ps.length → (ps.get k).closed = true → (ps'.get k).closed = true

theorem Keeps.refl (ps : Pipes) : ps.Keeps ps := ⟨Nat.le_refl _, fun _ _ h => h⟩

theorem Keeps.trans (h : ps.Keeps ps') (h' : ps'.Keeps ps'') : ps.Keeps ps'' where
  size := Nat.le_trans h.size h'.size
  closed k hbound hshut :=
    h'.closed k (Nat.lt_of_lt_of_le hbound h.size) (h.closed k hbound hshut)

theorem Keeps.append (ps : Pipes) (new : List Pipe) : ps.Keeps (ps ++ new) where
  size := by
    rw [List.length_append]
    exact Nat.le_add_right _ _
  closed k hbound hshut := by
    rw [Pipes.get, List.getElem?_append_left hbound]
    exact hshut

/-- One pipe is used, and stays closed. -/
theorem Keeps.set (hshut : q.closed = (ps.get k).closed) : ps.Keeps (ps.set k q) where
  size := Nat.le_of_eq (List.length_set).symm
  closed j hbound hclosed := by
    by_cases hsame : k = j
    · subst hsame
      rw [Pipes.get, List.getElem?_set_self hbound]
      exact hshut.trans hclosed
    · rw [Pipes.get, List.getElem?_set_ne hsame]
      exact hclosed

theorem Keeps.update (ps : Pipes) (k : Nat) {f : Pipe → Pipe}
    (hshut : ∀ p : Pipe, p.closed = true → (f p).closed = true) : ps.Keeps (ps.update k f) where
  size := Nat.le_of_eq (List.length_modify _ _ _).symm
  closed j hbound hclosed := by
    have hj : ps[j]? = some ps[j] := List.getElem?_eq_getElem hbound
    rw [Pipes.get, hj, Option.getD_some] at hclosed
    rw [Pipes.get, Pipes.update, List.getElem?_modify, hj]
    split
    · exact hshut _ hclosed
    · exact hclosed

theorem Keeps.dropReader (ps : Pipes) (k : Nat) : ps.Keeps (ps.update k Pipe.dropReader) :=
  .update ps k fun _ => id

theorem Keeps.dropWriter (ps : Pipes) (k : Nat) : ps.Keeps (ps.update k Pipe.dropWriter) :=
  .update ps k fun _ => id

theorem Keeps.close (ps : Pipes) (k : Nat) : ps.Keeps (ps.update k Pipe.close) :=
  .update ps k fun _ _ => rfl

theorem closed_update_close (ps : Pipes) (k : Nat) :
    ((ps.update k Pipe.close).get k).closed = true := by
  rw [Pipes.get, Pipes.update, List.getElem?_modify_eq]
  cases ps[k]? <;> rfl

end Media.Pipes

theorem Plant.closed_updatePipes_close (p : Plant) (ks : Plant.Sides Nat) (side : Plant.Side)
    (hbound : ks.get side < p.pipes.length) :
    ((p.updatePipes ks Pipe.close).pipes.get (ks.get side)).closed = true := by
  cases side with
  | audio => exact Pipes.closed_update_close _ _
  | video =>
    have hstays := Pipes.Keeps.close (p.pipes.update ks.video Pipe.close) ks.audio
    have hstill : ks.video < (p.pipes.update ks.video Pipe.close).length := by
      rw [Pipes.update, List.length_modify]
      exact hbound
    exact hstays.closed _ hstill (Pipes.closed_update_close _ _)

/-! ## Sinks -/

namespace Media.Sink

open Pipes

variable {s s' : Sink} {pipes pipes' : Pipes} {progress : Progress}

theorem advance_keeps (hstep : s.advance pipes = some (s', pipes', progress)) :
    pipes.Keeps pipes' := by
  cases step_of_advance hstep with
  | emit _ _ haccepted | last _ _ haccepted => exact .set (Pipe.closed_of_accepted haccepted)
  | _ => exact .refl _

theorem drop_keeps (s : Sink) (pipes : Pipes) : pipes.Keeps (s.drop pipes) := by
  rw [drop]
  split
  · exact .dropWriter _ _
  · exact .refl _

theorem drop_all_keeps (sinks : List Sink) (pipes : Pipes) :
    pipes.Keeps (sinks.foldl (fun ps s => s.drop ps) pipes) := by
  induction sinks generalizing pipes with
  | nil => exact .refl _
  | cons s sinks ih => exact (s.drop_keeps pipes).trans (ih _)

/-- A sink with a move to make does not wait for a closed pipe. -/
theorem advance_of_closed {move : Move} (hmoving : s.move = some move)
    (hclosed : ∀ k, s.target = some k → (pipes.get k).closed = true) :
    s.advance pipes ≠ none := by
  intro hblocked
  obtain ⟨k, chunk, htarget, hwaits⟩ := offer_eq_wait hmoving hblocked
  rw [Pipe.offer, hclosed k htarget, if_pos rfl] at hwaits
  cases hwaits

end Media.Sink

namespace Plant

open Pipes

variable {pipes pipes' : Pipes} {cancelled : Bool}

/-! ## Fan-outs -/

theorem Source.read_keeps {s s' : Source} {r : Reading}
    (hstep : s.read pipes = some (r, s', pipes')) : pipes.Keeps pipes' := by
  cases s with
  | script readings hangs =>
    cases readings with
    | nil =>
      simp only [Source.read] at hstep
      split at hstep <;> cases hstep
      exact .refl _
    | cons r rest =>
      cases hstep
      exact .refl _
  | pipe k =>
    simp only [Source.read] at hstep
    split at hstep
    case h_1 htaken =>
      cases hstep
      exact .set (Pipe.closed_of_take htaken)
    all_goals
      cases hstep
      try exact .refl _

theorem Source.drop_keeps (s : Source) (pipes : Pipes) : pipes.Keeps (s.drop pipes) := by
  cases s with
  | script => exact .refl _
  | pipe k => exact .dropReader _ _

namespace Fan

variable {f f' : Fan} {es : List Fanout.Event} {i : Nat}

theorem LoopStep.keeps (hstep : LoopStep cancelled f pipes es f' pipes') : pipes.Keeps pipes' := by
  cases hstep with
  | interrupt => exact .refl _
  | read hlive hanswer => exact Source.read_keeps hanswer
  | offer => exact .refl _
  | close =>
    refine .trans ?_ (Source.drop_keeps _ _)
    split
    · exact Sink.drop_all_keeps _ _
    · exact .refl _

theorem LaneStep.keeps (hstep : LaneStep f i pipes es f' pipes') : pipes.Keeps pipes' := by
  cases hstep with
  | hand => exact .refl _
  | retire => exact Sink.drop_keeps _ _
  | work hown hlane hadvance => exact Sink.advance_keeps hadvance
  | free hown hlane hadvance => exact Sink.advance_keeps hadvance
  | fail hown hlane hadvance => exact (Sink.advance_keeps hadvance).trans (Sink.drop_keeps _ _)
  | crash hown hlane hadvance => exact (Sink.advance_keeps hadvance).trans (Sink.drop_keeps _ _)

end Fan

/-! ## Relays and consumers -/

theorem Relay.finish_keeps (r : Relay) (last : Relay.Phase) (pipes : Pipes) :
    pipes.Keeps (r.finish last pipes).2 :=
  (Keeps.dropReader _ _).trans (Sink.drop_all_keeps _ _)

/-- A relay keeps its token and the targets of its sinks. -/
structure Relay.Remains (r r' : Relay) : Prop where
  token : r'.token = r.token
  targets : r'.sinks.map Sink.target = r.sinks.map Sink.target

theorem Relay.step_remains {r r' : Relay} (hstep : r.step cancelled pipes = some (r', pipes')) :
    r.Remains r' ∧ pipes.Keeps pipes' := by
  unfold Relay.step at hstep
  split at hstep
  · cases hstep
  · cases hstep
  · split at hstep
    · cases hstep
      exact ⟨⟨rfl, rfl⟩, r.finish_keeps .ended pipes⟩
    · split at hstep
      case h_1 htaken =>
        cases hstep
        exact ⟨⟨rfl, rfl⟩, .set (Pipe.closed_of_take htaken)⟩
      case h_4 => cases hstep
      all_goals
        cases hstep
        exact ⟨⟨rfl, rfl⟩, r.finish_keeps .ended pipes⟩
  · split at hstep
    · cases hstep
      exact ⟨⟨rfl, rfl⟩, .refl _⟩
    case h_2 sink hnext =>
      split at hstep
      · cases hstep
        exact ⟨⟨rfl, Fan.map_set_of_eq hnext rfl⟩, .refl _⟩
      · obtain ⟨⟨next, rest, progress⟩, hadvance, hstep⟩ := Option.bind_eq_some_iff.mp hstep
        have hkept := Sink.advance_keeps hadvance
        have htargets := Fan.map_set_of_eq hnext (Sink.advance_target hadvance)
        cases progress <;> cases hstep
        · exact ⟨⟨rfl, htargets⟩, hkept⟩
        · exact ⟨⟨rfl, htargets⟩, hkept⟩
        · exact ⟨⟨rfl, htargets⟩, hkept.trans (finish_keeps _ .crashed _)⟩

theorem Consumer.conclude_keeps (c : Consumer) (pipes : Pipes) :
    pipes.Keeps (c.conclude pipes).2 := (Keeps.dropReader _ _).trans (.dropReader _ _)

theorem Consumer.step_keeps {c d : Consumer} (hstep : c.step cancelled pipes = some (d, pipes')) :
    pipes.Keeps pipes' := by
  unfold Consumer.step at hstep
  split at hstep
  · cases hstep
    exact .refl _
  · split at hstep <;> cases hstep
    exact c.conclude_keeps pipes
  · cases hstep

theorem Consumer.receive_keeps {c d : Consumer} {side : Side}
    (hstep : c.receive cancelled side pipes = some (d, pipes')) : pipes.Keeps pipes' := by
  unfold Consumer.receive at hstep
  split at hstep
  · cases hstep
  · split at hstep
    case h_1 htaken =>
      cases hstep
      exact .set (Pipe.closed_of_take htaken)
    case h_4 => cases hstep
    all_goals
      cases hstep
      exact .refl _

end Plant

end Headend
