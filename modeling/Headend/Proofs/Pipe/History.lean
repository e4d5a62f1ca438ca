import Headend.Pipe.Desk
import Headend.Proofs.Runs

/-!
# Histories of a desk

An `Event` is what somebody does at a desk: an operation begins, a waiting one is given up, an end
is let go, the pipe is closed. `serve` and `answer` complete an operation that need not wait; that
may happen at any time and to any of those that wait. An `Account` is a desk with the operations
completed so far, and `play` is what a sequence of events makes of it. What `Desk.step` does is one
event, and `Desk.settle` one history (`settle_plays`).
-/

namespace Headend.Pipe

/-! ## Completed operations -/

inductive Done where
  | write (data : Bytes) (result : Result)
  | read (request : Request) (result : Result)
  deriving Repr, DecidableEq

namespace Done

def result : Done → Result
  | write _ result | read _ result => result

/-- The bytes of a write that the pipe took. -/
def accepted : Done → Bytes
  | write data (.written _) => data
  | _ => []

/-- The bytes that a read gave. -/
def delivered : Done → Bytes
  | read _ (.chunk data) | read _ (.bytes data) => data
  | _ => []

/-- A read was told that nothing more comes. A read of no bytes is told nothing. -/
def TellsEnd : Done → Prop
  | read .chunk .ended => True
  | read (.bytes size) (.bytes data) => 0 < size ∧ data = []
  | _ => False

/-- A write, or a read that asked for something. -/
def Asks : Done → Prop
  | write _ _ => True
  | read request _ => request ≠ .bytes 0

end Done

/-! ## Attempts -/

section Attempts

variable {p q : Pipe} {data : Bytes} {request : Request} {result : Result}

/-- What can come of receiving a chunk. -/
inductive Takes (p : Pipe) : Take → Prop where
  | rest (hkept : p.leftover ≠ []) : Takes p (.chunk p.leftover { p with leftover := [] })
  | broken (hspent : p.leftover = []) (hclosed : p.closed = true) : Takes p .broken
  | next {chunk : Bytes} {queue : List Bytes} (hspent : p.leftover = [])
      (husable : p.closed = false)
      (hqueued : p.queue = chunk :: queue) : Takes p (.chunk chunk { p with queue := queue })
  | ended (hspent : p.leftover = []) (husable : p.closed = false) (hempty : p.queue = [])
      (hgone : p.writerGone = true) : Takes p .ended
  | wait (hspent : p.leftover = []) (husable : p.closed = false) (hempty : p.queue = [])
      (hthere : p.writerGone = false) : Takes p .wait

theorem takes (p : Pipe) : p.Takes p.take := by
  rcases p with ⟨capacity, queue, leftover, closed, writerGone, readerGone⟩
  cases leftover with
  | cons b bs => exact .rest (by simp)
  | nil =>
    cases closed with
    | true => exact .broken rfl rfl
    | false =>
      cases queue with
      | cons chunk queue => exact .next rfl rfl rfl
      | nil =>
        cases writerGone with
        | true => exact .ended rfl rfl rfl rfl
        | false => exact .wait rfl rfl rfl rfl

/-- What a completed read does: it takes bytes from the front, be they left over or queued. -/
structure Received (p : Pipe) (request : Request) (result : Result) (q : Pipe) : Prop where
  bytes : (Done.read request result).delivered ++ q.pending = p.pending
  queue : q.queue <:+ p.queue
  capacity : q.capacity = p.capacity
  closed : q.closed = p.closed
  gone : q.writerGone = p.writerGone
  reader : q.readerGone = p.readerGone
  /-- The end is told only where nothing is pending and no writer is left. -/
  ended : (Done.read request result).TellsEnd → (∀ chunk ∈ p.queue, chunk ≠ []) →
    p.writerGone = true ∧ p.pending = []
  /-- Nothing queued comes out of a closed pipe. -/
  kept : p.closed = true → q.queue = p.queue
  /-- What comes out of a closed pipe are bytes, or it is broken. -/
  broken : p.closed = true → (Done.read request result).Asks →
    result = .broken ∨ (Done.read request result).delivered ≠ []

/-- A part of the chunk goes to the reader, and the rest is kept. -/
theorem Received.of_chunk {r : Pipe} {chunk rest : Bytes} (htaken : p.take = .chunk chunk r)
    (hsplit : (Done.read request result).delivered ++ rest = chunk)
    (hsome : chunk ≠ [] → (Done.read request result).delivered ≠ [])
    (hended : (Done.read request result).TellsEnd → (Done.read request result).delivered = []) :
    p.Received request result { r with leftover := rest } := by
  have hout := p.takes
  rw [htaken] at hout
  cases hout with
  | rest hkept =>
    refine ⟨?_, List.suffix_refl _, rfl, rfl, rfl, rfl,
      fun htold _ => absurd (hended htold) (hsome hkept), fun _ => rfl,
      fun _ _ => .inr (hsome hkept)⟩
    rw [pending, ← List.append_assoc, hsplit]
    rfl
  | next hspent husable hqueued =>
    refine ⟨?_, by simp [hqueued], rfl, rfl, rfl, rfl, fun htold hchunks => ?_, by simp [husable],
      by simp [husable]⟩
    · rw [pending, ← List.append_assoc, hsplit, pending, hspent, hqueued]
      rfl
    · exact absurd (hended htold) (hsome (hchunks chunk (by simp [hqueued])))

theorem Received.of_ended (htaken : p.take = .ended)
    (hnone : (Done.read request result).delivered = []) :
    p.Received request result p := by
  have hout := p.takes
  rw [htaken] at hout
  cases hout with
  | ended hspent husable hempty hgone =>
    exact ⟨by simp [hnone], List.suffix_refl _, rfl, rfl, rfl, rfl,
      fun _ _ => ⟨hgone, by simp [pending, hspent, hempty]⟩, fun _ => rfl, by simp [husable]⟩

theorem Received.of_broken : p.Received request .broken p where
  bytes := by cases request <;> rfl
  queue := List.suffix_refl _
  capacity := rfl
  closed := rfl
  gone := rfl
  reader := rfl
  ended := by cases request <;> exact nofun
  kept _ := rfl
  broken _ _ := .inl rfl

theorem tryRead_received (h : p.tryRead request = some (result, q)) :
    p.Received request result q := by
  cases request with
  | chunk =>
    rw [tryRead] at h
    cases htaken : p.take with
    | chunk chunk r =>
      rw [htaken] at h
      cases h
      have hwhole : q = { q with leftover := [] } := by
        have hout := p.takes
        rw [htaken] at hout
        cases hout with
        | rest => rfl
        | next hspent => rw [← hspent]
      rw [hwhole]
      exact .of_chunk htaken (by simp [Done.delivered]) id nofun
    | ended =>
      rw [htaken] at h
      cases h
      exact .of_ended htaken rfl
    | broken =>
      rw [htaken] at h
      cases h
      exact .of_broken
    | wait =>
      rw [htaken] at h
      cases h
  | bytes size =>
    rw [tryRead, read] at h
    rcases Nat.eq_zero_or_pos size with rfl | hasked
    · cases h
      exact ⟨rfl, List.suffix_refl _, rfl, rfl, rfl, rfl,
        fun htold => absurd htold.1 (Nat.lt_irrefl 0), fun _ => rfl,
        fun _ hasks => absurd rfl hasks⟩
    · rw [if_neg (Nat.ne_of_gt hasked)] at h
      cases htaken : p.take with
      | chunk chunk r =>
        rw [htaken] at h
        cases h
        refine .of_chunk htaken (List.take_append_drop size chunk) (fun hsome hnone => hsome ?_)
          fun htold => htold.2
        exact (List.take_eq_nil_iff.1 hnone).resolve_left (Nat.ne_of_gt hasked)
      | ended =>
        rw [htaken] at h
        cases h
        exact .of_ended htaken rfl
      | broken =>
        rw [htaken] at h
        cases h
        exact .of_broken
      | wait =>
        rw [htaken] at h
        cases h

/-- A read waits only for a pipe that is empty and not closed. -/
theorem empty_of_tryRead (h : p.tryRead request = none) : p.leftover = [] ∧ p.closed = false := by
  have hwaits : p.take = .wait := by
    cases request with
    | chunk =>
      rw [tryRead] at h
      cases htaken : p.take with
      | wait => rfl
      | chunk | ended | broken => simp [htaken] at h
    | bytes size =>
      rw [tryRead, read] at h
      by_cases hasked : size = 0
      · simp [hasked] at h
      · rw [if_neg hasked] at h
        cases htaken : p.take with
        | wait => rfl
        | chunk | ended | broken => simp [htaken] at h
  have hout := p.takes
  rw [hwaits] at hout
  cases hout with
  | wait hspent husable => exact ⟨hspent, husable⟩

/-- What a completed write does: its bytes go behind those that are pending, or it broke. -/
structure Offered (p : Pipe) (data : Bytes) (result : Result) (q : Pipe) : Prop where
  bytes : q.pending = p.pending ++ (Done.write data result).accepted
  room : p.queue.length ≤ p.capacity → q.queue.length ≤ q.capacity
  chunks : (∀ chunk ∈ p.queue, chunk ≠ []) → ∀ chunk ∈ q.queue, chunk ≠ []
  capacity : q.capacity = p.capacity
  gone : q.writerGone = p.writerGone
  broken : p.closed = true → result = .broken ∧ q = p

theorem tryWrite_offered (h : p.tryWrite data = some (result, q)) : p.Offered data result q := by
  rw [tryWrite, offer] at h
  cases hclosed : p.closed with
  | true =>
    simp only [hclosed, if_true] at h
    cases h
    exact ⟨by simp [Done.accepted], id, id, rfl, rfl, fun _ => ⟨rfl, rfl⟩⟩
  | false =>
    have husable : ¬ p.closed = true := by simp [hclosed]
    rw [if_neg husable] at h
    by_cases hempty : data = []
    · subst hempty
      cases h
      exact ⟨by simp [Done.accepted], id, id, rfl, rfl, fun h => absurd h husable⟩
    · rw [if_neg (by simp [hempty])] at h
      by_cases hgone : p.readerGone = true
      · rw [if_pos hgone] at h
        cases h
        exact ⟨by simp [Done.accepted], id, id, rfl, rfl, fun h => absurd h husable⟩
      · rw [if_neg hgone] at h
        by_cases hroom : p.queue.length < p.capacity
        · rw [if_pos hroom] at h
          cases h
          refine ⟨by simp [Done.accepted, pending], fun _ => ?_, fun hchunks => ?_, rfl, rfl,
            fun h => absurd h husable⟩
          · rw [List.length_append]
            exact hroom
          · simp only [List.mem_append, List.mem_singleton]
            rintro chunk (hqueued | rfl)
            · exact hchunks chunk hqueued
            · exact hempty
        · rw [if_neg hroom] at h
          cases h

end Attempts

/-! ## Events -/

namespace Desk

inductive Event where
  /-- A write begins. -/
  | write (ticket : Nat) (data : Bytes)
  /-- A read begins. -/
  | read (ticket : Nat) (request : Request)
  /-- The write at this place in the line completes. -/
  | serve (place : Nat)
  /-- The read completes. -/
  | answer
  | giveUpWrite (place : Nat)
  | giveUpRead
  | dropWriter
  | dropReader
  | close
  deriving Repr, DecidableEq

/-- A desk, and what has completed at it, the latest last. -/
structure Account where
  desk : Desk
  done : List Done
  deriving Repr, DecidableEq

namespace Account

/-- The account after an event, if it can happen. There is one reader, who reads one thing at a
time, and an end that was let go is not used any more. -/
def advance (a : Account) : Event → Option Account
  | .write ticket data =>
    if a.desk.writerDropped then none else some { a with desk := a.desk.write ticket data }
  | .read ticket request =>
    if a.desk.isBusy || a.desk.pipe.readerGone then none
    else some { a with desk := a.desk.read ticket request }
  | .serve place => do
    let (_, data) ← a.desk.writes[place]?
    let (result, pipe) ← a.desk.pipe.tryWrite data
    some ⟨release { a.desk with pipe, writes := a.desk.writes.eraseIdx place },
      a.done ++ [.write data result]⟩
  | .answer => do
    let (_, request) ← a.desk.reading
    let (result, pipe) ← a.desk.pipe.tryRead request
    some ⟨{ a.desk with pipe, reading := none }, a.done ++ [.read request result]⟩
  | .giveUpWrite place =>
    some { a with desk := release { a.desk with writes := a.desk.writes.eraseIdx place } }
  | .giveUpRead => some { a with desk := { a.desk with reading := none } }
  | .dropWriter => if a.desk.writerDropped then none else some { a with desk := a.desk.dropWriter }
  | .dropReader =>
    if a.desk.isBusy || a.desk.pipe.readerGone then none
    else some { a with desk := a.desk.dropReader }
  | .close => some { a with desk := a.desk.close }

def play (a : Account) (es : List Event) : Option Account := es.foldlM advance a

/-- The bytes that writes have put into the pipe. -/
def accepted (a : Account) : Bytes := a.done.flatMap Done.accepted

/-- The bytes that reads have given. -/
def delivered (a : Account) : Bytes := a.done.flatMap Done.delivered

variable {a b : Account} {e : Event} {es : List Event}

theorem play_cons : a.play (e :: es) = (a.advance e).bind fun b => b.play es := List.foldlM_cons

/-- What every event respects, a whole history does. -/
theorem play_invariant {P : Account → Prop}
    (hstep : ∀ {a b : Account} {e : Event}, P a → a.advance e = some b → P b)
    (h : P a) (hplayed : a.play es = some b) : P b :=
  Runs.foldlM_invariant (fun _ => hstep) h hplayed

/-! ## What an event does -/

/-- The events that can happen, and what they make of an account. -/
inductive Happens (a : Account) : Event → Account → Prop where
  | write {ticket : Nat} {data : Bytes} (hthere : ¬ a.desk.writerDropped = true) :
      Happens a (.write ticket data) ⟨a.desk.write ticket data, a.done⟩
  | read {ticket : Nat} {request : Request} :
      Happens a (.read ticket request) ⟨a.desk.read ticket request, a.done⟩
  | serve {place ticket : Nat} {data : Bytes} {result : Result} {pipe : Pipe}
      (hfound : a.desk.writes[place]? = some (ticket, data))
      (htried : a.desk.pipe.tryWrite data = some (result, pipe)) :
      Happens a (.serve place)
        ⟨release { a.desk with pipe, writes := a.desk.writes.eraseIdx place },
          a.done ++ [.write data result]⟩
  | answer {ticket : Nat} {request : Request} {result : Result} {pipe : Pipe}
      (hreading : a.desk.reading = some (ticket, request))
      (htried : a.desk.pipe.tryRead request = some (result, pipe)) :
      Happens a .answer ⟨{ a.desk with pipe, reading := none }, a.done ++ [.read request result]⟩
  | giveUpWrite {place : Nat} : Happens a (.giveUpWrite place)
      ⟨release { a.desk with writes := a.desk.writes.eraseIdx place }, a.done⟩
  | giveUpRead : Happens a .giveUpRead ⟨{ a.desk with reading := none }, a.done⟩
  | dropWriter : Happens a .dropWriter ⟨a.desk.dropWriter, a.done⟩
  | dropReader : Happens a .dropReader ⟨a.desk.dropReader, a.done⟩
  | close : Happens a .close ⟨a.desk.close, a.done⟩

theorem advance_happens (h : a.advance e = some b) : a.Happens e b := by
  cases e with
  | write ticket data =>
    obtain ⟨hthere, h⟩ := Option.ite_none_left_eq_some.1 h
    cases h
    exact .write hthere
  | read ticket request =>
    obtain ⟨-, h⟩ := Option.ite_none_left_eq_some.1 h
    cases h
    exact .read
  | serve place =>
    obtain ⟨⟨ticket, data⟩, hfound, h⟩ := Option.bind_eq_some_iff.mp h
    obtain ⟨⟨result, pipe⟩, htried, h⟩ := Option.bind_eq_some_iff.mp h
    cases h
    exact .serve hfound htried
  | answer =>
    obtain ⟨⟨ticket, request⟩, hreading, h⟩ := Option.bind_eq_some_iff.mp h
    obtain ⟨⟨result, pipe⟩, htried, h⟩ := Option.bind_eq_some_iff.mp h
    cases h
    exact .answer hreading htried
  | giveUpWrite place =>
    cases h
    exact .giveUpWrite
  | giveUpRead =>
    cases h
    exact .giveUpRead
  | dropWriter =>
    obtain ⟨-, h⟩ := Option.ite_none_left_eq_some.1 h
    cases h
    exact .dropWriter
  | dropReader =>
    obtain ⟨-, h⟩ := Option.ite_none_left_eq_some.1 h
    cases h
    exact .dropReader
  | close =>
    cases h
    exact .close

/-- The pipes carry the same, and one is closed if the other is. -/
structure Carries (p q : Pipe) : Prop where
  capacity : q.capacity = p.capacity
  queue : q.queue = p.queue
  leftover : q.leftover = p.leftover
  closed : p.closed = true → q.closed = true

theorem Carries.refl (p : Pipe) : Carries p p := ⟨rfl, rfl, rfl, id⟩

/-- That no writer is left is all that a release changes. -/
theorem Carries.release (d : Desk) : Carries d.pipe d.release.pipe := by
  unfold Desk.release
  split
  · exact ⟨rfl, rfl, rfl, id⟩
  · exact .refl _

/-- An operation completes, or nothing does and the pipe carries what it did. -/
inductive Turn (a : Account) : Account → Prop where
  | aside {d : Desk} (hsame : Carries a.desk.pipe d.pipe) : Turn a ⟨d, a.done⟩
  | write {d : Desk} {q : Pipe} {data : Bytes} {result : Result}
      (hoffered : a.desk.pipe.Offered data result q) (hsame : Carries q d.pipe) :
      Turn a ⟨d, a.done ++ [.write data result]⟩
  | read {d : Desk} {request : Request} {result : Result}
      (hreceived : a.desk.pipe.Received request result d.pipe) :
      Turn a ⟨d, a.done ++ [.read request result]⟩

theorem Happens.turn (h : a.Happens e b) : a.Turn b := by
  cases h with
  | write | read | giveUpRead => exact .aside (.refl _)
  | @serve place ticket data result pipe hfound htried =>
    exact .write (tryWrite_offered htried)
      (.release { a.desk with pipe, writes := a.desk.writes.eraseIdx place })
  | answer hreading htried => exact .read (tryRead_received htried)
  | @giveUpWrite place =>
    exact .aside (.release { a.desk with writes := a.desk.writes.eraseIdx place })
  | dropWriter => exact .aside (.release { a.desk with writerDropped := true })
  | dropReader => exact .aside ⟨rfl, rfl, rfl, id⟩
  | close => exact .aside ⟨rfl, rfl, rfl, fun _ => rfl⟩

theorem advance_turn (h : a.advance e = some b) : a.Turn b := (advance_happens h).turn

end Account

/-! ## Steps are events -/

variable {d d' : Desk} {ticket : Nat} {result : Result}

@[simp] theorem release_writes (d : Desk) : d.release.writes = d.writes := by
  unfold release
  split <;> rfl

/-- With different tickets, the ticket tells the place. -/
theorem eraseP_eq_eraseIdx {writes : List (Nat × Bytes)} {place : Nat} {w : Nat × Bytes}
    (htickets : (writes.map Prod.fst).Nodup) (h : writes[place]? = some w) :
    (writes.eraseP fun x => x.1 == w.1) = writes.eraseIdx place := by
  induction writes generalizing place with
  | nil => rfl
  | cons x writes ih =>
    rw [List.map_cons, List.nodup_cons] at htickets
    cases place with
    | zero =>
      cases h
      rw [List.eraseP_cons_of_pos (by simp), List.eraseIdx_cons_zero]
    | succ place =>
      rw [List.getElem?_cons_succ] at h
      have hother : x.1 ≠ w.1 := fun hsame =>
        htickets.1 (hsame ▸ List.mem_map_of_mem (List.mem_of_getElem? h))
      rw [List.eraseP_cons_of_neg (by simpa using hother), List.eraseIdx_cons_succ,
        ih htickets.2 h]

theorem stepWrite_advances (htickets : (d.writes.map Prod.fst).Nodup)
    (h : d.stepWrite = some (d', ticket, result)) (done : List Done) :
    ∃ place data, Account.advance ⟨d, done⟩ (.serve place) =
      some ⟨d', done ++ [.write data result]⟩ ∧ d'.writes = d.writes.eraseIdx place := by
  obtain ⟨⟨t, data⟩, hmember, htried⟩ := List.exists_of_findSome?_eq_some h
  obtain ⟨⟨r, pipe⟩, htried, hsame⟩ := Option.map_eq_some_iff.1 htried
  cases hsame
  obtain ⟨place, hfound⟩ := List.mem_iff_getElem?.1 hmember
  refine ⟨place, data, ?_, ?_⟩
  · simp only [Account.advance, hfound, htried, Option.bind_eq_bind, Option.bind_some,
      eraseP_eq_eraseIdx htickets hfound]
  · rw [release_writes]
    exact eraseP_eq_eraseIdx htickets hfound

theorem stepRead_advances (h : d.stepRead = some (d', ticket, result)) (done : List Done) :
    ∃ request, Account.advance ⟨d, done⟩ .answer = some ⟨d', done ++ [.read request result]⟩ ∧
      d'.writes = d.writes := by
  obtain ⟨⟨t, request⟩, hreading, h⟩ := Option.bind_eq_some_iff.mp h
  obtain ⟨⟨r, pipe⟩, htried, hsame⟩ := Option.bind_eq_some_iff.mp h
  cases hsame
  refine ⟨request, ?_, rfl⟩
  simp only [Account.advance, hreading, htried, Option.bind_eq_bind, Option.bind_some]

/-- One step completes one operation. -/
theorem step_advances (htickets : (d.writes.map Prod.fst).Nodup)
    (h : d.step = some (d', ticket, result)) (done : List Done) :
    ∃ e x, Account.advance ⟨d, done⟩ e = some ⟨d', done ++ [x]⟩ ∧ x.result = result ∧
      (d'.writes.map Prod.fst).Nodup := by
  rw [step, Option.orElse_eq_orElse, Option.orElse_eq_or, Option.or_eq_some_iff] at h
  rcases h with h | ⟨-, h⟩
  · obtain ⟨place, data, hadvanced, hwrites⟩ := stepWrite_advances htickets h done
    refine ⟨_, _, hadvanced, rfl, ?_⟩
    rw [hwrites]
    exact htickets.sublist ((List.eraseIdx_sublist ..).map _)
  · obtain ⟨request, hadvanced, hwrites⟩ := stepRead_advances h done
    exact ⟨_, _, hadvanced, rfl, hwrites ▸ htickets⟩

theorem settleFor_plays (fuel : Nat) (htickets : (d.writes.map Prod.fst).Nodup) (done : List Done) :
    ∃ es new, Account.play ⟨d, done⟩ es = some ⟨(d.settleFor fuel).1, done ++ new⟩ ∧
      new.map Done.result = (d.settleFor fuel).2.map Prod.snd := by
  induction fuel generalizing d done with
  | zero => exact ⟨[], [], by simp [Account.play, settleFor], rfl⟩
  | succ fuel ih =>
    rw [settleFor]
    cases h : d.step with
    | none => exact ⟨[], [], by simp [Account.play], rfl⟩
    | some next =>
      obtain ⟨d', ticket, result⟩ := next
      obtain ⟨e, x, hadvanced, hresult, htickets'⟩ := step_advances htickets h done
      obtain ⟨es, new, hplayed, hresults⟩ := ih htickets' (done ++ [x])
      refine ⟨e :: es, x :: new, ?_, ?_⟩
      · rw [Account.play_cons, hadvanced, Option.bind_some, hplayed, List.append_assoc,
          List.singleton_append]
      · rw [List.map_cons, List.map_cons, hresult, hresults]

/-- Completing all that can be completed is a history. -/
theorem settle_plays (htickets : (d.writes.map Prod.fst).Nodup) (done : List Done) :
    ∃ es new, Account.play ⟨d, done⟩ es = some ⟨d.settle.1, done ++ new⟩ ∧
      new.map Done.result = d.settle.2.map Prod.snd :=
  settleFor_plays _ htickets done

end Desk

end Headend.Pipe
