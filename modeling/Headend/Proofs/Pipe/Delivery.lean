import Headend.Proofs.Pipe.History

/-!
# What a pipe delivers

Over every history of a desk the bytes accepted are the bytes delivered and, behind them, those
still pending, in order; the end of the stream is told when nothing is pending and never will be. A
pipe that is closed takes nothing more, and all it still gives is the rest of a chunk of which a
part was read before.
-/

namespace Headend.Pipe.Desk.Account

variable {a b : Account} {d : Desk} {e : Event} {es : List Event} {x : Done} {capacity : Nat}

def new (capacity : Nat) : Account := ⟨.new capacity, []⟩

theorem accepted_concat (a : Account) (d : Desk) (x : Done) :
    accepted ⟨d, a.done ++ [x]⟩ = a.accepted ++ x.accepted := by
  simp [accepted]

theorem delivered_concat (a : Account) (d : Desk) (x : Done) :
    delivered ⟨d, a.done ++ [x]⟩ = a.delivered ++ x.delivered := by
  simp [delivered]

@[simp] theorem accepted_read (request : Request) (result : Result) :
    (Done.read request result).accepted = [] := rfl

@[simp] theorem delivered_write (data : Bytes) (result : Result) :
    (Done.write data result).delivered = [] := rfl

theorem Carries.pending {p q : Pipe} (h : Carries p q) : q.pending = p.pending := by
  rw [Pipe.pending, Pipe.pending, h.leftover, h.queue]

/-! ## Bytes in order -/

/-- Nothing is lost, repeated or out of place, and the queue keeps to the capacity. -/
structure Balanced (capacity : Nat) (a : Account) : Prop where
  flow : a.delivered ++ a.desk.pipe.pending = a.accepted
  capacity : a.desk.pipe.capacity = max capacity 1
  room : a.desk.pipe.queue.length ≤ a.desk.pipe.capacity
  /-- Were an empty chunk queued, reading it would look like the end. -/
  chunks : ∀ chunk ∈ a.desk.pipe.queue, chunk ≠ []

theorem Balanced.new (capacity : Nat) : Balanced capacity (new capacity) where
  flow := rfl
  capacity := rfl
  room := Nat.zero_le _
  chunks := nofun

theorem Balanced.advance (h : Balanced capacity a) (hadvanced : a.advance e = some b) :
    Balanced capacity b := by
  cases advance_turn hadvanced with
  | aside hsame =>
    refine ⟨?_, hsame.capacity ▸ h.capacity, ?_, hsame.queue ▸ h.chunks⟩
    · rw [hsame.pending]
      exact h.flow
    · rw [hsame.queue, hsame.capacity]
      exact h.room
  | write hoffered hsame =>
    refine ⟨?_, hsame.capacity ▸ hoffered.capacity ▸ h.capacity, ?_,
      hsame.queue ▸ hoffered.chunks h.chunks⟩
    · rw [accepted_concat, delivered_concat, delivered_write, List.append_nil, hsame.pending,
        hoffered.bytes, ← List.append_assoc, h.flow]
    · rw [hsame.queue, hsame.capacity]
      exact hoffered.room h.room
  | read hreceived =>
    refine ⟨?_, hreceived.capacity ▸ h.capacity, ?_, fun chunk hqueued =>
      h.chunks chunk (hreceived.queue.subset hqueued)⟩
    · rw [accepted_concat, delivered_concat, accepted_read, List.append_nil, List.append_assoc,
        hreceived.bytes, h.flow]
    · rw [hreceived.capacity]
      exact Nat.le_trans hreceived.queue.length_le h.room

theorem Balanced.play (h : Balanced capacity a) (hplayed : a.play es = some b) :
    Balanced capacity b :=
  play_invariant .advance h hplayed

/-! ## The end -/

/-- The writer counts as gone once it was let go and no write waits. -/
def Parted (a : Account) : Prop :=
  a.desk.pipe.writerGone = true → a.desk.writerDropped = true ∧ a.desk.writes = []

theorem Parted.new (capacity : Nat) : (new capacity).Parted := fun hgone => Bool.noConfusion hgone

theorem Parted.release {d : Desk} (done : List Done)
    (h : d.pipe.writerGone = true → d.writerDropped = true ∧ d.writes = []) :
    Parted ⟨d.release, done⟩ := by
  unfold Parted Desk.release
  split
  case isTrue hparted =>
    intro
    simpa using hparted
  case isFalse => exact h

/-- No write begins and none completes once the writer is gone. -/
theorem Parted.advance (h : a.Parted) (hadvanced : a.advance e = some b) : b.Parted := by
  cases advance_happens hadvanced with
  | write hthere => exact fun hgone => absurd (h hgone).1 hthere
  | serve hfound htried =>
    refine .release _ fun hgone => ?_
    obtain ⟨hdropped, hnone⟩ := h ((tryWrite_offered htried).gone ▸ hgone)
    simp [hnone] at hfound
  | answer hreading htried => exact fun hgone => h ((tryRead_received htried).gone ▸ hgone)
  | giveUpWrite =>
    refine .release _ fun hgone => ?_
    obtain ⟨hdropped, hnone⟩ := h hgone
    exact ⟨hdropped, by simp [hnone]⟩
  | dropWriter => exact .release _ fun hgone => ⟨rfl, (h hgone).2⟩
  | read | giveUpRead | dropReader | close => exact h

theorem Parted.play (h : a.Parted) (hplayed : a.play es = some b) : b.Parted :=
  play_invariant .advance h hplayed

/-- A reader is told the end only when all that was accepted was delivered. -/
theorem Balanced.ended (h : Balanced capacity a) (hadvanced : a.advance e = some b)
    (hlast : b.done = a.done ++ [x]) (htold : x.TellsEnd) :
    a.desk.pipe.writerGone = true ∧ a.delivered = a.accepted := by
  cases advance_turn hadvanced with
  | aside hsame => simp at hlast
  | write hoffered hsame =>
    obtain rfl := List.singleton_inj.1 (List.append_cancel_left hlast)
    exact htold.elim
  | read hreceived =>
    obtain rfl := List.singleton_inj.1 (List.append_cancel_left hlast)
    obtain ⟨hgone, hnothing⟩ := hreceived.ended htold h.chunks
    refine ⟨hgone, ?_⟩
    rw [← h.flow, hnothing, List.append_nil]

/-- Over every history the bytes delivered, then what is left of a chunk read in part, then the
queue, are the bytes accepted; the queue keeps to the capacity; and a read that is told the end is
told so after the writer was let go, with no write waiting and every byte accepted delivered. -/
theorem delivery_in_order (hplayed : (new capacity).play es = some a) :
    a.delivered ++ (a.desk.pipe.leftover ++ a.desk.pipe.queue.flatten) = a.accepted ∧
    a.desk.pipe.queue.length ≤ max capacity 1 ∧
    ∀ e b x, a.advance e = some b → b.done = a.done ++ [x] → x.TellsEnd →
      (a.desk.writerDropped = true ∧ a.desk.writes = []) ∧ a.delivered = a.accepted := by
  have hbalanced := (Balanced.new capacity).play hplayed
  have hparted := (Parted.new capacity).play hplayed
  refine ⟨hbalanced.flow, hbalanced.capacity ▸ hbalanced.room,
    fun e b x hadvanced hlast htold => ?_⟩
  obtain ⟨hgone, hall⟩ := hbalanced.ended hadvanced hlast htold
  exact ⟨hparted hgone, hall⟩

/-- Two chunks and an empty one go through a pipe that holds one chunk; the second waits for room,
and the reader takes the first in two parts. -/
def throughNarrowPipe : List Event :=
  [.write 0 [1, 2, 3], .serve 0, .write 1 [], .write 2 [4, 5], .serve 0, .dropWriter,
    .read 3 (.bytes 2), .answer, .serve 0, .read 4 (.bytes 8), .answer, .read 5 .chunk, .answer,
    .read 6 (.bytes 8)]

theorem delivery_in_order_to_end : ∃ a b, (new 1).play throughNarrowPipe = some a ∧
    a.advance .answer = some b ∧ b.done = a.done ++ [.read (.bytes 8) (.bytes [])] ∧
    (a.desk.writerDropped = true ∧ a.desk.writes = []) ∧ a.delivered = a.accepted ∧
    a.accepted = [1, 2, 3, 4, 5] := by
  refine ⟨_, _, rfl, rfl, rfl, ?_⟩
  have hended := (@delivery_in_order _ throughNarrowPipe 1 rfl).2.2
  have htold := hended .answer _ (.read (.bytes 8) (.bytes [])) rfl rfl ⟨by decide, rfl⟩
  exact ⟨htold.1, htold.2, rfl⟩

/-! ## Closing -/

/-- What is left of a pipe that was `p` when it was closed. -/
structure Shut (p : Pipe) (a : Account) : Prop where
  closed : a.desk.pipe.closed = true
  queue : a.desk.pipe.queue = p.queue
  /-- Only what was left over comes out. -/
  flow : a.delivered ++ a.desk.pipe.leftover = p.leftover
  writes : ∀ data result, .write data result ∈ a.done → result = .broken
  reads : ∀ request result, .read request result ∈ a.done → request ≠ .bytes 0 →
    result = .broken ∨ (Done.read request result).delivered ≠ []

theorem Shut.close (d : Desk) : Shut d.pipe ⟨d.close, []⟩ where
  closed := rfl
  queue := rfl
  flow := rfl
  writes := nofun
  reads := nofun

theorem Shut.advance {p : Pipe} (h : Shut p a) (hadvanced : a.advance e = some b) : Shut p b := by
  cases advance_turn hadvanced with
  | aside hsame =>
    refine ⟨hsame.closed h.closed, hsame.queue.trans h.queue, ?_, h.writes, h.reads⟩
    rw [hsame.leftover]
    exact h.flow
  | write hoffered hsame =>
    obtain ⟨rfl, rfl⟩ := hoffered.broken h.closed
    refine ⟨hsame.closed h.closed, hsame.queue.trans h.queue, ?_, fun data result hmember => ?_,
      fun request result hmember => ?_⟩
    · rw [delivered_concat, delivered_write, List.append_nil, hsame.leftover]
      exact h.flow
    · rcases List.mem_append.1 hmember with hbefore | hnew
      · exact h.writes data result hbefore
      · cases List.mem_singleton.1 hnew
        rfl
    · exact h.reads request result (by simpa using hmember)
  | @read d request result hreceived =>
    have hkept := hreceived.kept h.closed
    refine ⟨hreceived.closed.trans h.closed, hkept.trans h.queue, ?_, fun data result hmember => ?_,
      fun request result hmember hasks => ?_⟩
    · have hbytes := hreceived.bytes
      rw [Pipe.pending, Pipe.pending, hkept, ← List.append_assoc] at hbytes
      rw [delivered_concat, List.append_assoc, List.append_cancel_right hbytes]
      exact h.flow
    · exact h.writes data result (by simpa using hmember)
    · rcases List.mem_append.1 hmember with hbefore | hnew
      · exact h.reads request result hbefore hasks
      · cases List.mem_singleton.1 hnew
        exact hreceived.broken h.closed hasks

theorem Shut.play {p : Pipe} (h : Shut p a) (hplayed : a.play es = some b) : Shut p b :=
  play_invariant .advance h hplayed

/-- With nothing left over, every operation breaks. -/
theorem Shut.all_broken {p : Pipe} (h : Shut p a) (hspent : p.leftover = []) {x : Done}
    (hmember : x ∈ a.done) (hasks : x.Asks) : x.result = .broken := by
  cases x with
  | write data result => exact h.writes data result hmember
  | read request result =>
    refine (h.reads request result hmember hasks).resolve_right fun hsome => hsome ?_
    have hflow := h.flow
    rw [hspent, List.append_eq_nil_iff] at hflow
    exact List.flatMap_eq_nil_iff.1 hflow.1 _ hmember

/-- A closed pipe lets nobody wait. -/
theorem Shut.served {p : Pipe} (h : Shut p a) :
    (∀ place < a.desk.writes.length, ∃ b, a.advance (.serve place) = some b) ∧
      (a.desk.reading.isSome = true → ∃ b, a.advance .answer = some b) := by
  constructor
  · intro place hlt
    have htried : ∀ data, a.desk.pipe.tryWrite data = some (.broken, a.desk.pipe) := fun data => by
      simp [tryWrite, offer, h.closed]
    simp [Account.advance, List.getElem?_eq_getElem hlt, htried]
  · intro hwaiting
    obtain ⟨⟨ticket, request⟩, hreading⟩ := Option.isSome_iff_exists.1 hwaiting
    cases htried : a.desk.pipe.tryRead request with
    | none => exact absurd h.closed (by simp [(empty_of_tryRead htried).2])
    | some next => simp [Account.advance, hreading, htried]

/-- What is left over can still be read. -/
theorem exists_delivered (hleft : d.pipe.leftover ≠ []) (hthere : d.pipe.readerGone = false) :
    ∃ es b, Account.play ⟨d.close, []⟩ es = some b ∧ b.delivered = d.pipe.leftover := by
  have htried : d.pipe.close.tryRead .chunk =
      some (.chunk d.pipe.leftover, { d.pipe.close with leftover := [] }) := by
    simp [tryRead, take, Pipe.close, hleft]
  refine ⟨[.giveUpRead, .read 0 .chunk, .answer],
    ⟨{ d.close with pipe := { d.pipe.close with leftover := [] }, reading := none },
      [.read .chunk (.chunk d.pipe.leftover)]⟩, ?_, by simp [delivered, Done.delivered]⟩
  have hgone : d.pipe.close.readerGone = false := hthere
  simp [Account.advance, Desk.isBusy, Desk.read, Desk.close, hgone, htried, Account.play]

/-- After a close every write breaks. A read breaks, too, or gives bytes, and the bytes given are
what was left over of a chunk read in part; if nothing was, or if a read was waiting, every read
breaks. No operation waits any more. -/
theorem close_breaks (d : Desk) :
    (∀ es a, Account.play ⟨d.close, []⟩ es = some a →
      (∀ data result, .write data result ∈ a.done → result = .broken) ∧
      (∀ request result, .read request result ∈ a.done → request ≠ .bytes 0 →
        result = .broken ∨ (Done.read request result).delivered ≠ []) ∧
      a.delivered ++ a.desk.pipe.leftover = d.pipe.leftover ∧
      ((d.pipe.leftover = [] ∨ ∃ request, d.pipe.tryRead request = none) →
        ∀ x ∈ a.done, x.Asks → x.result = .broken) ∧
      (∀ place < a.desk.writes.length, ∃ b, a.advance (.serve place) = some b) ∧
      (a.desk.reading.isSome = true → ∃ b, a.advance .answer = some b)) ∧
    (d.pipe.leftover ≠ [] → d.pipe.readerGone = false →
      ∃ es b, Account.play ⟨d.close, []⟩ es = some b ∧ b.delivered = d.pipe.leftover) := by
  refine ⟨fun es a hplayed => ?_, exists_delivered⟩
  have hshut := (Shut.close d).play hplayed
  refine ⟨hshut.writes, hshut.reads, hshut.flow, fun hspent x hmember hasks => ?_, hshut.served⟩
  refine hshut.all_broken ?_ hmember hasks
  rcases hspent with hspent | ⟨request, hwaits⟩
  · exact hspent
  · exact (empty_of_tryRead hwaits).1

/-- A chunk is read in part, the next one is queued, and one more waits for room. -/
def fullAndReadInPart : List Event :=
  [.write 0 [1, 2, 3], .serve 0, .read 1 (.bytes 2), .answer, .write 2 [4], .serve 0, .write 3 [5]]

def readToTheEnd : List Event := [.read 4 .chunk, .answer, .serve 0, .read 5 .chunk, .answer]

/-- The byte left over still comes out of the closed pipe; the write that waited and the next read
break. -/
theorem close_breaks_in_use : ∃ a b, (new 1).play fullAndReadInPart = some a ∧
    Account.play ⟨a.desk.close, []⟩ readToTheEnd = some b ∧
    b.done = [.read .chunk (.chunk [3]), .write [5] .broken, .read .chunk .broken] ∧
    b.delivered ++ b.desk.pipe.leftover = a.desk.pipe.leftover := by
  refine ⟨_, _, rfl, rfl, rfl, ?_⟩
  exact ((close_breaks _).1 readToTheEnd _ rfl).2.2.1

/-- It is not so that nothing comes out of a closed pipe: a chunk read in part does. -/
theorem close_delivers : ¬ ∀ (capacity : Nat) (es es' : List Event) (a b : Account),
    (new capacity).play es = some a → Account.play ⟨a.desk.close, []⟩ es' = some b →
      (∀ x ∈ b.done, x.Asks → x.result = .broken) ∧ b.delivered = [] := by
  intro h
  have hnone := (h 3 [.write 0 [0x61, 0x62, 0x63], .serve 0, .read 1 (.bytes 1), .answer]
    [.read 2 .chunk, .answer] _ _ rfl rfl).2
  cases hnone

end Headend.Pipe.Desk.Account
