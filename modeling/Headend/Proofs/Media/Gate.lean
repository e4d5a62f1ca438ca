import Headend.Proofs.Codec.Lead
import Headend.Proofs.Media.Crash
import Headend.Proofs.Pipe.History

/-!
# How an H.264 stream begins

A session is a writer at a pipe of which others use the rest: packets are written, and in between
the reader reads or lets go and the pipe is closed. A write that waits for room counts from when it
gets it; where there is none it is given up, and its chunk is lost.

The packet that opens the output of an H.264 writer is told by its payload alone. The stream leads
with a sequence parameter set if that payload is whole. If it is refused, the output is open
nevertheless, and what leads is whatever can be read next.
-/

namespace Headend.Media

open Codec Rtp

/-! ## Sessions -/

structure Session (W : Type) where
  writer : W
  pipe : Pipe
  delivered : Bytes
  /-- How the writes ended. -/
  endings : List Ending

namespace Session

inductive Event where
  | packet (bytes : Bytes)
  | read (request : Pipe.Request)
  | dropReader
  | close
  deriving Repr, DecidableEq

def start {W : Type} (w : W) (capacity : Nat) : Session W := ⟨w, .new capacity, [], []⟩

/-- All that has gone into the pipe. -/
def sent {W : Type} (s : Session W) : Bytes := s.delivered ++ s.pipe.pending

variable {W : Type} [PacketWriter W]

/-- A read that has to wait is put off. -/
def step (s : Session W) : Event → Session W
  | .packet bytes =>
    let r := write false s.writer s.pipe bytes
    ⟨r.writer, r.pipe, s.delivered, s.endings ++ [r.ending]⟩
  | .read request =>
    match s.pipe.tryRead request with
    | some (result, pipe) =>
      { s with pipe, delivered := s.delivered ++ (Pipe.Done.read request result).delivered }
    | none => s
  | .dropReader => { s with pipe := s.pipe.dropReader }
  | .close => { s with pipe := s.pipe.close }

def run (s : Session W) (es : List Event) : Session W := es.foldl step s

/-- The packets among the events. -/
def packets (es : List Event) : List Bytes :=
  es.filterMap fun
    | .packet bytes => some bytes
    | _ => none

theorem packets_append (es es' : List Event) : packets (es ++ es') = packets es ++ packets es' :=
  List.filterMap_append

end Session

namespace AnnexB

variable {w : AnnexB} {packet : Bytes} {p : Packet} {packets : List Bytes}

/-! ## One packet -/

/-- The payload begins with a sequence parameter set, by the look of it. -/
def Opens (packet : Bytes) : Prop :=
  ∃ p, Packet.parse packet = .ok p ∧ H264.isKeyframe p.payload = true

/-- Nothing happens before the output is opened. -/
theorem collect_shut (hshut : w.started = false) (h : ¬ Opens packet) :
    (collect w packet).writer = w ∧ (collect w packet).chunks = [] := by
  cases hparsed : Packet.parse packet with
  | crash => simp [collect, PacketWriter.accept, accept, hparsed, moveLimit, collectMoves]
  | error e => simp [collect, PacketWriter.accept, accept, hparsed, moveLimit, collectMoves]
  | ok p =>
    have hclosed : H264.isKeyframe p.payload = false := by
      simpa using fun hopens => h ⟨p, hparsed, hopens⟩
    simp [collect, PacketWriter.accept, accept, hparsed, hshut, hclosed, moveLimit, collectMoves]

/-- Once it is open, each payload is read. -/
theorem collect_open (hparsed : Packet.parse packet = .ok p)
    (hopened : w.started = true ∨ H264.isKeyframe p.payload = true) (hsome : p.payload ≠ []) :
    (collect w packet).writer = ⟨true, (H264.depacketize w.fragments p.payload).1⟩ ∧
      (collect w packet).chunks =
        match (H264.depacketize w.fragments p.payload).2 with
        | .ok out => passed [out]
        | _ => [] := by
  rcases hread : H264.depacketize w.fragments p.payload with ⟨gathered, out | fault | _⟩
  · rw [collect_of_ok hparsed hopened hread]
    exact ⟨rfl, rfl⟩
  all_goals
    have hgate : (!(w.started || H264.isKeyframe p.payload)) = false := by
      rcases hopened with h | h <;> simp [h]
    simp [collect, PacketWriter.accept, accept, hparsed, hsome, hgate, hread,
      moveLimit, collectMoves]

/-- What is sent begins with a start code. -/
theorem startCode_of_last {chunk : Bytes} {n : Nat} (h : (accept w packet).2 = .last chunk n) :
    H264.startCode <+: chunk := by
  unfold accept at h
  cases hparsed : Packet.parse packet with
  | crash => simp [hparsed] at h
  | error e => simp [hparsed] at h
  | ok p =>
    have hreads := H264.reads w.fragments p.payload
    rcases hread : H264.depacketize w.fragments p.payload with ⟨gathered, out | fault | _⟩
    · rw [hread] at hreads
      simp only [hparsed, hread] at h
      split at h
      · cases h
      · split at h
        · cases h
        · cases out with
          | nil => cases h
          | cons b bs =>
            cases h
            exact H264.startCode_of_reads hreads (List.cons_ne_nil b bs)
    all_goals
      simp only [hparsed, hread] at h
      split at h
      · cases h
      · split at h <;> cases h

/-- A packet is worth one chunk at most, and the pipe takes it or is left as it was. -/
theorem write_cases (w : AnnexB) (pipe : Pipe) (packet : Bytes) :
    (write false w pipe packet).writer = (collect w packet).writer ∧
    ((collect w packet).chunks = [] ∧ (write false w pipe packet).pipe = pipe ∨
      ∃ chunk, (collect w packet).chunks = [chunk] ∧ H264.startCode <+: chunk ∧
        ((∃ n, pipe.offer chunk = .accepted n (write false w pipe packet).pipe) ∨
          (∀ n q, pipe.offer chunk ≠ .accepted n q) ∧
            (write false w pipe packet).pipe = pipe)) := by
  have hwrites : write false w pipe packet =
      writeMoves false moveLimit (accept w packet).1 pipe [] (accept w packet).2 := rfl
  have hcollects : collect w packet =
      collectMoves moveLimit (accept w packet).1 [] (accept w packet).2 := rfl
  rw [hwrites, hcollects]
  rcases w.accept_cases packet with ⟨hmove, -⟩ | ⟨-, ⟨result, hmove⟩ | ⟨chunk, n, hmove⟩⟩
  · rw [hmove]
    exact ⟨rfl, .inl ⟨rfl, rfl⟩⟩
  · rw [hmove]
    exact ⟨rfl, .inl ⟨rfl, rfl⟩⟩
  · have hcode := startCode_of_last hmove
    rw [hmove]
    cases hoffer : pipe.offer chunk <;>
      simp [writeMoves, collectMoves, moveLimit, send, hoffer, hcode]

/-! ## A whole session -/

variable {s : Session AnnexB} {ps chunks : List Bytes} {e : Session.Event}

/-- What has gone into the pipe, for the chunks there were. -/
inductive Flow (chunks : List Bytes) (s : Session AnnexB) : Prop where
  /-- The pipe broke before the first chunk, if there was one. -/
  | nothing (hsent : s.sent = []) (hqueue : s.pipe.queue = [])
      (hwhy : chunks = [] ∨ s.pipe.closed = true ∨ s.pipe.readerGone = true)
  | first {chunk rest : Bytes} (hhead : chunks.head? = some chunk)
      (hcode : H264.startCode <+: chunk) (hsent : s.sent = chunk ++ rest)
      (hnext : rest = [] ∨ H264.startCode <+: rest)

/-- A session into which these packets were written. -/
structure Follows (ps : List Bytes) (s : Session AnnexB) : Prop where
  writer : s.writer = (collectAll new ps).1
  room : 0 < s.pipe.capacity
  flow : Flow (collectAll new ps).2 s

theorem Follows.start (capacity : Nat) : Follows [] (.start new capacity) where
  writer := rfl
  room := Nat.lt_of_lt_of_le Nat.zero_lt_one (Nat.le_max_right ..)
  flow := .nothing rfl rfl (.inl rfl)

/-- The first chunk finds the queue empty: it gets in, or the pipe is broken for good. -/
theorem Flow.offer {chunk : Bytes} {n : Nat} {q : Pipe} {w : AnnexB} {endings : List Ending}
    (h : Flow chunks s) (hcode : H264.startCode <+: chunk)
    (hoffer : s.pipe.offer chunk = .accepted n q) :
    Flow (chunks ++ [chunk]) ⟨w, q, s.delivered, endings⟩ := by
  have hgrown : Session.sent ⟨w, q, s.delivered, endings⟩ = s.sent ++ chunk := by
    rw [Session.sent, Session.sent, Pipe.pending_offer hoffer, List.append_assoc]
  cases h with
  | nothing hsent hqueue hwhy =>
    have hsome : chunk ≠ [] := by
      rintro rfl
      simp [H264.startCode] at hcode
    obtain ⟨husable, hthere⟩ := Pipe.usable_of_accepted hoffer hsome
    obtain rfl : chunks = [] := hwhy.resolve_right (by simp [husable, hthere])
    exact .first rfl hcode (by rw [hgrown, hsent, List.nil_append, List.append_nil]) (.inl rfl)
  | @first lead rest hhead hcode' hsent hnext =>
    have hbehind : Session.sent ⟨w, q, s.delivered, endings⟩ = lead ++ (rest ++ chunk) := by
      rw [hgrown, hsent, List.append_assoc]
    refine .first (by simp [hhead]) hcode' hbehind (.inr ?_)
    rcases hnext with rfl | hnext
    · exact hcode
    · exact hnext.trans (List.prefix_append ..)

theorem Flow.refuse {chunk : Bytes} {w : AnnexB} {endings : List Ending} (h : Flow chunks s)
    (hroom : 0 < s.pipe.capacity) (hoffer : ∀ n q, s.pipe.offer chunk ≠ .accepted n q) :
    Flow (chunks ++ [chunk]) ⟨w, s.pipe, s.delivered, endings⟩ := by
  cases h with
  | nothing hsent hqueue hwhy =>
    exact .nothing hsent hqueue (.inr (Pipe.unusable_of_refused hqueue hroom hoffer))
  | first hhead hcode hsent hnext => exact .first (by simp [hhead]) hcode hsent hnext

/-- What others do at the pipe moves no bytes into it. -/
theorem Flow.aside {s' : Session AnnexB} (h : Flow chunks s) (hsent : s'.sent = s.sent)
    (hqueue : s'.pipe.queue <:+ s.pipe.queue)
    (hclosed : s.pipe.closed = true → s'.pipe.closed = true)
    (hreader : s.pipe.readerGone = true → s'.pipe.readerGone = true) : Flow chunks s' := by
  cases h with
  | nothing hnone hempty hwhy =>
    exact .nothing (hsent.trans hnone) (List.suffix_nil.1 (hempty ▸ hqueue))
      (hwhy.imp_right (Or.imp hclosed hreader))
  | first hhead hcode hlead hnext => exact .first hhead hcode (hsent.trans hlead) hnext

theorem Follows.write (h : Follows ps s) (bytes : Bytes) :
    Follows (ps ++ [bytes]) (s.step (.packet bytes)) := by
  obtain ⟨hwriter, hwrote⟩ := write_cases s.writer s.pipe bytes
  have hall := collectAll_concat new ps bytes
  rw [← h.writer] at hall
  have hhanded : (s.step (.packet bytes)).writer = (collectAll new (ps ++ [bytes])).1 :=
    hwriter.trans (congrArg Prod.fst hall).symm
  have hchunks : (collectAll new (ps ++ [bytes])).2 =
      (collectAll new ps).2 ++ (collect s.writer bytes).chunks := congrArg Prod.snd hall
  rcases hwrote with ⟨hnone, hpipe⟩ | ⟨chunk, hone, hcode, ⟨n, hoffer⟩ | ⟨hoffer, hpipe⟩⟩
  · rw [hnone, List.append_nil] at hchunks
    refine ⟨hhanded, ?_, ?_⟩
    · simpa only [Session.step, hpipe] using h.room
    · simp only [Session.step, hpipe]
      exact hchunks ▸ h.flow.aside rfl (List.suffix_refl _) id id
  · rw [hone] at hchunks
    refine ⟨hhanded, ?_, hchunks ▸ h.flow.offer hcode hoffer⟩
    exact (Pipe.capacity_of_accepted hoffer).symm ▸ h.room
  · rw [hone] at hchunks
    refine ⟨hhanded, ?_, ?_⟩
    · simpa only [Session.step, hpipe] using h.room
    · simp only [Session.step, hpipe]
      exact hchunks ▸ h.flow.refuse h.room hoffer

theorem Follows.aside {s' : Session AnnexB} (h : Follows ps s) (hwriter : s'.writer = s.writer)
    (hcapacity : s'.pipe.capacity = s.pipe.capacity) (hflow : Flow (collectAll new ps).2 s') :
    Follows (ps ++ []) s' := by
  rw [List.append_nil]
  exact ⟨hwriter.trans h.writer, hcapacity ▸ h.room, hflow⟩

theorem Follows.step (h : Follows ps s) (e : Session.Event) :
    Follows (ps ++ Session.packets [e]) (s.step e) := by
  cases e with
  | packet bytes => exact h.write bytes
  | read request =>
    simp only [Session.step]
    cases htried : s.pipe.tryRead request with
    | none => exact h.aside rfl rfl h.flow
    | some next =>
      obtain ⟨result, q⟩ := next
      have hreceived := Pipe.tryRead_received htried
      refine h.aside rfl hreceived.capacity (h.flow.aside ?_ hreceived.queue ?_ ?_)
      · rw [Session.sent, List.append_assoc, hreceived.bytes]
        rfl
      · exact fun hclosed => hreceived.closed.trans hclosed
      · exact fun hgone => hreceived.reader.trans hgone
  | dropReader =>
    exact h.aside rfl rfl (h.flow.aside rfl (List.suffix_refl _) id fun _ => rfl)
  | close => exact h.aside rfl rfl (h.flow.aside rfl (List.suffix_refl _) (fun _ => rfl) id)

theorem Follows.run (h : Follows ps s) (es : List Session.Event) :
    Follows (ps ++ Session.packets es) (s.run es) := by
  induction es generalizing ps s with
  | nil => simpa [Session.packets, Session.run] using h
  | cons e es ih =>
    have hnext := ih (h.step e)
    rw [List.append_assoc] at hnext
    have hsplit : Session.packets (e :: es) = Session.packets [e] ++ Session.packets es := by
      rw [← Session.packets_append]
      rfl
    rw [hsplit]
    exact hnext

/-! ## The packet that opens the output -/

/-- Of packets that give anything, one is the first to open the output; those before it give
nothing. -/
theorem exists_opening (hsome : (collectAll new ps).2 ≠ []) :
    ∃ before raw after, ps = before ++ raw :: after ∧ (∀ b ∈ before, ¬ Opens b) ∧ Opens raw ∧
      (collectAll new ps).2 = (collectAll new (raw :: after)).2 := by
  induction ps with
  | nil => exact absurd rfl hsome
  | cons packet ps ih =>
    by_cases hopens : Opens packet
    · exact ⟨[], packet, ps, rfl, List.forall_mem_nil _, hopens, rfl⟩
    · obtain ⟨hwriter, hnone⟩ := collect_shut (w := new) rfl hopens
      have hskipped : (collectAll new (packet :: ps)).2 = (collectAll new ps).2 := by
        simp [collectAll, hwriter, hnone]
      rw [hskipped] at hsome ⊢
      obtain ⟨before, raw, after, rfl, hshut, hopened, hsame⟩ := ih hsome
      exact ⟨packet :: before, raw, after, rfl, List.forall_mem_cons.2 ⟨hopens, hshut⟩,
        hopened, hsame⟩

/-- What the first chunk leads with, the stream does. -/
theorem Flow.leads_iff (h : Flow chunks s) (hsome : s.sent ≠ []) :
    ∃ chunk, chunks.head? = .some chunk ∧ (H264.LeadsWithSps s.sent ↔ H264.LeadsWithSps chunk) := by
  cases h with
  | nothing hsent => exact absurd hsent hsome
  | first hhead hcode hsent hnext => exact ⟨_, hhead, hsent ▸ H264.leadsWithSps_append hcode hnext⟩

/-- A writer right behind the packet that opened its output. -/
def opened : AnnexB := ⟨true, []⟩

/-- The packet that opens the output gives the first chunk, or its payload is refused and the first
chunk is that of a later packet. -/
theorem leads_iff_whole {raw chunk : Bytes} {after : List Bytes}
    (hparsed : Packet.parse raw = .ok p) (hopens : H264.isKeyframe p.payload = true)
    (hfirst : (collectAll new (raw :: after)).2.head? = some chunk) :
    H264.LeadsWithSps chunk ↔ H264.Whole p.payload ∨
      (∀ out, (H264.depacketize [] p.payload).2 ≠ .ok out) ∧
        ∃ chunk ∈ (collectAll opened after).2.head?, H264.LeadsWithSps chunk := by
  have hnonempty : p.payload ≠ [] := by
    intro hnone
    simp [hnone, H264.isKeyframe] at hopens
  obtain ⟨hwriter, hchunks⟩ := collect_open (w := new) hparsed (.inr hopens) hnonempty
  rw [show new.fragments = [] from rfl] at hwriter hchunks
  have hwhole := H264.whole_iff hopens []
  have hreads := H264.reads [] p.payload
  rcases hread : H264.depacketize [] p.payload with ⟨g, out⟩
  rw [hread] at hwriter hchunks hwhole hreads
  obtain ⟨rfl, hnonempty⟩ := H264.keeps_of_isKeyframe hopens hreads
  have hall : (collectAll new (raw :: after)).2 =
      (collect new raw).chunks ++ (collectAll opened after).2 := by
    simp only [collectAll, hwriter, opened]
  rw [hall, hchunks] at hfirst
  cases out with
  | ok out =>
    have hpasses : passed [out] = [out] := by
      simpa [passed] using hnonempty
    obtain rfl : out = chunk := by simpa [hpasses] using hfirst
    rw [hwhole]
    simp
  | error fault =>
    have hfirst : (collectAll opened after).2.head? = some chunk := hfirst
    rw [hwhole]
    simp [hfirst]
  | crash =>
    have hfirst : (collectAll opened after).2.head? = some chunk := hfirst
    rw [hwhole]
    simp [hfirst]

/-- A stream that is not empty leads with a sequence parameter set exactly if the first payload that
seems to begin with one is whole, or is refused and the first chunk of the later packets does. -/
theorem sent_leads_iff (capacity : Nat) (es : List Session.Event)
    (hsome : ((Session.start new capacity).run es).sent ≠ []) :
    ∃ before raw after p, Session.packets es = before ++ raw :: after ∧
      (∀ b ∈ before, ¬ Opens b) ∧ Packet.parse raw = .ok p ∧
      H264.isKeyframe p.payload = true ∧
      (H264.LeadsWithSps ((Session.start new capacity).run es).sent ↔ H264.Whole p.payload ∨
        (∀ out, (H264.depacketize [] p.payload).2 ≠ .ok out) ∧
          ∃ chunk ∈ (collectAll opened after).2.head?, H264.LeadsWithSps chunk) := by
  have hfollows := (Follows.start capacity).run es
  rw [List.nil_append] at hfollows
  obtain ⟨chunk, hfirst, hleads⟩ := hfollows.flow.leads_iff hsome
  have hany : (collectAll new (Session.packets es)).2 ≠ [] := by
    intro hnone
    simp [hnone] at hfirst
  obtain ⟨before, raw, after, hsplit, hshut, ⟨p, hparsed, hopens⟩, hsame⟩ := exists_opening hany
  exact ⟨before, raw, after, p, hsplit, hshut, hparsed, hopens,
    hleads.trans (leads_iff_whole hparsed hopens (hsame ▸ hfirst))⟩

/-- A slice. -/
def slicePacket : Bytes :=
  [0x80, 0xE6, 0x00, 0x01, 0x00, 0x00, 0x0B, 0xB8, 0x12, 0x34, 0x56, 0x78, 0x65, 0x88, 0x84, 0x00]

/-- A sequence parameter set in an aggregate, with a unit behind it that is cut short. -/
def cutShortPacket : Bytes :=
  [0x80, 0xE6, 0x00, 0x00, 0x00, 0x00, 0x0B, 0xB8, 0x12, 0x34, 0x56, 0x78, 0x78, 0x00, 0x04, 0x67,
    0x42, 0xC0, 0x1F, 0x00, 0x10, 0x68]

/-- A slice comes too early, and a part is read before the next one comes. -/
def earlySlice : List Session.Event :=
  [.packet slicePacket, .packet openingPacket, .read (.bytes 6), .packet slicePacket]

theorem sent_leads_earlySlice :
    ((Session.start new 1).run earlySlice).sent ≠ [] ∧
      H264.LeadsWithSps ((Session.start new 1).run earlySlice).sent := by
  have hsome : ((Session.start new 1).run earlySlice).sent ≠ [] := by decide
  obtain ⟨before, raw, after, p, hsplit, -, hparsed, hopens, hleads⟩ :=
    sent_leads_iff 1 earlySlice hsome
  refine ⟨hsome, hleads.2 (.inl ?_)⟩
  have hmember : raw ∈ Session.packets earlySlice := by
    rw [hsplit]
    exact List.mem_append_right _ List.mem_cons_self
  have hwhich : raw = slicePacket ∨ raw = openingPacket ∨ raw = slicePacket := by
    simpa [earlySlice, Session.packets] using hmember
  rcases hwhich with rfl | rfl | rfl
  · cases hparsed
    cases hopens
  · cases hparsed
    exact .single (by decide) (by decide)
  · cases hparsed
    cases hopens

/-- A payload that is refused, and a slice behind it. -/
def refusedOpening : List Session.Event := [.packet cutShortPacket, .packet slicePacket]

/-- A payload that is refused opens the output all the same, and what leads is a slice. -/
theorem sent_leads_with_slice : ¬ ∀ (capacity : Nat) (es : List Session.Event),
    (∀ ending ∈ ((Session.start new capacity).run es).endings, ending ≠ .crashed) →
      ((Session.start new capacity).run es).sent ≠ [] →
        H264.LeadsWithSps ((Session.start new capacity).run es).sent := by
  intro h
  have hsent : ((Session.start new 8).run refusedOpening).sent =
      H264.startCode ++ [0x65, 0x88, 0x84, 0x00] := by decide
  have hleads := h 8 refusedOpening ?_ (by simp [hsent])
  · rw [hsent, H264.leadsWithSps_iff] at hleads
    obtain ⟨header, hfirst, htype⟩ := hleads
    cases hfirst
    exact absurd htype (by decide)
  · have hendings : ((Session.start new 8).run refusedOpening).endings =
        [.finished (.error (.depacketize (H264.Fault.aggregateOverrun 16 1).message)),
          .finished (.ok 16)] := rfl
    simp [hendings]

end AnnexB

end Headend.Media
