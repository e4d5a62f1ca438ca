import Headend.Media.Writer

/-!
# Feeding a writer

`feed` writes packets one after another into a pipe whose reader takes all there is after each of
them. Such a pipe never makes the writer wait, so what comes out is what `collect` says, less the
empty chunks, which a pipe does not pass on.
-/

namespace Headend.Media

variable {W : Type} [PacketWriter W]

structure Fed (W : Type) where
  writer : W
  pipe : Pipe
  /-- Chunks read from the pipe. -/
  chunks : List Bytes

def feed (w : W) (pipe : Pipe) : List Bytes → Fed W
  | [] => ⟨w, pipe, []⟩
  | packet :: packets =>
    let r := write true w pipe packet
    let (out, pipe, _) := r.pipe.drain
    let rest := feed r.writer pipe packets
    { rest with chunks := r.drained ++ out ++ rest.chunks }

/-- The chunks of several packets, with nothing in the way. -/
def collectAll (w : W) : List Bytes → W × List Bytes
  | [] => (w, [])
  | packet :: packets =>
    let c := collect w packet
    let (w, out) := collectAll c.writer packets
    (w, c.chunks ++ out)

theorem collectAll_append (w : W) (xs ys : List Bytes) :
    collectAll w (xs ++ ys) = ((collectAll (collectAll w xs).1 ys).1,
      (collectAll w xs).2 ++ (collectAll (collectAll w xs).1 ys).2) := by
  induction xs generalizing w with
  | nil => rfl
  | cons x xs ih => simp [collectAll, ih]

theorem collectAll_concat (w : W) (xs : List Bytes) (x : Bytes) :
    collectAll w (xs ++ [x]) = ((collect (collectAll w xs).1 x).writer,
      (collectAll w xs).2 ++ (collect (collectAll w xs).1 x).chunks) := by
  rw [collectAll_append]
  simp [collectAll]

/-! ## A pipe that is drained -/

/-- A pipe in use, with some chunks queued. -/
def queued (capacity : Nat) (queue : List Bytes) : Pipe :=
  { Pipe.new capacity with queue := queue }

/-- Chunks that a pipe passes on. -/
def passed (chunks : List Bytes) : List Bytes := chunks.filter (!·.isEmpty)

theorem drain_queued (capacity : Nat) (queue : List Bytes) :
    (queued capacity queue).drain = (queue, Pipe.new capacity, .waiting) := rfl

/-- A chunk always gets into a pipe that is emptied when it is full. -/
theorem send_queued (capacity : Nat) (queue : List Bytes) (chunk : Bytes) :
    ∃ more n queue', send true (queued capacity queue) chunk =
      (more, .accepted n (queued capacity queue'))
      ∧ more ++ queue' = queue ++ passed [chunk] := by
  by_cases hempty : chunk.isEmpty
  · -- An empty chunk is taken and goes nowhere.
    refine ⟨[], 0, queue, ?_, by simp [passed, hempty]⟩
    simp [send, Pipe.offer, queued, Pipe.new, hempty]
  · by_cases hroom : queue.length < max capacity 1
    · refine ⟨[], chunk.length, queue ++ [chunk], ?_, by simp [passed, hempty]⟩
      simp [send, Pipe.offer, queued, Pipe.new, hempty, hroom]
    · -- The pipe is full: the reader takes all that is queued first.
      refine ⟨queue, chunk.length, [chunk], ?_, by simp [passed, hempty]⟩
      simp [send, Pipe.offer, queued, Pipe.new, Pipe.drain, hempty, hroom]

theorem collectMoves_out (fuel : Nat) (w : W) (out : List Bytes) (move : Move) :
    collectMoves fuel w out move = { collectMoves fuel w [] move with
      chunks := out ++ (collectMoves fuel w [] move).chunks } := by
  induction fuel generalizing w out move with
  | zero => simp [collectMoves]
  | succ fuel ih =>
    cases move with
    | crash => simp [collectMoves]
    | finish result => simp [collectMoves]
    | last chunk result => simp [collectMoves]
    | again => exact ih ..
    | emit chunk =>
      simp only [collectMoves]
      rw [ih _ (out ++ [chunk]), ih _ ([] ++ [chunk])]
      simp

theorem writeMoves_queued (capacity fuel : Nat) (w : W) (queue out : List Bytes) (move : Move) :
    ∃ queue', (writeMoves true fuel w (queued capacity queue) out move).pipe =
      queued capacity queue' ∧
      (writeMoves true fuel w (queued capacity queue) out move).drained ++ queue' =
        out ++ queue ++ passed (collectMoves fuel w [] move).chunks ∧
      (writeMoves true fuel w (queued capacity queue) out move).writer =
        (collectMoves fuel w [] move).writer := by
  induction fuel generalizing w queue out move with
  | zero => exact ⟨queue, rfl, by simp [writeMoves, collectMoves, passed], rfl⟩
  | succ fuel ih =>
    cases move with
    | crash => exact ⟨queue, rfl, by simp [writeMoves, collectMoves, passed], rfl⟩
    | finish result => exact ⟨queue, rfl, by simp [writeMoves, collectMoves, passed], rfl⟩
    | again => exact ih ..
    | last chunk result =>
      obtain ⟨more, n, queue', hsend, hmore⟩ := send_queued capacity queue chunk
      refine ⟨queue', ?_, ?_, ?_⟩
      · simp [writeMoves, hsend]
      · simp [writeMoves, collectMoves, hsend, hmore]
      · simp [writeMoves, collectMoves, hsend]
    | emit chunk =>
      obtain ⟨more, n, queue', hsend, hmore⟩ := send_queued capacity queue chunk
      obtain ⟨queue'', hpipe, hout, hwriter⟩ :=
        ih (PacketWriter.resume w).1 queue' (out ++ more) (PacketWriter.resume w).2
      refine ⟨queue'', ?_, ?_, ?_⟩
      · simpa [writeMoves, hsend] using hpipe
      · simp only [writeMoves, collectMoves, hsend, hout]
        rw [collectMoves_out _ _ ([] ++ [chunk])]
        simp only [passed, List.filter_append, List.nil_append, List.append_assoc] at hmore ⊢
        rw [← List.append_assoc more, hmore, List.append_assoc]
      · simp only [writeMoves, collectMoves, hsend, hwriter]
        rw [collectMoves_out _ _ ([] ++ [chunk])]

/-- What is read from a drained pipe. -/
theorem feed_new (w : W) (capacity : Nat) (packets : List Bytes) :
    feed w (Pipe.new capacity) packets = ⟨(collectAll w packets).1, Pipe.new capacity,
      passed (collectAll w packets).2⟩ := by
  induction packets generalizing w with
  | nil => rfl
  | cons packet packets ih =>
    obtain ⟨queue, hpipe, hout, hwriter⟩ := writeMoves_queued capacity moveLimit
      (PacketWriter.accept w packet).1 [] [] (PacketWriter.accept w packet).2
    change (write true w (Pipe.new capacity) packet).pipe = _ at hpipe
    change (write true w (Pipe.new capacity) packet).drained ++ queue = _ at hout
    change (write true w (Pipe.new capacity) packet).writer = (collect w packet).writer at hwriter
    simp only [feed, collectAll, hpipe, drain_queued, hwriter, ih]
    rw [hout]
    simp [passed, collect]

/-! ## How writes end -/

/-- How each of several writes ends. Between them the reader takes all there is. -/
def endings (w : W) (pipe : Pipe) : List Bytes → List Ending
  | [] => []
  | packet :: packets =>
    let r := write true w pipe packet
    r.ending :: endings r.writer r.pipe.drain.2.1 packets

theorem writeMoves_ending (capacity fuel : Nat) (w : W) (queue out : List Bytes) (move : Move) :
    (writeMoves true fuel w (queued capacity queue) out move).ending =
      (collectMoves fuel w [] move).ending := by
  induction fuel generalizing w queue out move with
  | zero => rfl
  | succ fuel ih =>
    cases move with
    | crash => rfl
    | finish result => rfl
    | again => exact ih ..
    | last chunk result =>
      obtain ⟨more, n, queue', hsend, -⟩ := send_queued capacity queue chunk
      simp [writeMoves, collectMoves, hsend]
    | emit chunk =>
      obtain ⟨more, n, queue', hsend, -⟩ := send_queued capacity queue chunk
      simp only [writeMoves, collectMoves, hsend]
      rw [ih, collectMoves_out _ _ ([] ++ [chunk])]

/-- A drained pipe has no say in how a write ends. -/
theorem endings_cons (w : W) (capacity : Nat) (packet : Bytes) (packets : List Bytes) :
    endings w (Pipe.new capacity) (packet :: packets) = (collect w packet).ending ::
      endings (collect w packet).writer (Pipe.new capacity) packets := by
  obtain ⟨queue, hpipe, -, hwriter⟩ := writeMoves_queued capacity moveLimit
    (PacketWriter.accept w packet).1 [] [] (PacketWriter.accept w packet).2
  have hending := writeMoves_ending capacity moveLimit (PacketWriter.accept w packet).1 [] []
    (PacketWriter.accept w packet).2
  change (write true w (Pipe.new capacity) packet).pipe = _ at hpipe
  change (write true w (Pipe.new capacity) packet).writer = (collect w packet).writer at hwriter
  change (write true w (Pipe.new capacity) packet).ending = (collect w packet).ending at hending
  rw [endings, hending, hwriter, hpipe, drain_queued]

theorem getElem?_endings (w : W) (capacity : Nat) (packets : List Bytes) (i : Nat) :
    (endings w (Pipe.new capacity) packets)[i]? =
      packets[i]?.map fun packet => (collect (collectAll w (packets.take i)).1 packet).ending := by
  induction packets generalizing w i with
  | nil => rfl
  | cons packet packets ih =>
    rw [endings_cons]
    cases i with
    | zero => rfl
    | succ i =>
      rw [List.getElem?_cons_succ, List.getElem?_cons_succ, ih, List.take_succ_cons]
      rfl

end Headend.Media
