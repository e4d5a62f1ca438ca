import Headend.Proofs.WebM.Header

/-!
# The WebM round trip

Whatever blocks are written, the reader gets them back: each with its track, its keyframe flag, its
absolute timestamp and its data, in order.
-/

namespace Headend.WebM

open Ebml

/-! ## The header -/

/-- What the tracks are read as has no part in reading the blocks. -/
theorem reads_header {tracks : List Track}
    (h : (tracks.flatMap Track.encode).length < Vint.sizeLimit) :
    ∃ ns, Reads (header tracks) .start (.opened ns) :=
  ⟨_, reads_header_nodes h⟩

/-! ## Reading blocks -/

/-- Where the reader is after what a writer has written so far. -/
def BlockWriter.place (w : BlockWriter) : Place :=
  match w.cluster with
  | some start => .cluster (some start)
  | none => .segment

/-- A block goes into the open cluster, or into one that starts at its own timestamp. -/
theorem BlockWriter.clusterFor_cases (w : BlockWriter) (b : Block) :
    (∃ start, w.cluster = some start ∧ start ≤ b.timestamp ∧ b.timestamp - start ≤ maxRelative ∧
      w.clusterFor b = (start, [])) ∨
    w.clusterFor b = (b.timestamp, clusterHead b.timestamp) := by
  unfold clusterFor
  cases w.cluster with
  | none => exact .inr rfl
  | some start =>
    simp only
    split
    · rename_i hfits
      simp only [fits, Bool.and_eq_true, decide_eq_true_eq] at hfits
      exact .inl ⟨start, rfl, hfits.1.1, hfits.1.2, rfl⟩
    · exact .inr rfl

theorem reads_clusterHead {r : Reader} (hr : r.place ≠ .outside) {timestamp : Nat}
    (h : timestamp < 2 ^ 64) :
    Reads (clusterHead timestamp) r { r with place := .cluster (some timestamp) } := by
  have hlen := length_uintBody_le h
  have hopen : Reads (openEnded Id.cluster) r { r with place := .cluster none } :=
    Reads.item (t := .opening Id.cluster) (show Id.Readable _ by decide)
      (by simp [Reader.step, Reader.begin, hr, Id.segment, Id.cluster])
  apply hopen.append
  apply Reads.item (t := .element Id.timestamp (uintBody timestamp))
  · refine ⟨by decide, ?_⟩
    simp only [Vint.sizeLimit]
    omega
  · simp [Reader.step, Reader.take, hlen, bigEndian_uintBody]

theorem reads_encode {r : Reader} {b : Block} (hb : b.Sized) {start : Nat}
    (hr : r.place = .cluster (some start)) (hle : start ≤ b.timestamp)
    (hspan : b.timestamp - start ≤ maxRelative) :
    Reads (b.encode start) r { r with blocks := r.blocks ++ [b.entry] } := by
  apply Reads.item (t := .element Id.simpleBlock _)
  · refine ⟨by decide, ?_⟩
    have hbody := hb.body
    simp only [List.length_append, Vint.length_encode, length_toBigEndian, List.length_singleton]
    omega
  · have hne : Id.simpleBlock ≠ Id.timestamp := by decide
    simp only [Reader.step, Reader.take, if_neg hne, if_true, hr,
      Entry.read_encode hb hle hspan]
    rfl

/-- One block, with the start of a cluster before it if there is one. -/
theorem reads_block {w : BlockWriter} {b : Block} (hb : b.Sized) {r : Reader}
    (hr : r.place = w.place) :
    Reads ((w.clusterFor b).2 ++ b.encode (w.clusterFor b).1) r
      { r with place := (w.write b).1.place, blocks := r.blocks ++ [b.entry] } := by
  have hplace : (w.write b).1.place = .cluster (some (w.clusterFor b).1) := rfl
  rw [hplace]
  rcases w.clusterFor_cases b with ⟨start, hopen, hle, hspan, hfor⟩ | hfor
  · -- The open cluster takes the block, and the reader stays in it.
    rw [hfor]
    have hstart : r.place = .cluster (some start) := by rw [hr, BlockWriter.place, hopen]
    have hread := reads_encode hb hstart hle hspan
    rw [← hstart]
    exact hread
  · -- A new cluster begins at the block's own timestamp, so the relative one is zero.
    rw [hfor]
    have hinside : r.place ≠ .outside := by
      rw [hr, BlockWriter.place]
      cases w.cluster <;> simp
    exact (reads_clusterHead hinside hb.timestamp).append
      (reads_encode hb rfl (Nat.le_refl _) (by simp))

/-- All blocks of a stream whose header is written. -/
theorem reads_writeAll {bs : List Block} (hbs : ∀ b ∈ bs, b.Sized) {w : BlockWriter}
    (hw : w.started = true) {r : Reader} (hr : r.place = w.place) :
    ∃ place, Reads (w.writeAll bs).flatten r
      { r with place := place, blocks := r.blocks ++ bs.map Block.entry } := by
  induction bs generalizing w r with
  | nil => exact ⟨r.place, by simpa [BlockWriter.writeAll] using Reads.nil r⟩
  | cons b bs ih =>
    have hblock := reads_block (hbs b (List.mem_cons_self ..)) hr
    obtain ⟨place, hrest⟩ := ih (fun c hc => hbs c (List.mem_cons_of_mem _ hc))
      (w := (w.write b).1) rfl
      (r := { r with place := (w.write b).1.place, blocks := r.blocks ++ [b.entry] }) rfl
    refine ⟨place, ?_⟩
    have hall := hblock.append hrest
    simpa [BlockWriter.writeAll, BlockWriter.write, hw] using hall

/-- What a new writer puts out is one header and one segment with the blocks in it. -/
theorem reads_writeAll_new {tracks : List Track} {bs : List Block}
    (htracks : (tracks.flatMap Track.encode).length < Vint.sizeLimit)
    (hbs : ∀ b ∈ bs, b.Sized) :
    ∃ r, Reads ((BlockWriter.new tracks).writeAll bs).flatten .start r ∧
      r.blocks = bs.map Block.entry ∧ (bs ≠ [] → r.headers = 1 ∧ r.segments = 1) := by
  cases bs with
  | nil => exact ⟨.start, Reads.nil _, rfl, by simp⟩
  | cons b bs =>
    -- Only the first block comes with the header; after it the writer has started.
    obtain ⟨ns, hheader⟩ := reads_header htracks
    have hblock := reads_block (w := .new tracks) (hbs b (List.mem_cons_self ..))
      (r := .opened ns) rfl
    obtain ⟨place, hrest⟩ := reads_writeAll (fun c hc => hbs c (List.mem_cons_of_mem _ hc))
      (w := ((BlockWriter.new tracks).write b).1) rfl
      (r := { Reader.opened ns with
        place := ((BlockWriter.new tracks).write b).1.place
        blocks := (Reader.opened ns).blocks ++ [b.entry] }) rfl
    have hall := (hheader.append hblock).append hrest
    refine ⟨{ Reader.opened ns with place := place, blocks := (b :: bs).map Block.entry }, ?_, rfl,
      fun _ => ⟨rfl, rfl⟩⟩
    simpa [BlockWriter.writeAll, BlockWriter.write, BlockWriter.new, Reader.opened] using hall

/-! ## The round trip -/

/-- Reading undoes writing. Whatever blocks are written one by one into a new stream, the bytes are
one header and one segment, read to the very end, and the blocks in them are those written, in
order. Before the first block there are no bytes at all. -/
theorem BlockWriter.read_writeAll_new {tracks : List Track} {bs : List Block}
    (htracks : (tracks.flatMap Track.encode).length < Vint.sizeLimit)
    (hbs : ∀ b ∈ bs, b.Sized) :
    ∃ r, Reader.read ((BlockWriter.new tracks).writeAll bs).flatten = some r ∧
      r.blocks = bs.map Block.entry ∧
      (bs ≠ [] → r.headers = 1 ∧ r.segments = 1) ∧
      (bs = [] → ((BlockWriter.new tracks).writeAll bs).flatten = []) := by
  obtain ⟨r, hreads, hblocks, hone⟩ := reads_writeAll_new htracks hbs
  refine ⟨r, hreads.read_eq, hblocks, hone, ?_⟩
  rintro rfl
  rfl

/-- A keyframe, a block before it in time and one too late for its cluster. -/
theorem BlockWriter.read_writeAll_new_opus :
    (([Track.opus].flatMap Track.encode).length < Vint.sizeLimit ∧
      ∀ b ∈ [(⟨1, true, 40, [1, 2]⟩ : Block), ⟨1, false, 20, []⟩, ⟨300, false, 40000, [3]⟩],
        b.Sized) ∧
    ∃ r, Reader.read ((BlockWriter.new [Track.opus]).writeAll
        [⟨1, true, 40, [1, 2]⟩, ⟨1, false, 20, []⟩, ⟨300, false, 40000, [3]⟩]).flatten = some r ∧
      r.blocks = [⟨1, true, 40, [1, 2]⟩, ⟨1, false, 20, []⟩, ⟨300, false, 40000, [3]⟩] ∧
      r.headers = 1 ∧ r.segments = 1 := by
  have htracks : ([Track.opus].flatMap Track.encode).length < Vint.sizeLimit := by decide +kernel
  have hbs : ∀ b ∈ [(⟨1, true, 40, [1, 2]⟩ : Block), ⟨1, false, 20, []⟩, ⟨300, false, 40000, [3]⟩],
      b.Sized := by
    intro b hb
    simp only [List.mem_cons, List.not_mem_nil, or_false] at hb
    rcases hb with rfl | rfl | rfl <;> exact ⟨by decide, by decide, by decide⟩
  obtain ⟨r, hread, hblocks, hone, -⟩ := read_writeAll_new htracks hbs
  exact ⟨⟨htracks, hbs⟩, r, hread, hblocks, hone (by simp)⟩

end Headend.WebM
