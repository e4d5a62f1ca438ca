import Headend.Media.AnnexB
import Headend.Proofs.Codec.H264
import Headend.Proofs.Media.Feed

/-!
# H.264 streams

What the H.264 writer puts into a drained pipe for units packetized in any mix of forms. If the
first payload opens with a sequence parameter set, every write succeeds, and the pipe carries the
units in order.
-/

namespace Headend.Media.AnnexB

open Codec Rtp

variable {w : AnnexB} {raw : Bytes} {p : Packet} {gathered stream : Bytes}

/-- A payload that can be read counts for its whole packet, whether a unit is complete or not. -/
theorem collect_of_ok (hparse : Packet.parse raw = .ok p)
    (hstarted : w.started = true ∨ H264.isKeyframe p.payload = true)
    (hread : H264.depacketize w.fragments p.payload = (gathered, .ok stream)) :
    collect w raw = ⟨⟨true, gathered⟩, passed [stream], .finished (.ok raw.length)⟩ := by
  have hpayload : p.payload.isEmpty = false := by
    cases hp : p.payload with
    | nil => simp [hp, H264.depacketize] at hread
    | cons b bs => rfl
  have hgate : (!(w.started || H264.isKeyframe p.payload)) = false := by
    rcases hstarted with h | h <;> simp [h]
  cases stream with
  | nil =>
    have haccept : accept w raw = (⟨true, gathered⟩, .finish (.ok raw.length)) := by
      simp only [accept, hparse, hpayload, hgate, hread, Bool.false_eq_true, if_false]
    simp [collect, PacketWriter.accept, haccept, moveLimit, collectMoves, passed]
  | cons b bs =>
    have haccept : accept w raw = (⟨true, gathered⟩, .last (b :: bs) raw.length) := by
      simp only [accept, hparse, hpayload, hgate, hread, Bool.false_eq_true, if_false]
    simp [collect, PacketWriter.accept, haccept, moveLimit, collectMoves, passed]

/-- What a writer makes of payloads that can be read one after another. -/
theorem collectAll_yields {ps : List Packet} {raws : List Bytes} {gathered' : Bytes}
    (h : H264.Yields w.fragments (ps.map (·.payload)) gathered' stream)
    (hparse : raws.map Packet.parse = ps.map .ok)
    (hstarted : w.started = true ∨
      ∀ payload ∈ (ps.map (·.payload)).head?, H264.isKeyframe payload = true)
    (capacity : Nat) :
    (collectAll w raws).2.flatten = stream ∧
      endings w (Pipe.new capacity) raws = raws.map fun raw => .finished (.ok raw.length) := by
  induction ps generalizing w raws stream with
  | nil =>
    obtain rfl : raws = [] := by simpa using hparse
    cases h with
    | nil => exact ⟨rfl, rfl⟩
  | cons p ps ih =>
    obtain ⟨raw, raws, rfl, hp, hps⟩ := List.map_eq_cons_iff.1 hparse
    cases h with
    | @cons _ g' _ _ out stream _ hread hrest =>
      have hcollect := collect_of_ok hp (hstarted.imp_right fun h => h _ rfl) hread
      obtain ⟨hstream, hendings⟩ := ih (w := ⟨true, g'⟩) hrest hps (.inl rfl)
      refine ⟨?_, ?_⟩
      · simp [collectAll, hcollect, hstream, passed, List.flatten_filter_not_isEmpty]
      · rw [endings_cons, hcollect, hendings]
        rfl

/-- However units are packetized, if the first payload opens with a sequence parameter set, every
write succeeds and the pipe carries each unit behind a start code, in order. -/
theorem feed_packetized {units raws : List Bytes} {ps : List Packet}
    (hpack : H264.Packetized units (ps.map (·.payload)))
    (hopen : ∀ payload ∈ (ps.map (·.payload)).head?, H264.Opening payload)
    (hparse : raws.map Packet.parse = ps.map .ok) (capacity : Nat) :
    endings new (Pipe.new capacity) raws = raws.map (fun raw => .finished (.ok raw.length)) ∧
      (feed new (Pipe.new capacity) raws).chunks.flatten =
        units.flatMap fun u => [0, 0, 0, 1] ++ u := by
  obtain ⟨hstream, hendings⟩ := collectAll_yields (w := new) hpack.yields hparse
    (.inr fun payload hmem => H264.isKeyframe_of_opening (hopen payload hmem)) capacity
  refine ⟨hendings, ?_⟩
  rw [feed_new, passed, List.flatten_filter_not_isEmpty, hstream]
  rfl

/-- Parameter sets in one payload, a slice in three fragments and one that travels alone. -/
def mixedUnits : List Bytes :=
  [[0x67, 0x42, 0xC0, 0x1F], [0x68, 0xCE, 0x38], [0x65, 0x88, 0x84, 0x00, 0x21], [0x41, 0x9A, 0x02]]

def mixedPayloads : List Bytes :=
  H264.aggregate 0x78 [[0x67, 0x42, 0xC0, 0x1F], [0x68, 0xCE, 0x38]]
    :: (H264.fragments 0x65 true [[0x88], [0x84, 0x00], [0x21]] ++ [[0x41, 0x9A, 0x02]])

def mixedPackets : List Packet :=
  mixedPayloads.mapIdx fun i payload => .plain 102 (65534 + UInt16.ofNat i) 3000 1 false payload

theorem feed_packetized_mixed :
    H264.Packetized mixedUnits (mixedPackets.map (·.payload)) ∧
    (∀ payload ∈ (mixedPackets.map (·.payload)).head?, H264.Opening payload) ∧
    (mixedPackets.map Packet.encode).map Packet.parse = mixedPackets.map .ok ∧
    endings new (Pipe.new 2) (mixedPackets.map Packet.encode) =
      (mixedPackets.map Packet.encode).map (fun raw => .finished (.ok raw.length)) ∧
    (feed new (Pipe.new 2) (mixedPackets.map Packet.encode)).chunks.flatten =
      mixedUnits.flatMap fun u => [0, 0, 0, 1] ++ u := by
  have hslice : H264.NalUnit (0x65 :: [[0x88], [0x84, 0x00], [0x21]].flatten) :=
    .cons (by decide) (by decide) (by decide)
  have hgroup : ∀ u ∈ [[0x67, 0x42, 0xC0, 0x1F], [0x68, 0xCE, 0x38]],
      H264.NalUnit u ∧ u.length < 65536 := by
    intro u hu
    simp only [List.mem_cons, List.not_mem_nil, or_false] at hu
    rcases hu with rfl | rfl
    · exact ⟨.cons (by decide) (by decide) (by decide), by decide⟩
    · exact ⟨.cons (by decide) (by decide) (by decide), by decide⟩
  have hpack : H264.Packetized mixedUnits (mixedPackets.map (·.payload)) := by
    refine H264.Packetized.aggregated (by decide) (by decide) hgroup ?_
    exact .fragmented hslice (by decide) (by decide)
      (.single (.cons (by decide) (by decide) (by decide)) .nil)
  have hopen : ∀ payload ∈ (mixedPackets.map (·.payload)).head?, H264.Opening payload := by
    rintro _ ⟨⟩
    exact .aggregated (by decide) (by decide)
  have hparse : (mixedPackets.map Packet.encode).map Packet.parse = mixedPackets.map .ok := by
    decide
  obtain ⟨hendings, hstream⟩ := feed_packetized hpack hopen hparse 2
  exact ⟨hpack, hopen, hparse, hendings, hstream⟩

end Headend.Media.AnnexB
