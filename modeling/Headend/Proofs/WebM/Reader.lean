import Headend.Proofs.Ebml.Reader
import Headend.WebM.BlockWriter

/-!
# A WebM reader

The reader takes a stream item by item and knows the order in which a player expects them: headers
outside of segments, info, tracks and clusters in a segment, a timestamp and then blocks in a
cluster. An element of unknown size ends where one begins that cannot be part of it. What does not
fit makes the whole stream unreadable.

`Reads` says that some bytes take the reader from one state to another; it composes, so that the
header, a cluster and a block are proved one at a time.
-/

namespace Headend.WebM

open Ebml

/-- The sized elements that hold elements. -/
def holds (id : Id) : Bool :=
  id ∈ [Id.ebml, Id.info, Id.tracks, Id.trackEntry, Id.video, Id.audio]

/-- The deepest nesting is tracks, entry, settings, value. -/
def children (body : Bytes) : Option (List Node) := nodes holds 4 body

/-! ## Blocks read back -/

/-- A block as a player sees it. -/
structure Entry where
  track : Nat
  keyframe : Bool
  /-- Timestamp of the cluster plus the signed one of the block. -/
  timestamp : Int
  data : Bytes
  deriving Repr, DecidableEq

/-- The number that two bytes are in two's complement. -/
def signed16 (hi lo : UInt8) : Int := Int.bmod (bigEndian [hi, lo]) (2 ^ 16)

def Entry.read (start : Nat) (body : Bytes) : Option Entry :=
  match Vint.decode body with
  | some (.known track, hi :: lo :: flags :: data) =>
    some ⟨track, flags &&& 0x80 != 0, start + signed16 hi lo, data⟩
  | _ => none

def Block.entry (b : Block) : Entry := ⟨b.track, b.keyframe, b.timestamp, b.data⟩

/-! ## Streams -/

/-- Where in the stream the reader is. A cluster has its timestamp once that was read. -/
inductive Place where
  | outside
  | segment
  | cluster (start : Option Nat)
  deriving Repr, DecidableEq

structure Reader where
  place : Place
  headers : Nat
  segments : Nat
  tracks : List Node
  blocks : List Entry

namespace Reader

def start : Reader := ⟨.outside, 0, 0, [], []⟩

/-- The start of an element of unknown size. Each segment has a header of its own before it. -/
def begin (r : Reader) (id : Id) : Option Reader :=
  if id = Id.segment ∧ r.place = .outside ∧ r.headers = r.segments + 1 then
    some { r with place := .segment, segments := r.segments + 1 }
  else if id = Id.cluster ∧ r.place ≠ .outside then some { r with place := .cluster none }
  else none

/-- An element that stands in a segment or outside of it. -/
def top (r : Reader) (id : Id) (body : Bytes) : Option Reader :=
  match children body with
  | none => none
  | some nodes =>
    if id = Id.ebml then some { r with place := .outside, headers := r.headers + 1 }
    else if r.place = .outside then none
    else if id = Id.info then some { r with place := .segment }
    else if id = Id.tracks then some { r with place := .segment, tracks := r.tracks ++ nodes }
    else none

/-- An element with a size. -/
def take (r : Reader) (id : Id) (body : Bytes) : Option Reader :=
  if id = Id.timestamp then
    if r.place = .cluster none ∧ body.length ≤ 8 then
      some { r with place := .cluster (some (bigEndian body)) }
    else none
  else if id = Id.simpleBlock then
    match r.place with
    | .cluster (some start) =>
      (Entry.read start body).map fun e => { r with blocks := r.blocks ++ [e] }
    | _ => none
  else r.top id body

def step (r : Reader) : Item → Option Reader
  | .opening id => r.begin id
  | .element id body => r.take id body

/-- Read a whole stream. -/
def read (bs : Bytes) : Option Reader :=
  match items bs with
  | none => none
  | some ts => ts.foldlM step start

end Reader

/-! ## Runs of the reader -/

/-- The bytes are whole items and take the reader from `r` to `r'`. -/
def Reads (bs : Bytes) (r r' : Reader) : Prop :=
  ∃ ts : List Item, bs = ts.flatMap Item.encode ∧ (∀ t ∈ ts, t.Readable) ∧
    ts.foldlM Reader.step r = some r'

namespace Reads

theorem nil (r : Reader) : Reads [] r r := ⟨[], rfl, by simp, rfl⟩

theorem append {bs bs' : Bytes} {r r' r'' : Reader} (h : Reads bs r r') (h' : Reads bs' r' r'') :
    Reads (bs ++ bs') r r'' := by
  obtain ⟨ts, rfl, hread, hrun⟩ := h
  obtain ⟨ts', rfl, hread', hrun'⟩ := h'
  refine ⟨ts ++ ts', by rw [List.flatMap_append], ?_, ?_⟩
  · intro t ht
    rcases List.mem_append.1 ht with ht | ht
    · exact hread t ht
    · exact hread' t ht
  · rw [List.foldlM_append, hrun]
    exact hrun'

theorem item {t : Item} {r r' : Reader} (ht : t.Readable) (h : r.step t = some r') :
    Reads t.encode r r' := by
  refine ⟨[t], by simp, by simpa using ht, ?_⟩
  simp [h]

theorem read_eq {bs : Bytes} {r : Reader} (h : Reads bs .start r) : Reader.read bs = some r := by
  obtain ⟨ts, rfl, hread, hrun⟩ := h
  rw [Reader.read, items_flatMap_encode hread]
  exact hrun

end Reads

/-! ## Blocks as they are written -/

/-- What the format can say of a block: a track number and a timestamp within its widths, and a
body whose length eight bytes can tell from "unknown". -/
structure Block.Sized (b : Block) : Prop where
  track : b.track < Vint.sizeLimit
  timestamp : b.timestamp < 2 ^ 64
  /-- The body is the track number, three bytes and the data. -/
  body : Vint.length b.track + 3 + b.data.length < Vint.sizeLimit

theorem signed16_toBigEndian {n : Nat} (h : n ≤ maxRelative) :
    ∃ hi lo, toBigEndian 2 n = [hi, lo] ∧ signed16 hi lo = n := by
  have hn : n ≤ 32767 := h
  have hfit : n < 256 ^ 2 := by omega
  have hread : bigEndian (toBigEndian 2 n) = n := bigEndian_toBigEndian_of_lt hfit
  refine ⟨UInt8.ofNat (n / 256), UInt8.ofNat n, rfl, ?_⟩
  unfold signed16
  rw [show [UInt8.ofNat (n / 256), UInt8.ofNat n] = toBigEndian 2 n from rfl, hread]
  exact Int.bmod_eq_of_le (by omega) (by omega)

/-- The body of a block, read in the cluster that it was written for. -/
theorem Entry.read_encode {b : Block} (hb : b.Sized) {start : Nat} (hle : start ≤ b.timestamp)
    (hspan : b.timestamp - start ≤ maxRelative) :
    Entry.read start (Vint.encode b.track ++ toBigEndian 2 (b.timestamp - start)
      ++ [if b.keyframe then 0x80 else 0] ++ b.data) = some b.entry := by
  obtain ⟨hi, lo, hbytes, hvalue⟩ := signed16_toBigEndian hspan
  have hdec := Vint.decode_encode_append hb.track (hi :: lo :: (if b.keyframe then 0x80 else 0)
    :: b.data)
  have hflag : ((if b.keyframe then 0x80 else 0 : UInt8) &&& 0x80 != 0) = b.keyframe := by
    cases b.keyframe <;> rfl
  have htime : (start : Int) + signed16 hi lo = b.timestamp := by omega
  rw [hbytes]
  simp only [List.append_assoc, List.cons_append, List.nil_append]
  rw [Entry.read, hdec]
  simp only [hflag, htime, Block.entry]

end Headend.WebM
