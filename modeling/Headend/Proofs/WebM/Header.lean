import Headend.Proofs.Ebml.Tree
import Headend.Proofs.WebM.Reader

/-!
# The header of a stream

What stands before the first cluster, as trees of elements, and the tracks that such trees describe.
The fields of a track are looked up by their identifiers, whatever order they come in. Main
statement: `header_read_back`, the header gives the tracks back.
-/

namespace Headend.WebM

open Ebml

/-! ## The trees that are written -/

def ebmlNodes : List Node :=
  [.leaf Id.ebmlVersion (uintBody 1), .leaf Id.ebmlReadVersion (uintBody 1),
    .leaf Id.ebmlMaxIdLength (uintBody 4), .leaf Id.ebmlMaxSizeLength (uintBody 8),
    .leaf Id.docType (utf8 "webm"), .leaf Id.docTypeVersion (uintBody 4),
    .leaf Id.docTypeReadVersion (uintBody 2)]

def infoNodes : List Node :=
  [.leaf Id.timestampScale (uintBody 1000000), .leaf Id.muxingApp (utf8 application),
    .leaf Id.writingApp (utf8 application)]

/-- The identifier of the element with the settings of a medium. -/
def Media.id : Media → Ebml.Id
  | .video _ _ => Id.video
  | .audio _ _ => Id.audio

def Media.fields : Media → List Node
  | .video width height =>
    [.leaf Id.pixelWidth (uintBody width), .leaf Id.pixelHeight (uintBody height)]
  | .audio frequency channels =>
    [.leaf Id.samplingFrequency (toBigEndian 8 frequency.toNat),
      .leaf Id.channels (uintBody channels)]

def Media.node (m : Media) : Node := .parent m.id m.fields

/-- A value that may be missing. -/
def optionalLeaf (id : Ebml.Id) (body : Option Bytes) : List Node := body.toList.map (.leaf id)

def Track.fields (t : Track) : List Node :=
  [.leaf Id.trackNumber (uintBody t.number), .leaf Id.trackUid (uintBody t.uid),
    .leaf Id.trackType (uintBody t.media.trackType), .leaf Id.codecId (utf8 t.codecId),
    .leaf Id.name (utf8 t.name)]
    ++ optionalLeaf Id.codecPrivate t.codecPrivate
    ++ optionalLeaf Id.defaultDuration (t.defaultDuration.map uintBody)
    ++ [t.media.node]

def Track.node (t : Track) : Node := .parent Id.trackEntry t.fields

def headerItems (tracks : List Track) : List Item :=
  [.element Id.ebml (Node.encodeAll ebmlNodes), .opening Id.segment,
    .element Id.info (Node.encodeAll infoNodes),
    .element Id.tracks (Node.encodeAll (tracks.map Track.node))]

theorem Media.encode_eq (m : Media) : m.encode = m.node.encode := by
  cases m <;> simp [encode, node, id, fields, Node.encode, Node.encodeAll, uint, float]

theorem Track.encode_eq (t : Track) : t.encode = t.node.encode := by
  have hmedia := t.media.encode_eq
  cases hp : t.codecPrivate <;> cases hd : t.defaultDuration <;>
    simp [encode, node, fields, optionalLeaf, hp, hd, hmedia, Node.encode, Node.encodeAll, uint,
      string]

theorem encodeAll_tracks (tracks : List Track) :
    Node.encodeAll (tracks.map Track.node) = tracks.flatMap Track.encode := by
  induction tracks with
  | nil => rfl
  | cons t ts ih => rw [List.map_cons, Node.encodeAll, ih, ← t.encode_eq, List.flatMap_cons]

theorem header_eq (tracks : List Track) :
    header tracks = (headerItems tracks).flatMap Item.encode := by
  simp [header, headerItems, ebmlNodes, infoNodes, encodeAll_tracks, Node.encodeAll, Node.encode,
    Item.encode, uint, string]

theorem nests_leaf {depth : Nat} {id : Ebml.Id} {body : Bytes} (hid : id.Readable)
    (hvalue : holds id = false) : (Node.leaf id body).Nests holds depth := by
  unfold Node.Nests
  exact ⟨hid, hvalue⟩

theorem nests_ebmlNodes (depth : Nat) : ∀ n ∈ ebmlNodes, n.Nests holds depth := by
  intro n hn
  simp only [ebmlNodes, List.mem_cons, List.not_mem_nil, or_false] at hn
  rcases hn with rfl | rfl | rfl | rfl | rfl | rfl | rfl <;>
    exact nests_leaf (by decide) (by decide)

theorem nests_infoNodes (depth : Nat) : ∀ n ∈ infoNodes, n.Nests holds depth := by
  intro n hn
  simp only [infoNodes, List.mem_cons, List.not_mem_nil, or_false] at hn
  rcases hn with rfl | rfl | rfl <;> exact nests_leaf (by decide) (by decide)

theorem Media.nests (m : Media) (depth : Nat) : m.node.Nests holds (depth + 1) := by
  have hid : m.id.Readable ∧ holds m.id = true := by
    cases m with
    | video width height => exact (by decide : Id.video.Readable ∧ holds Id.video = true)
    | audio frequency channels => exact (by decide : Id.audio.Readable ∧ holds Id.audio = true)
  refine ⟨hid.1, hid.2, fun n hn => ?_⟩
  cases m <;> simp only [fields, List.mem_cons, List.not_mem_nil, or_false] at hn <;>
    rcases hn with rfl | rfl <;> exact nests_leaf (by decide) (by decide)

theorem Track.nests (t : Track) (depth : Nat) : t.node.Nests holds (depth + 2) := by
  refine ⟨by decide, by decide, fun n hn => ?_⟩
  simp only [fields, optionalLeaf, List.mem_append, List.mem_cons, List.not_mem_nil, or_false,
    List.mem_map] at hn
  rcases hn with (((rfl | rfl | rfl | rfl | rfl) | ⟨_, _, rfl⟩) | ⟨_, _, rfl⟩) | rfl
  all_goals first
    | exact t.media.nests depth
    | exact nests_leaf (by decide) (by decide)

/-! ## Reading the header -/

/-- The reader before the first cluster. -/
def Reader.opened (tracks : List Node) : Reader := ⟨.segment, 1, 1, tracks, []⟩

theorem children_encodeAll {ns : List Node} (h : ∀ n ∈ ns, n.Nests holds 3)
    (hsize : (Node.encodeAll ns).length < Vint.sizeLimit) :
    children (Node.encodeAll ns) = some ns :=
  nodes_encodeAll h hsize

theorem readable_headerItems {tracks : List Track}
    (h : (tracks.flatMap Track.encode).length < Vint.sizeLimit) :
    ∀ t ∈ headerItems tracks, t.Readable := by
  intro t ht
  simp only [headerItems, encodeAll_tracks, List.mem_cons, List.not_mem_nil, or_false] at ht
  rcases ht with rfl | rfl | rfl | rfl
  · exact ⟨by decide, by decide +kernel⟩
  · show Id.Readable _
    decide
  · exact ⟨by decide, by decide +kernel⟩
  · exact ⟨by decide, h⟩

/-- The reader takes the header in, and keeps the trees of the tracks. -/
theorem reads_header_nodes {tracks : List Track}
    (h : (tracks.flatMap Track.encode).length < Vint.sizeLimit) :
    Reads (header tracks) .start (.opened (tracks.map Track.node)) := by
  have hebml : children (Node.encodeAll ebmlNodes) = some ebmlNodes :=
    children_encodeAll (nests_ebmlNodes 3) (by decide +kernel)
  have hinfo : children (Node.encodeAll infoNodes) = some infoNodes :=
    children_encodeAll (nests_infoNodes 3) (by decide +kernel)
  have htracks : children (Node.encodeAll (tracks.map Track.node)) =
      some (tracks.map Track.node) := by
    refine children_encodeAll (fun n hn => ?_) (encodeAll_tracks tracks ▸ h)
    obtain ⟨t, -, rfl⟩ := List.mem_map.1 hn
    exact t.nests 1
  refine ⟨headerItems tracks, header_eq tracks, readable_headerItems h, ?_⟩
  simp [headerItems, Reader.step, Reader.start, Reader.take, Reader.top, Reader.begin,
    Reader.opened, hebml, hinfo, htracks, Id.ebml, Id.timestamp, Id.simpleBlock, Id.segment,
    Id.info, Id.tracks]

/-! ## Tracks read back -/

/-- The body of a value with this identifier. -/
def value? (id : Ebml.Id) : Node → Option Bytes
  | .leaf id' body => if id' = id then some body else none
  | .parent _ _ => none

/-- What is in an element with this identifier. -/
def inside? (id : Ebml.Id) : Node → Option (List Node)
  | .leaf _ _ => none
  | .parent id' children => if id' = id then some children else none

def uint? (body : Bytes) : Option Nat :=
  if body.length ≤ 8 then some (bigEndian body) else none

def float? (body : Bytes) : Option UInt64 :=
  if body.length = 8 then some (UInt64.ofNat (bigEndian body)) else none

def string? (body : Bytes) : Option String := String.fromUTF8? ⟨body.toArray⟩

variable {α : Type}

/-- The value with this identifier, of which there must be one. -/
def required (ns : List Node) (id : Ebml.Id) (read : Bytes → Option α) : Option α :=
  match ns.filterMap (value? id) with
  | [body] => read body
  | _ => none

/-- The value with this identifier, if there is one. -/
def optional (ns : List Node) (id : Ebml.Id) (read : Bytes → Option α) : Option (Option α) :=
  match ns.filterMap (value? id) with
  | [] => some none
  | [body] => (read body).map some
  | _ => none

def settings (ns : List Node) (id : Ebml.Id) : Option (List Node) :=
  match ns.filterMap (inside? id) with
  | [children] => some children
  | _ => none

/-- The settings of a medium of this type. -/
def Media.read (ns : List Node) (type : Nat) : Option Media :=
  if type = 1 then do
    let video ← settings ns Id.video
    return .video (← required video Id.pixelWidth uint?) (← required video Id.pixelHeight uint?)
  else if type = 2 then do
    let audio ← settings ns Id.audio
    return .audio (← required audio Id.samplingFrequency float?)
      (← required audio Id.channels uint?)
  else none

def Track.read : Node → Option Track
  | .leaf _ _ => none
  | .parent id fields =>
    if id = Id.trackEntry then do
      let type ← required fields Id.trackType uint?
      return {
        number := ← required fields Id.trackNumber uint?
        uid := ← required fields Id.trackUid uint?
        name := ← required fields Id.name string?
        codecId := ← required fields Id.codecId string?
        codecPrivate := ← optional fields Id.codecPrivate some
        defaultDuration := ← optional fields Id.defaultDuration uint?
        media := ← Media.read fields type }
    else none

/-! ### Values -/

theorem uint?_uintBody {n : Nat} (h : n < 2 ^ 64) : uint? (uintBody n) = some n := by
  rw [uint?, if_pos (length_uintBody_le h), bigEndian_uintBody]

theorem float?_toBigEndian (bits : UInt64) : float? (toBigEndian 8 bits.toNat) = some bits := by
  rw [float?, if_pos (length_toBigEndian ..), bigEndian_toBigEndian_of_lt bits.toNat_lt,
    UInt64.ofNat_toNat]

theorem string?_utf8 (s : String) : string? (utf8 s) = some s := by
  have hbytes : (⟨(utf8 s).toArray⟩ : ByteArray) = s.toByteArray := by simp [utf8]
  rw [string?, hbytes, String.fromUTF8?, dif_pos s.isValidUTF8]
  rfl

/-! ### Lookups -/

variable {ns : List Node} {id id' : Ebml.Id} {body : Bytes} {read : Bytes → Option α}

@[simp] theorem value?_media (m : Media) : value? id m.node = none := by
  cases m <;> rfl

theorem value?_optionalLeaf (o : Option Bytes) : (optionalLeaf id' o).filterMap (value? id) =
    if id' = id then o.toList else [] := by
  cases o <;> by_cases h : id' = id <;> simp [optionalLeaf, value?, h]

@[simp] theorem inside?_leaf : inside? id (.leaf id' body) = none := rfl

theorem inside?_parent : inside? id (.parent id ns) = some ns := if_pos rfl

@[simp] theorem inside?_optionalLeaf (o : Option Bytes) :
    (optionalLeaf id' o).filterMap (inside? id) = [] := by
  cases o <;> rfl

theorem required_eq (h : ns.filterMap (value? id) = [body]) : required ns id read = read body := by
  rw [required, h]

theorem optional_eq {o : Option α} {write : α → Bytes}
    (h : ns.filterMap (value? id) = (o.map write).toList)
    (hread : ∀ a ∈ o, read (write a) = some a) : optional ns id read = some o := by
  rw [optional, h]
  cases o with
  | none => rfl
  | some a => simp [hread a rfl]

/-! ### Tracks -/

/-- What the widths of the fields can hold. -/
def Media.Sized : Media → Prop
  | .video width height => width < 2 ^ 64 ∧ height < 2 ^ 64
  | .audio _ channels => channels < 2 ^ 64

instance : DecidablePred Media.Sized
  | .video _ _ => inferInstanceAs (Decidable (_ ∧ _))
  | .audio _ _ => inferInstanceAs (Decidable (_ < _))

structure Track.Sized (t : Track) : Prop where
  number : t.number < 2 ^ 64
  uid : t.uid < 2 ^ 64
  duration : ∀ n ∈ t.defaultDuration, n < 2 ^ 64
  media : t.media.Sized

theorem Media.trackType_lt (m : Media) : m.trackType < 2 ^ 64 := by
  cases m <;> simp [trackType]

/-- The values of a track with one of its identifiers. -/
theorem Track.values_fields (t : Track) (id : Ebml.Id) : t.fields.filterMap (value? id) =
    [Node.leaf Id.trackNumber (uintBody t.number), .leaf Id.trackUid (uintBody t.uid),
      .leaf Id.trackType (uintBody t.media.trackType), .leaf Id.codecId (utf8 t.codecId),
      .leaf Id.name (utf8 t.name)].filterMap (value? id)
    ++ (if Id.codecPrivate = id then t.codecPrivate.toList else [])
    ++ (if Id.defaultDuration = id then (t.defaultDuration.map uintBody).toList else []) := by
  simp only [fields, List.filterMap_append, value?_optionalLeaf]
  simp

theorem Track.settings_fields (t : Track) : settings t.fields t.media.id = some t.media.fields := by
  have hinside : t.fields.filterMap (inside? t.media.id) = [t.media.fields] := by
    simp [fields, List.filterMap_cons, Media.node, inside?_parent]
  rw [settings, hinside]

/-- The type of a track tells which settings it has. -/
theorem Media.read_fields {t : Track} (h : t.media.Sized) :
    Media.read t.fields t.media.trackType = some t.media := by
  have hsettings := t.settings_fields
  cases hm : t.media with
  | video width height =>
    rw [hm] at h hsettings
    have hwidth : required (Media.video width height).fields Id.pixelWidth uint? = some width :=
      (required_eq rfl).trans (uint?_uintBody h.1)
    have hheight : required (Media.video width height).fields Id.pixelHeight uint? = some height :=
      (required_eq rfl).trans (uint?_uintBody h.2)
    change settings t.fields Id.video = _ at hsettings
    simp [Media.read, trackType, hsettings, hwidth, hheight]
  | audio frequency channels =>
    rw [hm] at h hsettings
    have hfrequency : required (Media.audio frequency channels).fields Id.samplingFrequency float? =
        some frequency :=
      (required_eq rfl).trans (float?_toBigEndian frequency)
    have hchannels : required (Media.audio frequency channels).fields Id.channels uint? =
        some channels :=
      (required_eq rfl).trans (uint?_uintBody h)
    change settings t.fields Id.audio = _ at hsettings
    simp [Media.read, trackType, hsettings, hfrequency, hchannels]

/-- Reading a track undoes writing it, field by field. -/
theorem Track.read_node {t : Track} (h : t.Sized) : Track.read t.node = some t := by
  have hnumber : required t.fields Id.trackNumber uint? = some t.number :=
    (required_eq (t.values_fields _)).trans (uint?_uintBody h.number)
  have huid : required t.fields Id.trackUid uint? = some t.uid :=
    (required_eq (t.values_fields _)).trans (uint?_uintBody h.uid)
  have htype : required t.fields Id.trackType uint? = some t.media.trackType :=
    (required_eq (t.values_fields _)).trans (uint?_uintBody t.media.trackType_lt)
  have hcodec : required t.fields Id.codecId string? = some t.codecId :=
    (required_eq (t.values_fields _)).trans (string?_utf8 t.codecId)
  have hname : required t.fields Id.name string? = some t.name :=
    (required_eq (t.values_fields _)).trans (string?_utf8 t.name)
  have hprivate : optional t.fields Id.codecPrivate some = some t.codecPrivate := by
    have hbody : t.fields.filterMap (value? Id.codecPrivate) =
        (t.codecPrivate.map id).toList := by
      rw [t.values_fields, Option.map_id]
      exact List.append_nil _
    exact optional_eq hbody fun _ _ => rfl
  have hduration : optional t.fields Id.defaultDuration uint? = some t.defaultDuration :=
    optional_eq (t.values_fields _) fun n hn => uint?_uintBody (h.duration n hn)
  simp [Track.read, node, hnumber, huid, htype, hcodec, hname, hprivate, hduration,
    Media.read_fields h.media]

/-! ## The header read back -/

/-- What stands before the first cluster of a stream is read to its very end and gives the tracks
back, in order and field by field. The reader goes into every element that holds others and refuses
it unless they fill it. -/
theorem header_read_back {tracks : List Track} (hsized : ∀ t ∈ tracks, t.Sized)
    (hfit : (tracks.flatMap Track.encode).length < Vint.sizeLimit) :
    (∀ b bs, ∃ rest, ((BlockWriter.new tracks).writeAll (b :: bs)).flatten =
      header tracks ++ openEnded Id.cluster ++ rest) ∧
    (∃ ts, items (header tracks) = some ts ∧ .opening Id.cluster ∉ ts) ∧
    ∃ r, Reader.read (header tracks) = some r ∧ r.headers = 1 ∧ r.segments = 1 ∧ r.blocks = [] ∧
      r.tracks.mapM Track.read = some tracks := by
  refine ⟨fun b bs => ?_, ⟨headerItems tracks, ?_, ?_⟩, ?_⟩
  · simp [BlockWriter.writeAll, BlockWriter.write, BlockWriter.new, BlockWriter.clusterFor,
      clusterHead]
  · rw [header_eq, items_flatMap_encode (readable_headerItems hfit)]
  · simp [headerItems, Id.cluster, Id.segment]
  · refine ⟨_, (reads_header_nodes hfit).read_eq, rfl, rfl, rfl, ?_⟩
    exact mapM_map_eq_some fun t ht => Track.read_node (hsized t ht)

/-- All optional fields and none, the largest numbers, an empty name, and codec bytes whose size no
longer fits into one byte. -/
def assortedTracks : List Track :=
  [⟨0, 2 ^ 64 - 1, "Größe", "A_OPUS", some (List.replicate 130 7), some 0, .audio 0 255⟩,
    ⟨2 ^ 64 - 1, 0, "", "", none, none, .video 0 (2 ^ 32 - 1)⟩,
    ⟨127, 128, "Video", "V_VP8", some [], some (2 ^ 64 - 1), .video 1280 720⟩]

theorem header_read_back_assorted :
    (∀ t ∈ assortedTracks, t.Sized) ∧
    (assortedTracks.flatMap Track.encode).length < Vint.sizeLimit ∧
    ∃ r, Reader.read (header assortedTracks) = some r ∧
      r.tracks.mapM Track.read = some assortedTracks := by
  have hsized : ∀ t ∈ assortedTracks, t.Sized := by
    simp only [assortedTracks, List.forall_mem_cons]
    exact ⟨⟨by decide, by decide, by decide, by decide⟩,
      ⟨by decide, by decide, by decide, by decide⟩,
      ⟨by decide, by decide, by decide, by decide⟩, by simp⟩
  have hfit : (assortedTracks.flatMap Track.encode).length < Vint.sizeLimit := by decide +kernel
  obtain ⟨-, -, r, hread, -, -, -, htracks⟩ := header_read_back hsized hfit
  exact ⟨hsized, hfit, r, hread, htracks⟩

end Headend.WebM
