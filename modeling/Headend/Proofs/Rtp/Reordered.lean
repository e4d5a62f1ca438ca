import Headend.Proofs.Rtp.Kept
import Headend.Proofs.Rtp.Window
import Mathlib.Data.Nat.Find

/-!
# Frames reordered within the window

The packets of a stream of VP8 frames come in some order, and from the first packet that is not cut
yet to the newest one it is never farther than `depth`. Packets of frames that are cut already may
still be stored, and they are what a purge frees; so every frame becomes a sample, as soon as all
packets up to the one after its last are there.
-/

namespace Headend.Rtp.Assembler

variable {pkt : Nat → Packet} {base i m s : Nat} {arrived : List Nat} {a : Assembler}

/-- The packets of a stream, by position. -/
abbrev placed (pkt : Nat → Packet) (base q : Nat) : Packet := pkt (q - base)

/-- An assembler that has cut all packets before `s`, at which a frame begins; `m` is the largest
that arrived. -/
structure Awaiting (pkt : Nat → Packet) (base : Nat) (arrived : List Nat) (s m : Nat)
    (a : Assembler) : Prop where
  standing : ∃ f, Standing (.vp8 .none) a f (base + s) (base + m + 1)
    (arrivedView pkt base arrived) ∧
    base + m + 1 - f ≤ depth
  ready : a.ready = []
  upto : ∀ j ≤ s, j ∈ arrived
  top : ∀ j ∈ arrived, j ≤ m
  last : m ∈ arrived

/-- A packet that keeps the first of those that wait from getting complete. -/
def Held (arrived : List Nat) (s : Nat) : List (List Packet) → Prop
  | [] => False
  | ps :: _ => ∃ j ≤ s + ps.length, j ∉ arrived

theorem Awaiting.start_le (h : Awaiting pkt base arrived s m a) : s ≤ m :=
  h.top s (h.upto s (Nat.le_refl _))

theorem arrivedView_of_mem (h : i ∈ arrived) :
    arrivedView pkt base arrived (base + i) = some (placed pkt base (base + i)) := by
  rw [arrivedView_add, if_pos h, placed, Nat.add_sub_cancel_left]

/-- The first of some packets that has not arrived. -/
theorem exists_first_missing {n : Nat} (hs : s ∈ arrived) (h : ∃ j, s ≤ j ∧ j ≤ n ∧ j ∉ arrived) :
    ∃ j, s < j ∧ j ≤ n ∧ j ∉ arrived ∧ ∀ i, s ≤ i → i < j → i ∈ arrived := by
  obtain ⟨hsj, hjn, hj⟩ := Nat.find_spec h
  refine ⟨Nat.find h, ?_, hjn, hj, fun i hi hij => ?_⟩
  · exact Nat.lt_of_le_of_ne hsj fun heq => hj (heq ▸ hs)
  · have hmin := Nat.find_min h hij
    exact Decidable.byContradiction fun hmiss => hmin ⟨hi, by omega, hmiss⟩

/-! ## Draining -/

/-- A frame that is held is not cut. -/
theorem Awaiting.wait (h : Awaiting pkt base arrived s m a) {ps : List Packet}
    (hframe : Frame (placed pkt base) (base + s) (base + s + ps.length))
    (hheld : ∃ j ≤ s + ps.length, j ∉ arrived) :
    ∃ b, Drains a [] b ∧ Awaiting pkt base arrived s m b := by
  obtain ⟨f, hstanding, hwidth⟩ := h.standing
  obtain ⟨hext, -, hready⟩ := hstanding.extend
  obtain ⟨j, hsj, hjn, hj, hbefore⟩ : ∃ j, s < j ∧ j ≤ s + ps.length ∧ j ∉ arrived ∧
      ∀ i, s ≤ i → i < j → i ∈ arrived := by
    obtain ⟨j, hjn, hj⟩ := hheld
    refine exists_first_missing (h.upto s (Nat.le_refl _)) ⟨j, ?_, hjn, hj⟩
    exact Nat.le_of_not_le fun hle => hj (h.upto j hle)
  -- All up to the packet before that one have arrived, so what is stored reaches to it.
  have hjm : j ≤ m + 1 := by
    have := h.top (j - 1) (hbefore (j - 1) (by omega) (by omega))
    omega
  have hbuild : a.build false = (a.extend, false) := by
    refine hstanding.build_wait (m := base + j) hframe (Nat.le_refl _) (by omega) (by omega)
      (by omega) (fun q hq hqj => ?_) fun _ => ?_
    · obtain ⟨i, rfl⟩ : ∃ i, q = base + i := ⟨q - base, by omega⟩
      exact arrivedView_of_mem (hbefore i (by omega) (by omega))
    · rw [arrivedView_add, if_neg hj]
  have hnone : a.extend.ready = [] := by rw [hready, h.ready]
  exact ⟨a.extend, .done (pop_eq_none hbuild hnone), ⟨f, hext, hwidth⟩, hnone, h.upto, h.top,
    h.last⟩

/-- A frame that is not held is cut. -/
theorem Awaiting.cut (h : Awaiting pkt base arrived s m a) {ps : List Packet}
    (hps : ps = (List.range' (base + s) ps.length).map (placed pkt base))
    (hframe : Frame (placed pkt base) (base + s) (base + s + ps.length))
    (hall : ∀ j ≤ s + ps.length, j ∈ arrived) :
    ∃ b sample, a.pop = (b, some sample) ∧ sample.data = frameData ps ∧
      Awaiting pkt base arrived (s + ps.length) m b := by
  obtain ⟨f, hstanding, hwidth⟩ := h.standing
  have hend : s + ps.length ≤ m := h.top _ (hall _ (Nat.le_refl _))
  have hnext : arrivedView pkt base arrived (base + s + ps.length) ≠ none := by
    rw [Nat.add_assoc, arrivedView_of_mem (hall _ (Nat.le_refl _))]
    exact Option.some_ne_none _
  obtain ⟨b, f', sample, hbuild, hcodec, hstored, hact, hff', hf', -, -, hready, hdata⟩ :=
    hstanding.build_head hframe (by omega) false
      (fun q hq hqe => by
        obtain ⟨j, rfl⟩ : ∃ j, q = base + j := ⟨q - base, by omega⟩
        exact arrivedView_of_mem (hall j (by omega)))
      (.inr ⟨by omega, hnext⟩)
  rw [h.ready, List.nil_append] at hready
  rw [Nat.add_sub_cancel_left, ← hps] at hdata
  -- The sample is taken out at once.
  have hcut : Standing (.vp8 .none) b f' (base + (s + ps.length)) (base + m + 1)
      (arrivedView pkt base arrived) := by
    rw [← Nat.add_assoc]
    exact ⟨hcodec, hstored, hf', ⟨base + m + 1, hact, by omega, Nat.le_refl _⟩⟩
  exact ⟨{ b with ready := [] }, sample, pop_eq_some hbuild hready, hdata,
    ⟨f', hcut.setReady [], by omega⟩, rfl, hall, h.top, h.last⟩

/-- Draining goes on to the first frame that is held. By induction on the frames not cut yet; there
is always one of them left, for the packet after the last one never arrives. -/
theorem Awaiting.drain {rest : List (List Packet)} (h : Awaiting pkt base arrived s m a)
    (hframed : Framed (placed pkt base) (base + s) rest) (hend : m < s + rest.flatten.length) :
    ∃ ss b done left, Drains a ss b ∧ rest = done ++ left ∧ ss.map (·.data) = done.map frameData ∧
      Awaiting pkt base arrived (s + done.flatten.length) m b ∧
      Held arrived (s + done.flatten.length) left ∧ s + ss.length ≤ m := by
  induction rest generalizing a s with
  | nil =>
    have hle := h.start_le
    simp only [List.flatten_nil, List.length_nil] at hend
    omega
  | cons ps rest ih =>
    obtain ⟨hps, hframe, hrest⟩ := hframed
    by_cases hheld : ∃ j ≤ s + ps.length, j ∉ arrived
    · obtain ⟨b, hdrains, hb⟩ := h.wait hframe hheld
      exact ⟨[], b, [], ps :: rest, hdrains, rfl, rfl, hb, hheld, h.start_le⟩
    · have hall : ∀ j ≤ s + ps.length, j ∈ arrived := fun j hj =>
        Decidable.byContradiction fun hmiss => hheld ⟨j, hj, hmiss⟩
      obtain ⟨b, sample, hpop, hdata, hb⟩ := h.cut hps hframe hall
      rw [List.flatten_cons, List.length_append, ← Nat.add_assoc] at hend
      rw [Nat.add_assoc] at hrest
      obtain ⟨ss, c, done, left, hdrains, rfl, hss, hc, hleft, hlen⟩ := ih hb hrest hend
      have hpos : 0 < ps.length := by
        have := hframe.lt
        omega
      have hskip : s + (ps :: done).flatten.length = s + ps.length + done.flatten.length := by
        rw [List.flatten_cons, List.length_append, Nat.add_assoc]
      refine ⟨sample :: ss, c, ps :: done, left, .next hpop hdrains, rfl, ?_, hskip ▸ hc,
        hskip ▸ hleft, ?_⟩
      · rw [List.map_cons, List.map_cons, hdata, hss]
      · rw [List.length_cons]
        omega

/-! ## Pushing -/

/-- A packet is stored, and if that takes making room, only what is cut already goes. -/
theorem Awaiting.store (h : Awaiting pkt base arrived s m a) (hnew : i ∉ arrived)
    (hi : i < s + depth) (hm : m < s + depth) (hseq : seqAt (base + i) = (pkt i).sequence) :
    Awaiting pkt base (arrived ++ [i]) s (max m i) (a.push (pkt i)) := by
  obtain ⟨f, hstanding, hwidth⟩ := h.standing
  have hlt := hstanding.lt
  have hle := hstanding.le
  have hdepth : depth = 10 := rfl
  -- A new packet lies behind the cut, as all up to there have arrived.
  have hsi : s < i := Nat.lt_of_not_le fun hle => hnew (h.upto i hle)
  have hstored : Stored (a.slots.insert (pkt i).sequence (pkt i))
      (a.filled.stretch (pkt i).sequence)
      f (base + max m i + 1)
      (storeAt f (base + m + 1) (arrivedView pkt base arrived) (base + i) (pkt i)) := by
    rw [← hseq]
    rcases Nat.lt_or_ge m i with hmi | him
    · rw [Nat.max_eq_right (Nat.le_of_lt hmi)]
      exact hstanding.stored.insert_after (by omega) (by omega) (by omega) (by omega)
    · rw [Nat.max_eq_left him]
      exact hstanding.stored.insert_inside (by omega) (by omega)
  have hview := (hstanding.store (Nat.le_refl _) (by omega) hstored).congr fun q hq _ =>
    storeAt_arrivedView h.top hq
  obtain ⟨f₁, h₁, hf₁⟩ := hview.release
  -- From the cut on there are at most `depth` positions.
  obtain ⟨f', h', hwidth', hready'⟩ := h₁.purge_before (by omega) 65536 (by omega) (by omega)
  refine ⟨⟨f', h', hwidth'⟩, ?_, fun j hj => List.mem_append_left _ (h.upto j hj),
    fun j hj => le_max_of_mem_concat h.top hj, max_mem_concat h.last⟩
  rw [push_eq]
  change (purge 65536 ((a.store (pkt i)).release (a.store (pkt i)).active false)).ready = []
  rw [hready', release_ready]
  exact h.ready

/-- The first packet of the stream. -/
theorem Awaiting.first (hseq : seqAt base = (pkt 0).sequence) :
    Awaiting pkt base [0] 0 0 ((new (.vp8 .none)).push (pkt 0)).activate := by
  obtain ⟨hfirst, hready⟩ := Standing.first (.vp8 .none) hseq
  have hview : Standing (.vp8 .none) ((new (.vp8 .none)).push (pkt 0)).activate base (base + 0)
      (base + 0 + 1) (arrivedView pkt base [0]) := by
    refine hfirst.congr fun q hq hqt => ?_
    obtain rfl : q = base := by omega
    simp [arrivedView]
  have hdepth : 1 ≤ depth := by decide
  exact ⟨⟨base, hview, by omega⟩, hready, fun j hj => by simp [Nat.le_zero.1 hj], by simp, by simp⟩

/-! ## Orders of arrival -/

/-- Where a frame begins in its stream. -/
def startOf (frames : List (List Packet)) (j : Nat) : Nat := (frames.take j).flatten.length

/-- All packets of a frame and of those before it are there, and so is the packet after it. -/
def FrameComplete (frames : List (List Packet)) (arrived : List Nat) (j : Nat) : Prop :=
  ∀ i ≤ startOf frames (j + 1), i ∈ arrived

instance (frames : List (List Packet)) (arrived : List Nat) (j : Nat) :
    Decidable (FrameComplete frames arrived j) :=
  inferInstanceAs (Decidable (∀ i ≤ startOf frames (j + 1), i ∈ arrived))

/-- An order in which the packets of some frames come in. Just after each arrival, from the
first packet of a frame that was not complete before it is less than `depth` to any packet that
arrived. -/
structure FrameArrival (frames : List (List Packet)) (order : List Nat) : Prop where
  perm : order.Perm (List.range frames.flatten.length)
  first : ∀ i ∈ order.head?, i = 0
  window : ∀ k < order.length, ∀ j < frames.length, ¬ FrameComplete frames (order.take k) j →
    ∀ m ∈ order.take (k + 1), m < startOf frames j + depth

section Arrivals

variable {frames done left : List (List Packet)} {order : List Nat} {j k : Nat}

theorem startOf_mono (h : i ≤ j) : startOf frames i ≤ startOf frames j := by
  obtain ⟨more, hmore⟩ := List.take_prefix_take_left (l := frames) h
  rw [startOf, startOf, ← hmore, List.flatten_append, List.length_append]
  exact Nat.le_add_right ..

theorem startOf_length (done left : List (List Packet)) :
    startOf (done ++ left) done.length = done.flatten.length := by
  rw [startOf, List.take_left]

theorem startOf_le (frames : List (List Packet)) (j : Nat) :
    startOf frames j ≤ frames.flatten.length := by
  have hsplit := congrArg (fun l => l.flatten.length) (List.take_append_drop j frames)
  simp only [List.flatten_append, List.length_append] at hsplit
  rw [startOf]
  omega

/-- No frame is empty, so each begins before the next one. -/
theorem startOf_lt (hne : ∀ ps ∈ frames, ps ≠ []) (hj : j < frames.length) :
    startOf frames j < startOf frames (j + 1) := by
  have hpos := List.length_pos_iff.2 (hne frames[j] (List.getElem_mem hj))
  rw [startOf, startOf, List.take_succ_eq_append_getElem hj, List.flatten_append,
    List.length_append]
  simpa using hpos

theorem FrameArrival.lt (h : FrameArrival frames order) (hi : i ∈ order) :
    i < frames.flatten.length :=
  List.mem_range.1 (h.perm.mem_iff.1 hi)

/-- When all packets have arrived, all frames are complete but the last. -/
theorem FrameArrival.complete_iff (h : FrameArrival frames order) (hne : ∀ ps ∈ frames, ps ≠ [])
    (hj : j < frames.length) : FrameComplete frames order j ↔ j + 1 < frames.length := by
  have hmem : ∀ i, i ∈ order ↔ i < frames.flatten.length := fun i => by
    rw [h.perm.mem_iff, List.mem_range]
  constructor
  · intro hcomplete
    have hstart := (hmem _).1 (hcomplete _ (Nat.le_refl _))
    refine Nat.lt_of_le_of_ne hj fun heq => ?_
    rw [startOf, List.take_of_length_le (Nat.le_of_eq heq.symm)] at hstart
    exact Nat.lt_irrefl _ hstart
  · intro hnext i hi
    have hlt := startOf_lt hne hnext
    have hle := startOf_le frames (j + 1 + 1)
    exact (hmem i).2 (by omega)

/-- Packets do not arrive twice. -/
theorem FrameArrival.fresh (h : FrameArrival frames order) (hk : k < order.length) :
    order[k] ∉ order.take k := by
  have hnodup : (order.take k ++ [order[k]]).Nodup := by
    rw [← List.take_succ_eq_append_getElem hk]
    exact (h.perm.nodup_iff.2 List.nodup_range).sublist (List.take_sublist _ _)
  exact fun hmem => (List.nodup_append.1 hnodup).2.2 _ hmem _ (List.mem_singleton_self _) rfl

/-- Frames of which those `done` are cut, and the next one is held. -/
structure Progress (pkt : Nat → Packet) (base : Nat) (arrived : List Nat)
    (done left : List (List Packet)) (a : Assembler) : Prop where
  awaiting : ∃ m, Awaiting pkt base arrived done.flatten.length m a
  held : Held arrived done.flatten.length left

theorem Progress.left_ne_nil (h : Progress pkt base arrived done left a) : left ≠ [] := by
  rintro rfl
  exact h.held

/-- The frames cut are those that are complete. -/
theorem Progress.lt_iff (h : Progress pkt base arrived done left a) :
    j < done.length ↔ FrameComplete (done ++ left) arrived j := by
  constructor
  · intro hj i hi
    obtain ⟨m, hm⟩ := h.awaiting
    refine hm.upto i (Nat.le_trans hi ?_)
    rw [← startOf_length done left]
    exact startOf_mono hj
  · intro hcomplete
    refine Nat.lt_of_not_le fun hle => ?_
    -- The first frame that is left lacks a packet that this one needs, too.
    obtain ⟨ps, rest, rfl⟩ := List.exists_cons_of_ne_nil h.left_ne_nil
    obtain ⟨i, hi, hmiss⟩ := h.held
    have hstart : startOf (done ++ ps :: rest) (done.length + 1) =
        done.flatten.length + ps.length := by
      simpa using startOf_length (done ++ [ps]) rest
    have hmono : startOf (done ++ ps :: rest) (done.length + 1) ≤
        startOf (done ++ ps :: rest) (j + 1) := startOf_mono (Nat.succ_le_succ hle)
    exact hmiss (hcomplete i (by omega))

theorem Framed.drop {P : Nat → Packet} {s : Nat} (h : Framed P s (done ++ left)) :
    Framed P (s + done.flatten.length) left := by
  induction done generalizing s with
  | nil => exact h
  | cons ps done ih =>
    rw [List.flatten_cons, List.length_append, ← Nat.add_assoc]
    exact ih h.2.2

/-- One packet within the window: some more frames are cut. -/
theorem Progress.push (h : Progress pkt base arrived done left a)
    (hframed : Framed (placed pkt base) base (done ++ left)) (hnew : i ∉ arrived)
    (hlt : ∀ j ∈ arrived ++ [i], j < (done ++ left).flatten.length)
    (hnear : ∀ j ∈ arrived ++ [i], j < done.flatten.length + depth)
    (hseq : seqAt (base + i) = (pkt i).sequence) :
    ∃ ss b more left', Drains (a.push (pkt i)) ss b ∧ ss.length ≤ 65536 ∧ left = more ++ left' ∧
      ss.map (·.data) = more.map frameData ∧
      Progress pkt base (arrived ++ [i]) (done ++ more) left' b := by
  obtain ⟨m, hm⟩ := h.awaiting
  have hlast := max_mem_concat (i := i) hm.last
  have hwide := hnear _ hlast
  have hdepth : depth ≤ 65536 := by decide
  have hstored := hm.store hnew (hnear i (by simp)) (hnear m (by simp [hm.last])) hseq
  have hend := hlt _ hlast
  rw [List.flatten_append, List.length_append] at hend
  obtain ⟨ss, b, more, left', hdrains, hsplit, hdata, hb, hheld, hlen⟩ :=
    hstored.drain hframed.drop hend
  rw [← List.length_append, ← List.flatten_append] at hb hheld
  exact ⟨ss, b, more, left', hdrains, by omega, hsplit, hdata, ⟨_, hb⟩, hheld⟩

/-- The first packet completes nothing. -/
theorem Progress.first (hframed : Framed (placed pkt base) base frames)
    (hne : frames.flatten ≠ []) (hseq : seqAt base = (pkt 0).sequence) :
    ∃ b, Drains ((new (.vp8 .none)).push (pkt 0)) [] b ∧ Progress pkt base [0] [] frames b := by
  cases frames with
  | nil => exact absurd rfl hne
  | cons ps rest =>
    have hpos := hframed.2.1.lt
    have hheld : ∃ j ≤ 0 + ps.length, j ∉ [0] := by
      refine ⟨ps.length, by omega, ?_⟩
      rw [List.mem_singleton]
      omega
    obtain ⟨b, hdrains, hb⟩ := (Awaiting.first hseq).wait hframed.2.1 hheld
    exact ⟨b, hdrains.of_activate, ⟨0, hb⟩, hheld⟩

/-- After every packet, the samples are the complete frames. By induction on the packets written. -/
theorem FrameArrival.runs (h : FrameArrival frames order)
    (hframed : Framed (placed pkt base) base frames)
    (hseq : ∀ i < frames.flatten.length, seqAt (base + i) = (pkt i).sequence)
    (hk : k < order.length) :
    ∃ ss b done left, Runs (.new (.vp8 .none)) ((order.take (k + 1)).map pkt) ss b ∧
      frames = done ++ left ∧ ss.map (·.data) = done.map frameData ∧
      Progress pkt base (order.take (k + 1)) done left b := by
  induction k with
  | zero =>
    obtain ⟨rest, rfl⟩ : ∃ rest, order = 0 :: rest := by
      cases order with
      | nil => simp at hk
      | cons i rest => exact ⟨rest, by rw [h.first i rfl]⟩
    have hpos : 0 < frames.flatten.length := h.lt List.mem_cons_self
    obtain ⟨b, hdrains, hb⟩ := Progress.first hframed (List.length_pos_iff.1 hpos) (hseq 0 hpos)
    exact ⟨[], b, [], frames, .cons hdrains (Nat.zero_le _) (.nil b), rfl, rfl, hb⟩
  | succ k ih =>
    obtain ⟨ss, b, done, left, hruns, rfl, hdata, hb⟩ := ih (by omega)
    have hlt : order[k + 1] < (done ++ left).flatten.length := h.lt (List.getElem_mem hk)
    have hleft := List.length_pos_iff.2 hb.left_ne_nil
    -- The first frame that waits bounds how far the packets may be ahead.
    have hwindow : ∀ m ∈ order.take (k + 1 + 1), m < done.flatten.length + depth := by
      rw [← startOf_length done left]
      refine h.window (k + 1) hk done.length ?_ fun hcomplete => ?_
      · rw [List.length_append]
        omega
      · exact Nat.lt_irrefl _ (hb.lt_iff.2 hcomplete)
    have hall : ∀ m ∈ order.take (k + 1 + 1), m < (done ++ left).flatten.length :=
      fun m hm => h.lt (List.mem_of_mem_take hm)
    rw [List.take_succ_eq_append_getElem hk] at hwindow hall ⊢
    obtain ⟨ss', c, more, left', hdrains, hshort, rfl, hdata', hc⟩ :=
      hb.push hframed (h.fresh hk) hall hwindow (hseq _ hlt)
    refine ⟨ss ++ ss', c, done ++ more, left', ?_, (List.append_assoc ..).symm, ?_, hc⟩
    · rw [List.map_append, ← List.append_nil ss']
      exact hruns.append (.cons hdrains hshort (.nil c))
    · rw [List.map_append, List.map_append, hdata, hdata']

end Arrivals

end Headend.Rtp.Assembler
