import Headend.WebM.BlockWriter
import Mathlib.Data.List.Chain
import Mathlib.Data.List.TakeWhile

/-!
# How blocks are grouped into clusters

A cluster takes blocks as long as they are not before its start, not too far behind it for the
16-bit field, and not keyframes a second or more behind it. `clusters` groups blocks by that rule,
and a writer puts out just these clusters.
-/

namespace Headend.WebM

structure Cluster where
  timestamp : Nat
  first : Block
  rest : List Block
  deriving Repr, DecidableEq

namespace Cluster

def blocks (c : Cluster) : List Block := c.first :: c.rest

/-- The cluster with one more block at its end. -/
def push (c : Cluster) (b : Block) : Cluster := { c with rest := c.rest ++ [b] }

/-- What each block of the cluster adds to the stream. The head of the cluster stands before its
first block. -/
def chunks (c : Cluster) : List Bytes :=
  (clusterHead c.timestamp ++ c.first.encode c.timestamp) :: c.rest.map (·.encode c.timestamp)

/-- What holds of a cluster, whichever blocks came before and come after it. -/
structure Proper (c : Cluster) : Prop where
  starts : c.timestamp = c.first.timestamp
  within : ∀ b ∈ c.blocks, c.timestamp ≤ b.timestamp ∧ b.timestamp ≤ c.timestamp + maxRelative
  keyframes : ∀ b ∈ c.rest, b.keyframe = true → b.timestamp < c.timestamp + clusterSpan

end Cluster

/-! ## Grouping -/

/-- Whether a block joins a cluster that starts at `start`. -/
def Block.joins (start : Nat) (b : Block) : Bool := fits start b.keyframe b.timestamp

/-- Each cluster takes all blocks up to the first that does not fit. -/
def clusters : List Block → List Cluster
  | [] => []
  | b :: bs => ⟨b.timestamp, b, bs.takeWhile (Block.joins b.timestamp)⟩ ::
      clusters (bs.dropWhile (Block.joins b.timestamp))
termination_by bs => bs.length
decreasing_by
  have hle := List.length_dropWhile_le (Block.joins b.timestamp) bs
  simp only [List.length_cons]
  omega

variable {b : Block} {bs : List Block} {start : Nat}

theorem Block.joins_iff : b.joins start = true ↔ start ≤ b.timestamp ∧
    b.timestamp ≤ start + maxRelative ∧
      (b.keyframe = true → b.timestamp < start + clusterSpan) := by
  unfold Block.joins fits
  cases b.keyframe <;> simp <;> omega

theorem flatMap_blocks_clusters (bs : List Block) :
    (clusters bs).flatMap Cluster.blocks = bs := by
  fun_induction clusters bs with
  | case1 => rfl
  | case2 b bs ih =>
    rw [List.flatMap_cons, ih]
    exact congrArg (b :: ·) List.takeWhile_append_dropWhile

theorem proper_of_mem_clusters {c : Cluster} (h : c ∈ clusters bs) : c.Proper := by
  fun_induction clusters bs with
  | case1 => cases h
  | case2 b bs ih =>
    rcases List.mem_cons.1 h with rfl | h
    · have hrest : ∀ d ∈ bs.takeWhile (Block.joins b.timestamp), d.joins b.timestamp = true :=
        fun d hd => List.mem_takeWhile_imp hd
      refine ⟨rfl, fun d hd => ?_, fun d hd => (Block.joins_iff.1 (hrest d hd)).2.2⟩
      rcases List.mem_cons.1 hd with rfl | hd
      · exact ⟨Nat.le_refl _, Nat.le_add_right _ _⟩
      · obtain ⟨hle, hspan, -⟩ := Block.joins_iff.1 (hrest d hd)
        exact ⟨hle, hspan⟩
    · exact ih h

/-- A block that begins a cluster did not fit into the one before. -/
theorem clusters_apart (bs : List Block) :
    (clusters bs).IsChain fun c c' => c'.first.joins c.timestamp = false := by
  fun_induction clusters bs with
  | case1 => exact .nil
  | case2 b bs ih =>
    refine List.isChain_cons.2 ⟨fun c hc => ?_, ih⟩
    cases hrest : bs.dropWhile (Block.joins b.timestamp) with
    | nil => simp [hrest, clusters] at hc
    | cons d ds =>
      have hnot := List.head?_dropWhile_not (Block.joins b.timestamp) bs
      rw [hrest] at hc hnot
      obtain rfl : _ = c := by simpa [clusters] using hc
      exact hnot

/-! ## Writing -/

variable (tracks : List Track)

theorem BlockWriter.writeAll_cons {w w' : BlockWriter} {out : Bytes} (h : w.write b = (w', out))
    (bs : List Block) : w.writeAll (b :: bs) = out :: w'.writeAll bs := by
  rw [writeAll, h]

/-- The open cluster takes all blocks up to the first that does not fit. -/
theorem BlockWriter.writeAll_open (start : Nat) (bs : List Block) :
    (⟨tracks, true, some start⟩ : BlockWriter).writeAll bs =
      (bs.takeWhile (Block.joins start)).map (·.encode start) ++
        (⟨tracks, true, none⟩ : BlockWriter).writeAll (bs.dropWhile (Block.joins start)) := by
  induction bs with
  | nil => rfl
  | cons b bs ih =>
    cases hjoins : b.joins start with
    | true =>
      have hwrite : (⟨tracks, true, some start⟩ : BlockWriter).write b =
          (⟨tracks, true, some start⟩, b.encode start) := by
        have hfits : fits start b.keyframe b.timestamp = true := hjoins
        simp [write, clusterFor, hfits]
      rw [List.takeWhile_cons_of_pos hjoins, List.dropWhile_cons_of_pos hjoins,
        writeAll_cons hwrite, ih]
      rfl
    | false =>
      -- The block is written as if no cluster were open.
      have hwrite : (⟨tracks, true, some start⟩ : BlockWriter).write b =
          (⟨tracks, true, none⟩ : BlockWriter).write b := by
        have hfits : fits start b.keyframe b.timestamp = false := hjoins
        simp [write, clusterFor, hfits]
      have hnot : ¬ b.joins start = true := by simp [hjoins]
      rw [List.takeWhile_cons_of_neg hnot, List.dropWhile_cons_of_neg hnot, writeAll_cons hwrite]
      rfl

/-- By induction on the clusters. -/
theorem BlockWriter.writeAll_closed (bs : List Block) :
    (⟨tracks, true, none⟩ : BlockWriter).writeAll bs = (clusters bs).flatMap Cluster.chunks := by
  fun_induction clusters bs with
  | case1 => rfl
  | case2 b bs ih =>
    have hwrite : (⟨tracks, true, none⟩ : BlockWriter).write b =
        (⟨tracks, true, some b.timestamp⟩,
          clusterHead b.timestamp ++ b.encode b.timestamp) := by
      simp [write, clusterFor]
    rw [writeAll_cons hwrite, writeAll_open, ih]
    rfl

/-- Only the header is added to what comes of the clusters. -/
theorem BlockWriter.writeAll_new (bs : List Block) : (BlockWriter.new tracks).writeAll bs =
    ((clusters bs).flatMap Cluster.chunks).modifyHead (header tracks ++ ·) := by
  rw [← writeAll_closed tracks]
  cases bs with
  | nil => rfl
  | cons b bs => simp [writeAll, write, new, clusterFor]

/-! ## Blocks in order of time -/

variable {tracks}

theorem Cluster.not_proper_push {c : Cluster} (h : b.joins c.timestamp = false) :
    ¬ (c.push b).Proper := by
  intro hproper
  obtain ⟨hle, hspan⟩ := hproper.within b (by simp [push, blocks])
  have hkeyframe := hproper.keyframes b (by simp [push])
  have hjoins : b.joins c.timestamp = true := Block.joins_iff.2 ⟨hle, hspan, hkeyframe⟩
  rw [h] at hjoins
  cases hjoins

/-- The clusters begin with some of the blocks, in their order. -/
theorem map_first_sublist (bs : List Block) :
    ((clusters bs).map Cluster.first).Sublist bs := by
  fun_induction clusters bs with
  | case1 => exact .slnil
  | case2 b bs ih => exact (ih.trans (List.dropWhile_sublist _)).cons_cons b

/-- Clusters begin in order of time if the blocks come so. -/
theorem clusters_ordered (h : bs.Pairwise (·.timestamp ≤ ·.timestamp)) :
    (clusters bs).Pairwise (·.timestamp ≤ ·.timestamp) := by
  have hfirst := h.sublist (map_first_sublist bs)
  rw [List.pairwise_map] at hfirst
  refine hfirst.imp_of_mem fun {c c'} hc hc' hle => ?_
  rw [(proper_of_mem_clusters hc).starts, (proper_of_mem_clusters hc').starts]
  exact hle

/-- Then a block that is no keyframe begins a cluster only if it is too late for the one before. -/
theorem clusters_late (h : bs.Pairwise (·.timestamp ≤ ·.timestamp)) :
    (clusters bs).IsChain fun c c' =>
      c'.first.keyframe = false → c.timestamp + maxRelative < c'.first.timestamp := by
  rw [List.isChain_iff_getElem]
  intro i hi hnot
  have hapart := List.isChain_iff_getElem.1 (clusters_apart bs) i hi
  have hle := List.pairwise_iff_getElem.1 (clusters_ordered h) i (i + 1) (by omega) hi
    (Nat.lt_succ_self i)
  rw [(proper_of_mem_clusters (List.getElem_mem hi)).starts] at hle
  refine Nat.lt_of_not_le fun hspan => ?_
  have hjoins := Block.joins_iff.2 ⟨hle, hspan, by simp [hnot]⟩
  rw [hapart] at hjoins
  cases hjoins

/-! ## The clusters of a stream -/

/-- A new stream consists of its header and of clusters that hold the blocks in order. Each cluster
complies with the rules and is as long as they allow. If the blocks come in order of time so do the
clusters, and one that does not begin with a keyframe is the first or begins too late for the one
before. -/
theorem BlockWriter.writeAll_new_clusters (tracks : List Track) (bs : List Block) :
    ∃ cs : List Cluster,
      (BlockWriter.new tracks).writeAll bs =
        (cs.flatMap Cluster.chunks).modifyHead (header tracks ++ ·) ∧
      cs.flatMap Cluster.blocks = bs ∧
      (∀ c ∈ cs, c.Proper) ∧
      cs.IsChain (fun c c' => ¬ (c.push c'.first).Proper) ∧
      (bs.Pairwise (·.timestamp ≤ ·.timestamp) →
        cs.Pairwise (·.timestamp ≤ ·.timestamp) ∧
        cs.IsChain fun c c' =>
          c'.first.keyframe = false → c.timestamp + maxRelative < c'.first.timestamp) :=
  ⟨clusters bs, writeAll_new tracks bs, flatMap_blocks_clusters bs,
    fun _ hc => proper_of_mem_clusters hc,
    (clusters_apart bs).imp fun _ _ hapart => Cluster.not_proper_push hapart,
    fun h => ⟨clusters_ordered h, clusters_late h⟩⟩

/-- A keyframe within the second, one after it, and a block just in the range of the field before
one just out of it. -/
def spacedBlocks : List Block :=
  [⟨1, false, 5, []⟩, ⟨1, true, 1004, []⟩, ⟨1, true, 1005, []⟩, ⟨1, false, 33772, []⟩,
    ⟨1, false, 33773, []⟩]

/-- They make up three clusters. -/
theorem BlockWriter.writeAll_new_clusters_spaced :
    spacedBlocks.Pairwise (·.timestamp ≤ ·.timestamp) ∧
    ∃ cs : List Cluster,
      (BlockWriter.new [Track.opus]).writeAll spacedBlocks =
        (cs.flatMap Cluster.chunks).modifyHead (header [Track.opus] ++ ·) ∧
      cs.flatMap Cluster.blocks = spacedBlocks ∧ cs.Pairwise (·.timestamp ≤ ·.timestamp) := by
  have horder : spacedBlocks.Pairwise (·.timestamp ≤ ·.timestamp) := by decide
  obtain ⟨cs, hwritten, hblocks, -, -, hordered⟩ :=
    writeAll_new_clusters [Track.opus] spacedBlocks
  exact ⟨horder, cs, hwritten, hblocks, (hordered horder).1⟩

/-- Blocks at 5, 1005 and 33773 begin the clusters. -/
example : (clusters spacedBlocks).map (·.timestamp) = [5, 1005, 33773] := by
  cbv

end Headend.WebM
