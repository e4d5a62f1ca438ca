import Headend.Proofs.Rtp.Trail
import Headend.Proofs.Rtp.Yield

/-!
# The packets of a sample

`Made` says which packets make up a sample, and `Laid.cut` that those between two positions do. The
lemmas about `build` say what becomes of a span and what is freed with it, wherever the active span
ends.
-/

namespace Headend.Rtp

/-! ## Samples and their packets -/

/-- These packets make up a sample: they have successive numbers, the first of them begins a frame,
and their parts joined are the data. -/
structure Made (packets : List Bytes) (o : List Delivery) (data : Bytes) : Prop where
  nonempty : o ≠ []
  brought : ∀ d ∈ o, Brought packets d.write d.packet
  head : ∀ d ∈ o.head?, Codec.Vp8.isHead d.packet.payload = true
  sequence : o.IsChain fun d d' => d'.packet.sequence = d.packet.sequence + 1
  joined : ∃ fields, ((Depacketizer.vp8 fields).join (o.map (·.packet)) []).2 = some data

/-- No write is in both. -/
def Unshared (o o' : List Delivery) : Prop := ∀ d ∈ o, ∀ d' ∈ o', d.write ≠ d'.write

/-- Of two samples, in the order they are cut, the later one shares no write with the earlier one,
unless that fills the window. -/
def Once (o o' : List Delivery) : Prop := o.length = Assembler.depth + 1 ∨ Unshared o o'

theorem Made.concat {packets : List Bytes} {o : List Delivery} {data : Bytes}
    (h : Made packets o data) (raw : Bytes) : Made (packets ++ [raw]) o data :=
  { h with brought := fun d hd => (h.brought d hd).concat raw }

/-- The packets stored from `f` to `t`, with the write `w j` that brought the one at `j`. -/
structure Laid (packets : List Bytes) (w : Nat → Nat) (f t : Nat) (v : Nat → Option Packet) :
    Prop where
  brought : ∀ j p, f ≤ j → j < t → v j = some p → Brought packets (w j) p ∧ seqAt j = p.sequence
  distinct : ∀ i j, f ≤ i → i < j → j < t → v i ≠ none → v j ≠ none → w i ≠ w j

/-- From `x` on nothing is stored that is part of a sample, those that fill the window aside. -/
def Unspent (cuts : List (List Delivery)) (w : Nat → Nat) (v : Nat → Option Packet) (x t : Nat) :
    Prop :=
  ∀ j, x ≤ j → j < t → v j ≠ none →
    ∀ o ∈ cuts, o.length ≠ Assembler.depth + 1 → ∀ d ∈ o, d.write ≠ w j

/-- Packets without a gap up to the end are no more than fill the window. -/
def Few (v : Nat → Option Packet) (f t : Nat) : Prop :=
  ∀ x, f ≤ x → (∀ j, x ≤ j → j < t → v j ≠ none) → t ≤ x + (Assembler.depth + 1)

variable {packets : List Bytes} {cuts : List (List Delivery)} {w : Nat → Nat}
  {v : Nat → Option Packet} {f f' t t' c e q x y : Nat} {p : Packet} {raw : Bytes}

theorem Laid.mono (h : Laid packets w f t v) (hf : f ≤ f') : Laid packets w f' t v :=
  ⟨fun j p hj => h.brought j p (Nat.le_trans hf hj),
    fun i j hi => h.distinct i j (Nat.le_trans hf hi)⟩

theorem Laid.concat (h : Laid packets w f t v) (raw : Bytes) : Laid (packets ++ [raw]) w f t v :=
  ⟨fun j p hj hjt hv => ⟨(h.brought j p hj hjt hv).1.concat raw, (h.brought j p hj hjt hv).2⟩,
    h.distinct⟩

theorem Unspent.mono (h : Unspent cuts w v x t) (hxy : x ≤ y) : Unspent cuts w v y t :=
  fun j hj => h j (Nat.le_trans hxy hj)

theorem Few.mono (h : Few v f t) (hf : f ≤ f') : Few v f' t :=
  fun x hx => h x (Nat.le_trans hf hx)

/-! ## Storing a packet -/

theorem le_of_storeAt_ne_none {j : Nat} (hjq : j ≠ q) (hj : storeAt f t v q p j ≠ none) :
    f ≤ j := by
  refine Nat.le_of_not_lt fun hlt => hj ?_
  rw [storeAt, if_neg hjq, if_neg (by omega)]

/-- The new packet comes from the last write. -/
theorem Laid.store (h : Laid packets w f t v) (hparse : Packet.parse raw = .ok p)
    (hq : seqAt q = p.sequence) :
    Laid (packets ++ [raw]) (fun j => if j = q then packets.length else w j) f' t'
      (storeAt f t v q p) := by
  -- A packet stored before is one of those laid.
  have hhold : ∀ j p', j ≠ q → storeAt f t v q p j = some p' →
      f ≤ j ∧ j < t ∧ v j = some p' := by
    intro j p' hjq hj
    have hne : storeAt f t v q p j ≠ none := by simp [hj]
    obtain ⟨hjt, -, heq⟩ := of_storeAt_ne_none hjq hne
    exact ⟨le_of_storeAt_ne_none hjq hne, hjt, heq ▸ hj⟩
  have hlt : ∀ j, j ≠ q → storeAt f t v q p j ≠ none → w j < packets.length := by
    intro j hjq hj
    obtain ⟨p', hp'⟩ := Option.ne_none_iff_exists'.1 hj
    obtain ⟨hfj, hjt, hv⟩ := hhold j p' hjq hp'
    exact (h.brought j p' hfj hjt hv).1.lt
  constructor
  case brought =>
    intro j p' _ _ hj
    by_cases hjq : j = q
    · subst hjq
      obtain rfl : p = p' := by simpa using hj
      rw [if_pos rfl]
      exact ⟨⟨raw, by simp, hparse⟩, hq⟩
    · obtain ⟨hfj, hjt, hv⟩ := hhold j p' hjq hj
      rw [if_neg hjq]
      exact ⟨(h.brought j p' hfj hjt hv).1.concat raw, (h.brought j p' hfj hjt hv).2⟩
  case distinct =>
    intro i j _ hij _ hi hj
    by_cases hiq : i = q
    · have hjq : j ≠ q := by omega
      rw [if_pos hiq, if_neg hjq]
      exact Nat.ne_of_gt (hlt j hjq hj)
    · rw [if_neg hiq]
      by_cases hjq : j = q
      · rw [if_pos hjq]
        exact Nat.ne_of_lt (hlt i hiq hi)
      · obtain ⟨hjt, hvj, -⟩ := of_storeAt_ne_none hjq hj
        obtain ⟨-, hvi, -⟩ := of_storeAt_ne_none hiq hi
        rw [if_neg hjq]
        exact h.distinct i j (le_of_storeAt_ne_none hiq hi) hij hjt hvi hvj

/-- It is not part of a sample yet. -/
theorem Unspent.store (h : Unspent cuts w v x t) (hy : ∀ j, y ≤ j → f ≤ j → x ≤ j)
    (hcuts : ∀ o ∈ cuts, ∀ d ∈ o, d.write < packets.length) :
    Unspent cuts (fun j => if j = q then packets.length else w j) (storeAt f t v q p) y t' := by
  intro j hyj _ hj o ho hlong d hd
  change d.write ≠ if j = q then packets.length else w j
  by_cases hjq : j = q
  · rw [if_pos hjq]
    exact Nat.ne_of_lt (hcuts o ho d hd)
  · obtain ⟨hjt, hvj, -⟩ := of_storeAt_ne_none hjq hj
    rw [if_neg hjq]
    exact h j (hy j hyj (le_of_storeAt_ne_none hjq hj)) hjt hvj o ho hlong d hd

/-- The window holds `depth` packets at most, and one more comes. -/
theorem Few.store (hnarrow : t - f ≤ Assembler.depth)
    (ht' : f < t ∧ t' = max t (q + 1) ∨ f = t ∧ t' = q + 1) : Few (storeAt f t v q p) f' t' := by
  intro x hx hall
  -- Whatever is stored lies within the old range or is the new packet.
  have hin : ∀ j, x ≤ j → j < t' → j = q ∨ f ≤ j ∧ j < t := by
    intro j hxj hjt
    by_cases hjq : j = q
    · exact .inl hjq
    · exact .inr ⟨le_of_storeAt_ne_none hjq (hall j hxj hjt),
        (of_storeAt_ne_none hjq (hall j hxj hjt)).1⟩
  have hfirst := hin x (Nat.le_refl _)
  have hsecond := hin (x + 1) (Nat.le_succ x)
  have hgap := hin (max x t)
  omega

/-! ## A circle later -/

theorem Laid.circle (h : Laid packets w f t v) :
    Laid packets (fun j => w (j - 65536)) (f + 65536) (t + 65536) fun j => v (j - 65536) := by
  constructor
  case brought =>
    intro j p hj hjt hv
    obtain ⟨hbrought, hseq⟩ := h.brought (j - 65536) p (by omega) (by omega) hv
    rw [← seqAt_add_circle, Nat.sub_add_cancel (by omega)] at hseq
    exact ⟨hbrought, hseq⟩
  case distinct =>
    intro i j hi hij hjt hvi hvj
    exact h.distinct (i - 65536) (j - 65536) (by omega) (by omega) (by omega) hvi hvj

theorem Unspent.circle (h : Unspent cuts w v x t) :
    Unspent cuts (fun j => w (j - 65536)) (fun j => v (j - 65536)) (x + 65536) (t + 65536) :=
  fun j hxj hjt hv => h (j - 65536) (by omega) (by omega) hv

/-! ## Cutting a sample -/

/-- The packets from `c` to `e` become a sample; none of them is part of an earlier one. -/
theorem Laid.cut {s : Slots} {span : Span} {first : Packet} {fields : Codec.Vp8.Fields}
    {data : Bytes} (h : Laid packets w f t v) (hstored : Stored s span f t v)
    (hunspent : Unspent cuts w v c t) (hf : f ≤ c) (hce : c < e) (het : e ≤ t)
    (hfirst : v c = some first) (hfull : ∀ j, c ≤ j → j < e → v j ≠ none)
    (hhead : Codec.Vp8.isHead first.payload = true)
    (hjoin : ((Depacketizer.vp8 fields).join (s.run (e - c) (seqAt c)) []).2 = some data) :
    ∃ o, Made packets o data ∧ (∀ o' ∈ cuts, Once o' o) ∧
      ∀ x, e ≤ x ∨ e - c = Assembler.depth + 1 → Unspent cuts w v x t →
        Unspent (cuts ++ [o]) w v x t := by
  -- The packet at each position of the sample.
  let pk : Nat → Packet := fun j => (v j).getD first
  have hpk : ∀ j, c ≤ j → j < e → v j = some (pk j) := by
    intro j hcj hje
    obtain ⟨p, hp⟩ := Option.ne_none_iff_exists'.1 (hfull j hcj hje)
    simp [pk, hp]
  let o : List Delivery := (List.range' c (e - c)).map fun j => ⟨w j, pk j⟩
  have hmem : ∀ d ∈ o, ∃ j, c ≤ j ∧ j < e ∧ d = ⟨w j, pk j⟩ := by
    intro d hd
    obtain ⟨j, hj, rfl⟩ := List.mem_map.1 hd
    rw [List.mem_range'_1] at hj
    exact ⟨j, hj.1, by omega, rfl⟩
  refine ⟨o, ?_, fun o' ho' => ?_, fun x hx hcuts j hxj hjt hvj o' ho' hlong d hd => ?_⟩
  · constructor
    case nonempty => simp [o, Nat.sub_eq_zero_iff_le, hce]
    case brought =>
      intro d hd
      obtain ⟨j, hcj, hje, rfl⟩ := hmem d hd
      exact (h.brought j (pk j) (by omega) (by omega) (hpk j hcj hje)).1
    case head =>
      intro d hd
      obtain ⟨n, hn⟩ : ∃ n, e - c = n + 1 := ⟨e - c - 1, by omega⟩
      obtain rfl : (⟨w c, pk c⟩ : Delivery) = d := by simpa [o, hn, List.range'_succ] using hd
      have hpkc : pk c = first := by simp [pk, hfirst]
      rw [hpkc]
      exact hhead
    case sequence =>
      rw [List.isChain_map]
      refine (List.isChain_range' c (e - c) 1).imp_of_mem_imp fun i j hi hj hij => ?_
      rw [List.mem_range'_1] at hi hj
      have hseq := (h.brought i (pk i) (by omega) (by omega) (hpk i hi.1 (by omega))).2
      have hseq' := (h.brought j (pk j) (by omega) (by omega) (hpk j hj.1 (by omega))).2
      rw [← hseq, ← hseq', seqAt_add_one, hij]
    case joined =>
      refine ⟨fields, ?_⟩
      have hrun : s.run (e - c) (seqAt c) = o.map (·.packet) := by
        rw [Assembler.run_eq hstored pk hf (by omega) fun j hcj hje => hpk j hcj (by omega)]
        simp [o]
      rwa [hrun] at hjoin
  · rw [Once, or_iff_not_imp_left]
    intro hlong d hd d' hd'
    obtain ⟨j, hcj, hje, rfl⟩ := hmem d' hd'
    exact hunspent j hcj (by omega) (hfull j hcj hje) o' ho' hlong d hd
  · rw [List.mem_append, List.mem_singleton] at ho'
    rcases ho' with ho' | rfl
    · exact hcuts j hxj hjt hvj o' ho' hlong d hd
    · obtain ⟨i, hci, hie, rfl⟩ := hmem d hd
      have hxe : e ≤ x := hx.resolve_right fun hfills => hlong (by simp [o, hfills])
      exact h.distinct i j (by omega) (by omega) hjt (hfull i hci hie) hvj

namespace Assembler

variable {a b : Assembler} {first : Packet} {T : Nat}

/-! ## What building does -/

/-- The active span reaches to the end of what is stored, or farther. -/
theorem extend_span (h : Stored a.slots a.filled f t v) (hlt : f < t) :
    ∃ T, t ≤ T ∧ T < f + 65536 ∧ a.extend = { a with active := ⟨a.active.head, seqAt T⟩ } := by
  have hshort := h.short
  obtain ⟨u, hfu, hu, htail⟩ := exists_seqAt a.active.tail f
  rcases Nat.lt_or_ge u t with hut | hut
  · have hside : a.filled.locate a.active.tail = .inside := by
      rw [h.span_eq, ← htail, Span.locate_inside hfu hut hshort]
    exact ⟨t, Nat.le_refl _, hshort, by rw [extend, if_pos hside, h.span_eq]; rfl⟩
  · have hside : a.filled.locate a.active.tail ≠ .inside := by
      rw [h.span_eq, ← htail, Span.locate_outside hlt hut hu]
      split <;> simp
    exact ⟨u, hut, hu, by rw [extend, if_neg hside, htail]⟩

/-- The next sample goes from `c` to `e`, and the active span to `T`. -/
structure Ranged (a : Assembler) (first : Packet) (f t : Nat) (v : Nat → Option Packet)
    (c e T : Nat) : Prop where
  active : a.active = .between c T
  head_le : f ≤ c
  lt : c < e
  tail_le : e ≤ t
  reach : t ≤ T
  turn : T < f + 65536
  first : v c = some first
  full : ∀ j, c ≤ j → j < e → v j ≠ none

/-- What is stored is the same once it is chosen what is active, and how far that goes. -/
theorem stored_extend (h : Stored a.slots a.filled f t v) :
    Stored a.activate.extend.slots a.activate.extend.filled f t v := by
  obtain ⟨hslots, hfilled, -⟩ := a.activate_keeps
  unfold extend
  split
  · exact hfilled ▸ hslots ▸ h
  · exact hfilled ▸ hslots ▸ h

theorem build_cases (h : Stored a.slots a.filled f t v) (purging : Bool) :
    a.build purging = (a.activate, false) ∨ a.build purging = (a.activate.extend, false) ∨
    ∃ first c e T, Ranged a.activate.extend first f t v c e T ∧ (purging = false → e < t) ∧
      (a.codec.isHead first.payload = true ∧
          a.build purging = a.activate.extend.take first (.between c e) ∨
        a.build purging = (a.activate.extend.skip (.between c e), false)) := by
  have hb := stored_extend h
  rw [build_eq_ite]
  split
  · exact .inl rfl
  · cases hnext : a.activate.extend.next? with
    | none => exact .inr (.inl rfl)
    | some next =>
      obtain ⟨first, span⟩ := next
      obtain ⟨c, e, hhead, rfl, hfc, hce, het, hfirst, hfull⟩ := next?_range hb hnext
      obtain ⟨hslots, hfilled, -⟩ := a.activate_keeps
      have hactive : Stored a.activate.slots a.activate.filled f t v := by rwa [hslots, hfilled]
      obtain ⟨T, hreach, hturn, hextend⟩ := extend_span hactive (by omega)
      have hspan : a.activate.extend.active = .between c T := by
        rw [hextend] at hhead ⊢
        dsimp only at hhead ⊢
        rw [hhead]
        rfl
      have hranged : Ranged a.activate.extend first f t v c e T :=
        ⟨hspan, hfc, hce, het, hreach, hturn, hfirst, hfull⟩
      dsimp only
      split
      · exact .inr (.inl rfl)
      · rename_i hwait
        refine .inr (.inr ⟨first, c, e, T, hranged, fun hpop => ?_, ?_⟩)
        · -- A packet is stored behind the sample.
          refine Nat.lt_of_le_of_ne het fun heq => hwait ?_
          have hshort := hb.short
          subst heq
          rw [hpop, Slots.has, Span.between_tail, hb.get?_of_ge (Nat.le_refl _) hshort]
          rfl
        · rw [extend_codec, activate_codec]
          split
          · rename_i hhead
            exact .inl ⟨hhead, rfl⟩
          · exact .inr rfl

/-- Nothing inside of the active span is freed before it. -/
theorem release_of_inside (h : Stored a.slots a.filled f t v) (hc : c ≤ f) (hf : f < T)
    (hT : T < c + 65536) : a.release (.between c T) false = a := by
  have hhead : a.filled.head = seqAt f := by rw [h.span_eq]; rfl
  rw [release, hhead, Span.locate_inside hc hf hT]
  simp

/-- No slot of the active span is freed. -/
theorem release_upto (h : Stored a.slots a.filled f t v) (hf : f ≤ e) (he : e ≤ T)
    (hT : T < e + 65536) :
    ∃ f', f ≤ f' ∧ f' ≤ e ∧ Stored (a.release (.between e T) false).slots
      (a.release (.between e T) false).filled f' t v := by
  rcases Nat.eq_or_lt_of_le hf with rfl | hlt
  · have hkeep : a.release (.between f T) false = a := by
      rcases Nat.eq_or_lt_of_le he with rfl | hlt
      · exact release_empty a f false
      · exact release_of_inside h (Nat.le_refl _) hlt hT
    exact ⟨f, Nat.le_refl _, Nat.le_refl _, by rwa [hkeep]⟩
  · obtain ⟨f', hf', hfew, hstored⟩ := release_stored h (.between e T) false
    exact ⟨f', hf', by omega, hstored⟩

/-- A sample that is refused leaves everything stored; one that is cut frees nothing behind it. -/
theorem take_cases (h : Stored a.slots a.filled f t v) (hr : Ranged a first f t v c e T)
    (hnear : f = c ∨ t - f ≤ 32768) :
    (∃ b, a.take first (.between c e) = (b, false) ∧ Stored b.slots b.filled f t v ∧
      b.active = .between e T ∧ b.ready = a.ready) ∨
    ∃ b f' s, a.take first (.between c e) = (b, true) ∧ Stored b.slots b.filled f' t v ∧
      f < f' ∧ f' ≤ e ∧ b.active = .between e T ∧ b.ready = a.ready ++ [s] ∧
      (a.codec.join (a.slots.run (e - c) (seqAt c)) []).2 = some s.data := by
  obtain ⟨hactive, hfc, hce, het, hreach, hturn, -, -⟩ := hr
  have hshort := h.short
  have hwidth : (Span.between c e).width = e - c := Span.width_between (by omega) (by omega)
  have hmoved : ({ a.active with head := (Span.between c e).tail } : Span) = .between e T := by
    rw [hactive]
    rfl
  rcases hjoin : a.codec.join (a.slots.run (e - c) (seqAt c)) [] with ⟨codec, _ | data⟩
  · left
    refine ⟨{ a with active := .between e T, codec := codec }, ?_, h, rfl, rfl⟩
    simp only [take, hmoved, hwidth, Span.between_head, hjoin]
  · -- The state once the sample is ready; one slot is freed with it, and one more at most.
    right
    let s : Sample := ⟨data, elapsedNanos a.codec.clockRate first.timestamp
      (a.endOf first (.between c e))⟩
    let r : Assembler := { a with
      active := .between e T
      codec := codec
      ready := a.ready ++ [s] }
    have hr : Stored r.slots r.filled f t v := h
    have hdrop : r.release (.between c e) true = r.dropOldest := release_drops hr hfc hce het hnear
    obtain ⟨f', hf', hf'e, hstored⟩ :=
      release_upto (a := r.dropOldest) (hr.erase (by omega)) (by omega) (by omega : e ≤ T)
        (by omega)
    refine ⟨r.dropOldest.release (.between e T) false, f', s, ?_, hstored, by omega, hf'e, ?_, ?_,
      rfl⟩
    · rw [← hdrop]
      simp only [take, hmoved, hwidth, Span.between_head, hjoin]
      have hactive : (r.release (.between c e) true).active = .between e T := by simp [r]
      change ((r.release (.between c e) true).release (r.release (.between c e) true).active false,
        true) = _
      rw [hactive]
    · simp [r]
    · simp [r]

/-- A span without a head is given up; if a packet is stored behind it, nothing of that is freed. -/
theorem skip_ranged (h : Stored a.slots a.filled f t v) (hr : Ranged a first f t v c e T)
    (het : e < t) :
    ∃ f', f ≤ f' ∧ f' ≤ e ∧ Stored (a.skip (.between c e)).slots
      (a.skip (.between c e)).filled f' t v
      ∧ (a.skip (.between c e)).active = .between e T := by
  obtain ⟨hactive, hfc, hce, -, hreach, hturn, -, -⟩ := hr
  obtain ⟨f₁, hf₁, hfew₁, h₁⟩ := release_stored h (.between c e) true
  have hactive₁ : (a.release (.between c e) true).active = .between c T := by simp [hactive]
  have hskip : a.skip (.between c e) =
      { (a.release (.between c e) true).release (.between c T) false with
        active := .between e T } := by
    unfold skip
    simp only [hactive₁, release_active, Span.between_tail]
    rfl
  obtain ⟨f₂, hf₂, hf₂e, h₂⟩ : ∃ f₂, f₁ ≤ f₂ ∧ f₂ ≤ e ∧
      Stored ((a.release (.between c e) true).release (.between c T) false).slots
        ((a.release (.between c e) true).release (.between c T) false).filled f₂ t v := by
    rcases Nat.lt_or_ge f₁ e with hlt | hge
    · obtain ⟨f₂, hf₂, hfew₂, h₂⟩ := release_stored h₁ (.between c T) false
      exact ⟨f₂, hf₂, by omega, h₂⟩
    · rw [release_of_inside h₁ (by omega) (by omega) (by omega)]
      exact ⟨f₁, Nat.le_refl _, by omega, h₁⟩
  rw [hskip]
  exact ⟨f₂, by omega, hf₂e, h₂, rfl⟩

end Assembler

end Headend.Rtp
