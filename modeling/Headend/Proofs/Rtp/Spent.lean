import Headend.Proofs.Rtp.Made

/-!
# How often a packet is cut

The packets of a sample stay stored for a while after it is cut. What keeps them from being cut
again is the active span, which begins behind the sample. It is empty, and everything stored becomes
active again, only if the sample was cut to make room and was all that is stored: then it has
`depth + 1` packets. So a packet of any other sample is never cut again.
-/

namespace Headend.Rtp.Assembler

variable {packets : List Bytes} {cuts : List (List Delivery)} {w : Nat → Nat}
  {v : Nat → Option Packet} {f f' t c e T : Nat} {p first : Packet} {raw : Bytes}
  {a b : Assembler} {done : List Bytes}

/-! ## The tally -/

/-- What is stored and part of a sample already is kept out by the active span. -/
inductive Fenced (cuts : List (List Delivery)) (w : Nat → Nat) (v : Nat → Option Packet)
    (a : Assembler) (f t : Nat) : Prop where
  /-- There is nothing to keep out. -/
  | clear (hunspent : Unspent cuts w v f t)
  /-- It lies before the active span. If that begins where nothing is stored, it does not reach
  around the circle to what is stored, either. -/
  | behind {c T : Nat} (hactive : a.active = .between c T) (hle : f ≤ c) (hnear : c ≤ t + 1)
      (hlt : c < T) (hturn : T < c + 65536) (hunspent : Unspent cuts w v c t)
      (hfar : t ≤ c → T + depth < t + 65536)

/-- The samples cut so far, with the packets that make them up: `done` is the data of those popped
already. -/
structure Tally (packets : List Bytes) (done : List Bytes) (cuts : List (List Delivery))
    (w : Nat → Nat) (v : Nat → Option Packet) (a : Assembler) (f t : Nat) : Prop where
  stored : Stored a.slots a.filled f t v
  laid : Laid packets w f t v
  fenced : Fenced cuts w v a f t
  made : List.Forall₂ (Made packets) cuts (done ++ a.ready.map (·.data))
  once : cuts.Pairwise Once
  vp8 : a.codec.isVp8 = true

namespace Tally

/-- Nothing is cut, and some of what was stored may be freed. -/
theorem keep (h : Tally packets done cuts w v a f t) (hstored : Stored b.slots b.filled f' t v)
    (hf : f ≤ f') (hfenced : Fenced cuts w v b f' t) (hready : b.ready = a.ready)
    (hvp8 : b.codec.isVp8 = a.codec.isVp8) : Tally packets done cuts w v b f' t :=
  ⟨hstored, h.laid.mono hf, hfenced, hready ▸ h.made, h.once, hvp8.trans h.vp8⟩

/-- The sample from `c` to `e` is cut. -/
theorem cut {s : Sample} (h : Tally packets done cuts w v a f t)
    (hunspent : Unspent cuts w v c t) (hr : Ranged a first f t v c e T)
    (hhead : a.codec.isHead first.payload = true)
    (hjoin : (a.codec.join (a.slots.run (e - c) (seqAt c)) []).2 = some s.data)
    (hstored : Stored b.slots b.filled f' t v) (hf : f ≤ f') (hready : b.ready = a.ready ++ [s])
    (hvp8 : b.codec.isVp8 = a.codec.isVp8) :
    ∃ cuts', (∀ x, e ≤ x ∨ e - c = depth + 1 → Unspent cuts w v x t → Unspent cuts' w v x t) ∧
      ∀ (_ : Fenced cuts' w v b f' t), Tally packets done cuts' w v b f' t := by
  obtain ⟨fields, hcodec⟩ := Depacketizer.exists_fields h.vp8
  rw [hcodec] at hhead hjoin
  obtain ⟨o, hmade, honce, hspent⟩ := h.laid.cut h.stored hunspent hr.head_le hr.lt hr.tail_le
    hr.first hr.full hhead hjoin
  refine ⟨cuts ++ [o], hspent, fun hfenced => ⟨hstored, h.laid.mono hf, hfenced, ?_, ?_,
    hvp8.trans h.vp8⟩⟩
  · rw [hready, List.map_append, ← List.append_assoc]
    exact List.rel_append h.made (.cons hmade .nil)
  · refine List.pairwise_append.2 ⟨h.once, List.pairwise_singleton _ _, fun o' ho' o'' ho'' => ?_⟩
    obtain rfl : o'' = o := by simpa using ho''
    exact honce o' ho'

/-- The packets of the next sample are not part of an earlier one. -/
theorem unspent_head (h : Tally packets done cuts w v a f t) (hshort : t - f < 65535)
    (hr : Ranged a first f t v c e T) : Unspent cuts w v c t := by
  cases h.fenced with
  | clear hunspent => exact hunspent.mono hr.head_le
  | @behind c' _ hactive₀ hle₀ hnear hlt₀ hturn hunspent hfar =>
    have hsame : seqAt c' = seqAt c := by
      have hactive := hactive₀.symm.trans hr.active
      exact congrArg Span.head hactive
    have hle := hr.head_le
    have hlt := hr.lt
    have htail := hr.tail_le
    obtain rfl : c' = c := by
      rcases Nat.le_total c' c with hcc | hcc
      · exact seqAt_inj hcc (by omega) hsame
      · exact (seqAt_inj hcc (by omega) hsame.symm).symm
    exact hunspent

/-! ## Popping -/

theorem activate (h : Tally packets done cuts w v a f t) :
    Tally packets done cuts w v a.activate f t := by
  obtain ⟨hslots, hfilled, hready⟩ := a.activate_keeps
  refine h.keep (hslots ▸ hfilled ▸ h.stored) (Nat.le_refl _) ?_ hready (by rw [activate_codec])
  cases h.fenced with
  | clear hunspent => exact .clear hunspent
  | behind hactive hle hnear hlt hturn hunspent hfar =>
    rw [activate_eq hactive hlt hturn]
    exact .behind hactive hle hnear hlt hturn hunspent hfar

/-- Where the active span ends does not matter to the fence while the window is not too wide. -/
theorem extend (h : Tally packets done cuts w v a f t) (hnarrow : t - f ≤ depth) :
    Tally packets done cuts w v a.activate.extend f t := by
  have hactive := h.activate
  have hstored := hactive.stored
  have hready : a.activate.extend.ready = a.activate.ready := by
    unfold Assembler.extend
    split <;> rfl
  refine hactive.keep (stored_extend h.stored) (Nat.le_refl _) ?_ hready (by rw [extend_codec])
  cases hactive.fenced with
  | clear hunspent => exact .clear hunspent
  | @behind c T hactive₀ hle₀ hnear hlt₀ hturn₀ hunspent hfar₀ =>
    rcases Nat.lt_or_ge c t with hct | hct
    · obtain ⟨T', hreach, hturn, hextend⟩ := extend_span hstored (by omega)
      have hspan : a.activate.extend.active = .between c T' := by
        rw [hextend, hactive₀]
        rfl
      exact .behind hspan hle₀ hnear (by omega) (by omega) hunspent (by omega)
    · -- Nothing stored is active, nor does the span end where something is stored.
      have hside : a.activate.filled.locate a.activate.active.tail ≠ .inside := by
        have hfar := hfar₀ hct
        have hle := hstored.le
        rw [hstored.span_eq, hactive₀, Span.between_tail]
        rcases Nat.eq_or_lt_of_le hle with rfl | hlt
        · rw [Span.locate_empty]
          simp
        · rw [Span.locate_outside hlt (by omega) (by omega)]
          split <;> simp
      have hextend : a.activate.extend = a.activate := by rw [Assembler.extend, if_neg hside]
      rw [hextend]
      exact .behind hactive₀ hle₀ hnear hlt₀ hturn₀ hunspent hfar₀

/-- Building the next sample once the packet behind it is there. -/
theorem build (h : Tally packets done cuts w v a f t) (hnarrow : t - f ≤ depth) :
    ∃ f' cuts', f ≤ f' ∧ Tally packets done cuts' w v (a.build false).1 f' t := by
  have hwindow : depth = 10 := rfl
  have hextend := h.extend hnarrow
  have hvp8 := a.build_isVp8 false
  rcases build_cases h.stored false with hbuild | hbuild | ⟨first, c, e, T, hr, hbehind, hcut⟩
  · rw [hbuild]
    exact ⟨f, cuts, Nat.le_refl _, h.activate⟩
  · rw [hbuild]
    exact ⟨f, cuts, Nat.le_refl _, hextend⟩
  · have het := hbehind rfl
    have hunspent := hextend.unspent_head (by omega) hr
    have hreach := hr.reach
    have hturn := hr.turn
    have hlt := hr.lt
    have hle := hr.head_le
    -- Whatever becomes of the span, the active span begins behind it.
    have hfence : ∀ {cuts'} {b : Assembler} {f'}, b.active = .between e T → f' ≤ e →
        Unspent cuts' w v e t → Fenced cuts' w v b f' t := fun hactive hf' hspent =>
      .behind hactive hf' (by omega) (by omega) (by omega) hspent (by omega)
    have hcodec : a.activate.extend.codec = a.codec := by rw [extend_codec, activate_codec]
    rcases hcut with ⟨hhead, hbuild⟩ | hbuild
    · rw [hbuild] at hvp8 ⊢
      rw [← hcodec] at hhead hvp8
      rcases take_cases hextend.stored hr (.inr (by omega)) with
        ⟨b, htake, hstored, hactive, hready⟩ |
        ⟨b, f', s, htake, hstored, hf', hf'e, hactive, hready, hjoin⟩
      · rw [htake] at hvp8 ⊢
        exact ⟨f, cuts, Nat.le_refl _, hextend.keep hstored (Nat.le_refl _)
          (hfence hactive (by omega) (hunspent.mono (by omega))) hready hvp8⟩
      · rw [htake] at hvp8 ⊢
        obtain ⟨cuts', hspent, htally⟩ :=
          hextend.cut hunspent hr hhead hjoin hstored (by omega) hready hvp8
        exact ⟨f', cuts', by omega, htally (hfence hactive hf'e
          (hspent e (.inl (Nat.le_refl _)) (hunspent.mono (by omega))))⟩
    · obtain ⟨f', hf', hf'e, hstored, hactive⟩ := skip_ranged hextend.stored hr het
      rw [hbuild]
      refine ⟨f', cuts, hf', hextend.keep hstored hf'
        (hfence hactive hf'e (hunspent.mono (by omega))) ?_ ?_⟩
      · simp [skip]
      · simp [skip]

/-! ## Making room -/

/-- If the active span begins with the oldest slot, nothing stored is part of a sample. -/
theorem clear_of_head (h : Tally packets done cuts w v a f t) (hshort : t - f < 65535)
    (hhead : a.activate.active.head = seqAt f) : Unspent cuts w v f t := by
  cases h.fenced with
  | clear hunspent => exact hunspent
  | @behind c T hactive hle hnear hlt hturn hunspent hfar =>
    rw [activate_eq hactive hlt hturn, hactive, Span.between_head] at hhead
    obtain rfl : f = c := seqAt_inj hle (by omega) hhead.symm
    exact hunspent

/-- Building a sample to make room: nothing of what is left is part of a sample, unless it lies
before the active span. -/
theorem build_purging (h : Tally packets done cuts w v a f t) (hunspent : Unspent cuts w v f t)
    (hhead : a.activate.active.head = seqAt f) (hfew : Few v f t) (hwide : depth < t - f) :
    ∃ f' cuts', f ≤ f' ∧ Tally packets done cuts' w v (a.build true).1 f' t ∧
      ((a.build true).2 = true → f < f') ∧
      ((a.build true).2 = false → f' < t ∧ Unspent cuts' w v f' t) := by
  have hwindow : depth = 10 := rfl
  have hvp8 := a.build_isVp8 true
  obtain ⟨hslots, hfilled, hready⟩ := a.activate_keeps
  have hkeep : ∀ {b : Assembler} {f'}, Stored b.slots b.filled f' t v → f ≤ f' →
      b.ready = a.ready → b.codec.isVp8 = a.codec.isVp8 → Tally packets done cuts w v b f' t :=
    fun hstored hf' hready hvp8 => h.keep hstored hf' (.clear (hunspent.mono hf')) hready hvp8
  have hready' : a.activate.extend.ready = a.ready := by
    rw [← hready]
    unfold Assembler.extend
    split <;> rfl
  rcases build_cases h.stored true with hbuild | hbuild | ⟨first, c, e, T, hr, -, hcut⟩
  · rw [hbuild] at hvp8 ⊢
    exact ⟨f, cuts, Nat.le_refl _, hkeep (hslots ▸ hfilled ▸ h.stored) (Nat.le_refl _) hready hvp8,
      by simp, fun _ => ⟨by omega, hunspent⟩⟩
  · rw [hbuild] at hvp8 ⊢
    exact ⟨f, cuts, Nat.le_refl _, hkeep (stored_extend h.stored) (Nat.le_refl _) hready' hvp8,
      by simp, fun _ => ⟨by omega, hunspent⟩⟩
  · have hextend : Tally packets done cuts w v a.activate.extend f t :=
      hkeep (stored_extend h.stored) (Nat.le_refl _) hready' (by rw [extend_codec, activate_codec])
    have hstored := hextend.stored
    have hshort := hstored.short
    have hle := hr.head_le
    have hlt := hr.lt
    have htail := hr.tail_le
    have hreach := hr.reach
    have hturn := hr.turn
    -- The sample begins with the oldest slot.
    obtain rfl : f = c := by
      have hsame : a.activate.extend.active.head = a.activate.active.head := by
        unfold Assembler.extend
        split <;> rfl
      rw [hr.active, hhead, Span.between_head] at hsame
      exact seqAt_inj hle (by omega) hsame.symm
    have hcodec : a.activate.extend.codec = a.codec := by rw [extend_codec, activate_codec]
    rcases hcut with ⟨hfirst, hbuild⟩ | hbuild
    · rw [hbuild] at hvp8 ⊢
      rw [← hcodec] at hfirst
      rcases take_cases hstored hr (.inl rfl) with
        ⟨b, htake, hstored', hactive, hready⟩ |
        ⟨b, f', s, htake, hstored', hf', hf'e, hactive, hready, hjoin⟩
      · rw [htake] at hvp8 ⊢
        exact ⟨f, cuts, Nat.le_refl _, hkeep hstored' (Nat.le_refl _) (hready.trans hready') hvp8,
          by simp, fun _ => ⟨by omega, hunspent⟩⟩
      · rw [htake] at hvp8 ⊢
        rw [← hcodec] at hvp8
        obtain ⟨cuts', hspent, htally⟩ :=
          hextend.cut hunspent hr hfirst hjoin hstored' (by omega) hready hvp8
        refine ⟨f', cuts', by omega, htally ?_, fun _ => hf', by simp⟩
        rcases Nat.lt_or_ge e T with heT | heT
        · exact .behind hactive hf'e (by omega) heT (by omega)
            (hspent e (.inl (Nat.le_refl _)) (hunspent.mono (by omega))) (by omega)
        · -- The sample is all that is stored, so it fills the window.
          have hall := hfew f (Nat.le_refl _) fun j hj hjt => hr.full j hj (by omega)
          exact .clear (hspent f' (.inr (by omega)) (hunspent.mono (by omega)))
    · obtain ⟨f', htrims⟩ := skip_trims hstored (.between f e)
      have hfew' := htrims.few
      rw [hbuild]
      refine ⟨f', cuts, htrims.le, hkeep htrims.stored htrims.le ?_ ?_, by simp,
        fun _ => ⟨by omega, hunspent.mono htrims.le⟩⟩
      · simp [skip, hready']
      · simp [skip]

/-- One round frees a slot. -/
theorem purgeOldest (h : Tally packets done cuts w v a f t) (hshort : t - f < 65535)
    (hfew : Few v f t) (hwide : depth < t - f) :
    ∃ f' cuts', f < f' ∧ Tally packets done cuts' w v a.purgeOldest f' t := by
  have hwindow : depth = 10 := rfl
  have hactive := h.activate
  have hvp8 := a.purgeOldest_isVp8
  have hhead : a.activate.filled.head = seqAt f := by rw [hactive.stored.span_eq]; rfl
  rw [Assembler.purgeOldest] at hvp8 ⊢
  dsimp only at hvp8 ⊢
  split
  case isTrue hfirst =>
    rw [Bool.and_eq_true, beq_iff_eq, hhead] at hfirst
    have hunspent := h.clear_of_head hshort hfirst.2
    rw [activate_activate a |>.symm] at hfirst
    obtain ⟨f', cuts', hf', htally, hmade, hfailed⟩ :=
      hactive.build_purging hunspent hfirst.2 hfew hwide
    rcases hbuild : a.activate.build true with ⟨b, made⟩
    rw [hbuild] at htally hmade hfailed
    cases made with
    | true => exact ⟨f', cuts', hmade rfl, htally⟩
    | false =>
      obtain ⟨hlt, hunspent'⟩ := hfailed rfl
      exact ⟨f' + 1, cuts', by omega, htally.keep (htally.stored.erase hlt) (Nat.le_succ f')
        (.clear (hunspent'.mono (Nat.le_succ f'))) rfl rfl⟩
  case isFalse hrest =>
    refine ⟨f + 1, cuts, Nat.lt_succ_self f, hactive.keep (hactive.stored.erase (by omega))
      (Nat.le_succ f) ?_ rfl rfl⟩
    cases hactive.fenced with
    | clear hunspent₀ => exact .clear (hunspent₀.mono (Nat.le_succ f))
    | @behind c T hactive₀ hle hnear hlt₀ hturn hunspent₀ hfar =>
      -- The active span begins behind the oldest slot.
      have hne : f ≠ c := by
        rintro rfl
        rw [hactive₀, Span.isEmpty_between (by omega) hturn, hhead] at hrest
        simp at hrest
        omega
      exact .behind hactive₀ (by omega) hnear hlt₀ hturn hunspent₀ hfar

/-- Room is made until no more is stored than fits into the window. -/
theorem purge (fuel : Nat) (h : Tally packets done cuts w v a f t) (hfew : Few v f t)
    (hshort : t - f < 65536 - depth) (hfuel : t - f ≤ fuel + depth) :
    ∃ f' cuts', Tally packets done cuts' w v (purge fuel a) f' t ∧ t - f' ≤ depth := by
  have hwindow : depth = 10 := rfl
  induction fuel generalizing a f cuts with
  | zero => exact ⟨f, cuts, h, by omega⟩
  | succ fuel ih =>
    by_cases hdepth : t - f ≤ depth
    · rw [purge_eq_self h.stored hdepth]
      exact ⟨f, cuts, h, hdepth⟩
    · obtain ⟨f₁, cuts₁, hlt, h₁⟩ := h.purgeOldest (by omega) hfew (by omega)
      rw [purge_eq_purge h.stored (by omega) hshort]
      exact ih h₁ (hfew.mono (Nat.le_of_lt hlt)) (by omega) (by omega)

/-! ## Pushing -/

/-- The same numbers, one circle later. -/
theorem circle (h : Tally packets done cuts w v a f t) :
    Tally packets done cuts (fun j => w (j - 65536)) (fun j => v (j - 65536)) a (f + 65536)
      (t + 65536) := by
  refine ⟨h.stored.circle, h.laid.circle, ?_, h.made, h.once, h.vp8⟩
  cases h.fenced with
  | clear hunspent => exact .clear hunspent.circle
  | @behind c T hactive hle hnear hlt hturn hunspent hfar =>
    have hspan : a.active = .between (c + 65536) (T + 65536) := by
      rw [hactive, Span.between, Span.between, seqAt_add_circle, seqAt_add_circle]
    exact .behind hspan (by omega) (by omega) (by omega) (by omega) hunspent.circle (by omega)

theorem write_lt (h : Tally packets done cuts w v a f t) :
    ∀ o ∈ cuts, ∀ d ∈ o, d.write < packets.length := by
  intro o ho d hd
  obtain ⟨n, hn, rfl⟩ := List.mem_iff_getElem.1 ho
  have hlength := h.made.length_eq
  have hmade := List.Forall₂.get h.made hn (hlength ▸ hn)
  exact (hmade.brought d hd).lt

/-- Storing a packet. -/
theorem store (h : Tally packets done cuts w v a f t) (hnarrow : t - f ≤ depth)
    (hparse : Packet.parse raw = .ok p) :
    ∃ w' v' f' t', Tally (packets ++ [raw]) done cuts w' v' (a.store p) f' t' ∧ Few v' f' t' ∧
      t' - f' < 65536 - depth := by
  -- A circle later there is room for positions before those stored.
  obtain ⟨w, v, f, t, h, hnarrow, hbase⟩ : ∃ w v f t, Tally packets done cuts w v a f t ∧
      t - f ≤ depth ∧ 65536 ≤ f := ⟨_, _, _, _, h.circle, by omega, by omega⟩
  obtain ⟨q, f', t', hq, hstored, hf'q, hf', ht', hshort⟩ :=
    h.stored.exists_storeAt hnarrow hbase p p.sequence
  have hlt := h.write_lt
  have hfew : Few (storeAt f t v q p) f' t' := Few.store hnarrow ht'
  refine ⟨_, _, f', t', ⟨hstored, h.laid.store hparse hq, ?_,
    h.made.imp fun _ _ hmade => hmade.concat raw, h.once, h.vp8⟩, hfew, hshort⟩
  cases h.fenced with
  | clear hunspent => exact .clear (hunspent.store (fun j _ hj => hj) hlt)
  | @behind c T hactive hle₀ hnear hlt₀ hturn hunspent hfar =>
    rcases ht' with ⟨hne, rfl⟩ | ⟨hnone, -⟩
    · have hle := hf' hne
      exact .behind hactive (Nat.le_trans hle hle₀) (by omega) hlt₀ hturn
        (hunspent.store (fun j hj _ => hj) hlt) (by omega)
    · -- Nothing else is stored.
      have hempty : Unspent cuts w v f t := fun j hj hjt => by omega
      exact .clear (hempty.store (fun j _ hj => hj) hlt)

/-- Before room is made, a slot in front of the active span may be freed. -/
theorem release (h : Tally packets done cuts w v a f t) :
    ∃ f', f ≤ f' ∧ Tally packets done cuts w v (a.release a.active false) f' t := by
  cases h.fenced with
  | clear hunspent =>
    obtain ⟨f', hf', -, hstored⟩ := release_stored h.stored a.active false
    exact ⟨f', hf', h.keep hstored hf' (.clear (hunspent.mono hf')) (by simp) (by simp)⟩
  | @behind c T hactive hle hnear hlt hturn hunspent hfar =>
    obtain ⟨f', hf', hf'c, hstored⟩ := release_upto h.stored hle (Nat.le_of_lt hlt) hturn
    rw [← hactive] at hstored
    exact ⟨f', hf', h.keep hstored hf'
      (.behind ((release_active ..).trans hactive) hf'c hnear hlt hturn hunspent hfar)
      (by simp) (by simp)⟩

end Tally

/-! ## Runs -/

/-- Between two packets: there is a tally, and what is stored fits into the window. -/
def Tallied (packets done : List Bytes) (cuts : List (List Delivery)) (a : Assembler) : Prop :=
  ∃ w v f t, Tally packets done cuts w v a f t ∧ t - f ≤ depth

theorem Tallied.new (fields : Codec.Vp8.Fields) : Tallied [] [] [] (.new (.vp8 fields)) := by
  have hstored : Stored Slots.empty Span.empty 0 0 fun _ => none :=
    ⟨rfl, Nat.le_refl _, by omega, fun _ _ _ => by simp⟩
  exact ⟨id, fun _ => none, 0, 0, ⟨hstored, ⟨by simp, by simp⟩,
    .clear fun j hj hjt => by omega, .nil, .nil, rfl⟩, Nat.zero_le _⟩

/-- Bytes that are no packet leave the tally as it is. -/
theorem Tallied.concat (h : Tallied packets done cuts a) (raw : Bytes) :
    Tallied (packets ++ [raw]) done cuts a := by
  obtain ⟨w, v, f, t, htally, hnarrow⟩ := h
  exact ⟨w, v, f, t, { htally with
    laid := htally.laid.concat raw
    made := htally.made.imp fun _ _ hmade => hmade.concat raw }, hnarrow⟩

theorem Tallied.push (h : Tallied packets done cuts a) (hparse : Packet.parse raw = .ok p) :
    ∃ cuts', Tallied (packets ++ [raw]) done cuts' (a.push p) := by
  obtain ⟨w, v, f, t, htally, hnarrow⟩ := h
  obtain ⟨w₁, v₁, f₁, t₁, h₁, hfew, hshort⟩ := htally.store hnarrow hparse
  obtain ⟨f₂, hf₂, h₂⟩ := h₁.release
  obtain ⟨f₃, cuts', h₃, hnarrow'⟩ :=
    h₂.purge 65536 (hfew.mono hf₂) (by omega) (by omega)
  exact ⟨cuts', w₁, v₁, f₃, t₁, h₃, hnarrow'⟩

theorem Tallied.pop (h : Tallied packets done cuts a) :
    ∃ cuts', Tallied packets (done ++ a.pop.2.toList.map (·.data)) cuts' a.pop.1 := by
  obtain ⟨w, v, f, t, htally, hnarrow⟩ := h
  obtain ⟨f', cuts', hf', hbuilt⟩ := htally.build hnarrow
  refine ⟨cuts', w, v, f', t, ?_, by omega⟩
  rw [Assembler.pop]
  cases hready : (a.build false).1.ready with
  | nil =>
    rw [Option.toList_none, List.map_nil, List.append_nil]
    exact hbuilt
  | cons s rest =>
    -- The sample goes over from those that are ready to those popped.
    have hmade := hbuilt.made
    rw [hready, List.map_cons, ← List.singleton_append, ← List.append_assoc] at hmade
    refine ⟨hbuilt.stored, hbuilt.laid, ?_, hmade, hbuilt.once, hbuilt.vp8⟩
    cases hbuilt.fenced with
    | clear hunspent => exact .clear hunspent
    | behind hactive hle hnear hlt hturn hunspent hfar =>
      exact .behind hactive hle hnear hlt hturn hunspent hfar

/-- By induction on the samples popped. -/
theorem Tallied.drain {ss : List Sample} (h : Tallied packets done cuts a)
    (hdrains : Drains a ss b) :
    ∃ cuts', Tallied packets (done ++ ss.map (·.data)) cuts' b := by
  induction hdrains generalizing done cuts with
  | done hpop =>
    obtain ⟨cuts', hpopped⟩ := h.pop
    rw [hpop] at hpopped
    exact ⟨cuts', hpopped⟩
  | next hpop _ ih =>
    obtain ⟨cuts', hpopped⟩ := h.pop
    rw [hpop] at hpopped
    obtain ⟨cuts'', hrest⟩ := ih hpopped
    rw [List.append_assoc] at hrest
    exact ⟨cuts'', hrest⟩

/-- By induction on the writes. -/
theorem Tallied.yields (h : Tallied packets done cuts a) (hnarrow : a.Narrow) (raws : List Bytes) :
    ∃ cuts' b, Tallied (packets ++ raws) (done ++ (a.yields raws).flatten.map (·.data)) cuts' b ∧
      b.Narrow := by
  induction raws generalizing packets done cuts a with
  | nil => exact ⟨cuts, a, by simpa [Assembler.yields] using h, hnarrow⟩
  | cons raw raws ih =>
    obtain ⟨cuts₁, h₁, hnarrow₁⟩ : ∃ cuts₁, Tallied (packets ++ [raw])
        (done ++ (a.accept raw).1.map (·.data)) cuts₁ (a.accept raw).2 ∧
        (a.accept raw).2.Narrow := by
      by_cases hok : ∃ p, Packet.parse raw = .ok p
      · obtain ⟨p, hparse⟩ := hok
        obtain ⟨hdrains, hnarrow', -⟩ := hnarrow.accept_drains hparse
        obtain ⟨cuts₁, hpushed⟩ := h.push hparse
        obtain ⟨cuts₂, hdrained⟩ := hpushed.drain hdrains
        exact ⟨cuts₂, hdrained, hnarrow'⟩
      · rw [accept_of_not_ok fun p hp => hok ⟨p, hp⟩, List.map_nil, List.append_nil]
        exact ⟨cuts, h.concat raw, hnarrow⟩
    obtain ⟨cuts₂, b, h₂, hnarrow₂⟩ := ih h₁ hnarrow₁
    refine ⟨cuts₂, b, ?_, hnarrow₂⟩
    simpa [Assembler.yields, List.append_assoc] using h₂

/-- Every sample that comes of a stream is made up of packets of it, and shares none with an earlier
one that does not fill the window. -/
theorem yields_once (fields : Codec.Vp8.Fields) (raws : List Bytes) :
    ∃ cuts, List.Forall₂ (Made raws) cuts
        ((((new (.vp8 fields)).yields raws).flatten).map (·.data)) ∧ cuts.Pairwise Once := by
  obtain ⟨cuts, b, ⟨w, v, f, t, htally, -⟩, hready, -⟩ :=
    (Tallied.new fields).yields (.new _) raws
  have hmade := htally.made
  rw [hready, List.map_nil, List.append_nil] at hmade
  exact ⟨cuts, hmade, htally.once⟩

end Headend.Rtp.Assembler
