import Headend.Proofs.Rtp.Frames

/-!
# Which frames are kept

The phases say what becomes of a run of frames: a frame is kept if it has at most `depth + 1`
packets and so has the frame before it, and if another one follows or it fills the window exactly.
-/

namespace Headend.Rtp

namespace Assembler

variable {P : Nat → Packet} {a : Assembler} {s e g t : Nat} {lost : Bool}

/-! ## One frame -/

/-- The phase after `k` of the `count` packets of a frame. If it is `lost`, the frame before it has
left the active span wrapped. -/
def phase (lost : Bool) (count k : Nat) : Phase :=
  if k ≤ (if lost then 1 else depth) then (if lost then .void else .whole)
  else if k < count ∨ k ≤ depth + 1 then .broken
  else .wrapped

theorem phase_one {count : Nat} : phase lost count 1 = if lost then .void else .whole := by
  cases lost
  · rfl
  · rfl

theorem phase_whole {count k : Nat} (h : k ≤ depth) : phase false count k = .whole := by
  simp [phase, h]

theorem phase_broken {count k : Nat} (hk : (if lost then 1 else depth) < k)
    (h : k < count ∨ k ≤ depth + 1) : phase lost count k = .broken := by
  rw [phase, if_neg (Nat.not_le.2 hk), if_pos h]

theorem phase_wrapped {count k : Nat} (hk : depth + 1 < k) (h : count ≤ k) :
    phase lost count k = .wrapped := by
  have hdepth : 1 < depth := by decide
  have hfirst : ¬ k ≤ (if lost then 1 else depth) := by split <;> omega
  rw [phase, if_neg hfirst, if_neg (by omega)]

/-- A further packet. -/
theorem After.more (hframe : Frame P s e) (hst : s < t) (hte : t < e)
    (hseq : seqAt t = (P t).sequence) (h : After P s t (phase lost (e - s) (t - s)) a) :
    ∃ b, Gives a (P t) (if lost = false ∧ t = s + depth ∧ t + 1 = e then
        [frameData ((List.range' s (e - s)).map P)] else []) b ∧
      After P s (t + 1) (phase lost (e - s) (t + 1 - s)) b := by
  have hdepth : 1 < depth := by decide
  by_cases hbroken : (if lost then 1 else depth) < t - s
  · -- Broken already: the frame goes on so, or ends wrapped.
    have hnone : ¬ (lost = false ∧ t = s + depth ∧ t + 1 = e) := by
      rintro ⟨rfl, rfl, -⟩
      simp at hbroken
    have hbroken' : (if lost then 1 else depth) < t + 1 - s := by omega
    rw [phase_broken hbroken (.inl (by omega))] at h
    rw [if_neg hnone]
    by_cases hgo : t + 1 < e ∨ t ≤ s + depth
    · rw [phase_broken hbroken' (by omega)]
      exact h.more_broken hframe hte hseq hgo
    · rw [phase_wrapped (by omega) (by omega)]
      exact h.more_wrapped hframe hte hseq (by omega) (by omega)
  · cases lost with
    | true =>
      -- The second packet of a frame that began with nothing active.
      simp only [if_true] at hbroken
      obtain rfl : t = s + 1 := by omega
      rw [show s + 1 - s = 1 by omega, phase_one] at h
      rw [phase_broken (by simp; omega) (by omega)]
      simpa using h.more_void hframe hte hseq
    | false =>
      simp only [Bool.false_eq_true, if_false] at hbroken
      rw [phase_whole (by omega)] at h
      -- The packet still fits into the window, or it fills it.
      by_cases hwithin : t + 1 - s ≤ depth
      · rw [phase_whole hwithin, if_neg (by omega)]
        exact h.more_within hframe hte hseq hwithin
      · have hfull : t = s + depth := by omega
        rw [phase_broken (by simp; omega) (by omega)]
        by_cases hend : t + 1 = e
        · rw [if_pos ⟨rfl, hfull, hend⟩]
          exact h.more_last hframe hte hseq hfull hend
        · rw [if_neg fun hcon => hend hcon.2.2]
          exact h.more_beyond hframe hte hseq hfull (by omega)

/-- The first packet of the next frame. -/
theorem After.next (hframe : Frame P s e) (hnext : Frame P e g) (hseq : seqAt e = (P e).sequence)
    (h : After P s e (phase lost (e - s) (e - s)) a) :
    ∃ b, Gives a (P e) (if lost = false ∧ e - s ≤ depth then
        [frameData ((List.range' s (e - s)).map P)] else []) b ∧
      After P e (e + 1) (phase (decide (depth + 1 < e - s)) (g - e) 1) b := by
  have hdepth : 1 < depth := by decide
  rw [phase_one]
  by_cases hlong : depth + 1 < e - s
  · rw [phase_wrapped hlong (Nat.le_refl _)] at h
    rw [if_neg (by omega)]
    simpa [hlong] using h.next_wrapped hframe hseq
  · simp only [hlong, decide_false, Bool.false_eq_true, if_false]
    by_cases hbroken : (if lost then 1 else depth) < e - s
    · have hnone : ¬ (lost = false ∧ e - s ≤ depth) := by
        rintro ⟨rfl, hle⟩
        simp at hbroken
        omega
      rw [phase_broken hbroken (by omega)] at h
      rw [if_neg hnone]
      exact h.next_broken hframe hseq
    · cases lost with
      | true =>
        have hlt := hframe.lt
        simp only [if_true] at hbroken
        rw [show e - s = 1 by omega, phase_one] at h
        simpa using h.next_void hnext hseq
      | false =>
        simp only [Bool.false_eq_true, if_false] at hbroken
        rw [phase_whole (by omega)] at h
        rw [if_pos ⟨rfl, by omega⟩]
        exact h.next_whole hframe hnext hseq

/-! ## Runs -/

/-- Several packets written one after another, each followed by popping until there is nothing. -/
inductive Runs : Assembler → List Packet → List Sample → Assembler → Prop where
  | nil (a : Assembler) : Runs a [] [] a
  | cons {a b c : Assembler} {p : Packet} {ps : List Packet} {ss ss' : List Sample}
      (hdrains : Drains (a.push p) ss b) (hshort : ss.length ≤ 65536) (hrest : Runs b ps ss' c) :
      Runs a (p :: ps) (ss ++ ss') c

theorem Runs.append {b c : Assembler} {ps qs : List Packet} {ss ss' : List Sample}
    (h : Runs a ps ss b) (h' : Runs b qs ss' c) : Runs a (ps ++ qs) (ss ++ ss') c := by
  induction h with
  | nil a => exact h'
  | cons hdrains hshort hrest ih =>
    rw [List.cons_append, List.append_assoc]
    exact .cons hdrains hshort (ih h')

theorem Gives.runs {b c : Assembler} {p : Packet} {ps : List Packet} {ss : List Sample}
    {data : List Bytes} (h : Gives a p data b) (hshort : data.length ≤ 65536)
    (hrest : Runs b ps ss c) :
    ∃ ss', Runs a (p :: ps) ss' c ∧ ss'.map (·.data) = data ++ ss.map (·.data) := by
  obtain ⟨ss₁, hdrains, hdata⟩ := h
  have hlen : ss₁.length = data.length := by simpa using congrArg List.length hdata
  exact ⟨ss₁ ++ ss, .cons hdrains (by omega) hrest, by rw [List.map_append, hdata]⟩

theorem length_ite_singleton_le {α : Type} (p : Prop) [Decidable p] (x : α) :
    (if p then [x] else []).length ≤ 65536 := by
  split <;> simp

/-- The packets of a frame that are left. -/
theorem After.run (hframe : Frame P s e) (n : Nat) (hst : s < t) (hte : t + n = e)
    (hseq : ∀ j, t ≤ j → j < e → seqAt j = (P j).sequence)
    (h : After P s t (phase lost (e - s) (t - s)) a) :
    ∃ ss b, Runs a ((List.range' t n).map P) ss b ∧ After P s e (phase lost (e - s) (e - s)) b ∧
      ss.map (·.data) = if lost = false ∧ e - s = depth + 1 ∧ t ≤ s + depth then
        [frameData ((List.range' s (e - s)).map P)] else [] := by
  induction n generalizing a t with
  | zero =>
    obtain rfl : t = e := by omega
    refine ⟨[], a, .nil a, h, ?_⟩
    rw [if_neg fun hcon => by omega]
    rfl
  | succ n ih =>
    obtain ⟨b, hgives, hb⟩ := h.more hframe hst (by omega) (hseq t (Nat.le_refl _) (by omega))
    obtain ⟨ss, c, hruns, hc, hdata⟩ :=
      ih (by omega) (by omega) (fun j hj hje => hseq j (by omega) hje) hb
    obtain ⟨ss', hruns', hdata'⟩ := hgives.runs (length_ite_singleton_le _ _) hruns
    refine ⟨ss', c, by simpa [List.range'_succ] using hruns', hc, ?_⟩
    rw [hdata', hdata]
    -- The frame is cut with its last packet or not at all.
    by_cases hnow : lost = false ∧ t = s + depth ∧ t + 1 = e
    · obtain ⟨rfl, hfull, hend⟩ := hnow
      have hlater : ¬ (false = false ∧ e - s = depth + 1 ∧ t + 1 ≤ s + depth) :=
        fun hcon => by omega
      rw [if_pos ⟨rfl, hfull, hend⟩, if_neg hlater, if_pos ⟨rfl, by omega, by omega⟩]
      rfl
    · rw [if_neg hnow, List.nil_append]
      refine ite_cond_congr (propext ⟨fun hcon => ⟨hcon.1, hcon.2.1, by omega⟩,
        fun hcon => ⟨hcon.1, hcon.2.1, ?_⟩⟩)
      have hne : ¬ (t = s + depth ∧ t + 1 = e) := fun hnow' => hnow ⟨hcon.1, hnow'⟩
      omega

/-! ## Several frames -/

/-- The packets of successive frames, by position. -/
def Framed (P : Nat → Packet) : Nat → List (List Packet) → Prop
  | _, [] => True
  | s, ps :: rest => ps = (List.range' s ps.length).map P ∧ Frame P s (s + ps.length) ∧
      Framed P (s + ps.length) rest

theorem Framed.flatten_cons {ps : List Packet} {rest : List (List Packet)}
    (h : Framed P s (ps :: rest)) : (ps :: rest).flatten =
      P s :: ((List.range' (s + 1) (ps.length - 1)).map P ++ rest.flatten) := by
  obtain ⟨hps, hframe, -⟩ := h
  have hlt := hframe.lt
  have hsplit : List.range' s ps.length = s :: List.range' (s + 1) (ps.length - 1) := by
    rw [← List.range'_succ, Nat.sub_add_cancel (by omega)]
  rw [List.flatten_cons]
  conv => lhs; rw [hps, hsplit]
  rfl

/-- The frames that become samples. -/
def kept : Bool → List (List Packet) → List (List Packet)
  | _, [] => []
  | lost, ps :: rest =>
    (if lost = false ∧ ps.length ≤ depth + 1 ∧ (rest ≠ [] ∨ ps.length = depth + 1) then [ps]
      else []) ++ kept (decide (depth + 1 < ps.length)) rest

/-- A frame is cut as it ends or when the next one begins. -/
theorem kept_cons (lost : Bool) (ps : List Packet) (rest : List (List Packet)) :
    kept lost (ps :: rest) =
      (if lost = false ∧ ps.length = depth + 1 then [ps] else []) ++
        ((if lost = false ∧ ps.length ≤ depth ∧ rest ≠ [] then [ps] else []) ++
          kept (decide (depth + 1 < ps.length)) rest) := by
  rw [kept, ← List.append_assoc]
  congr 1
  cases lost with
  | true => simp
  | false =>
    rcases Nat.lt_trichotomy ps.length (depth + 1) with hlt | heq | hgt
    · have hne : ps.length ≠ depth + 1 := by omega
      have hle : ps.length ≤ depth := by omega
      simp [hne, hle, Nat.le_of_lt hlt]
    · have hle : ¬ depth + 1 ≤ depth := by omega
      simp [heq, hle]
    · have hne : ps.length ≠ depth + 1 := by omega
      have hle : ¬ ps.length ≤ depth := by omega
      simp [hne, hle, Nat.not_le.2 hgt]

/-- The packets of a frame after its first one. -/
theorem After.run_rest {ps : List Packet} (hps : ps = (List.range' s ps.length).map P)
    (hframe : Frame P s (s + ps.length))
    (hseq : ∀ j, s ≤ j → j < s + ps.length → seqAt j = (P j).sequence)
    (h : After P s (s + 1) (phase lost ps.length 1) a) :
    ∃ ss b, Runs a ((List.range' (s + 1) (ps.length - 1)).map P) ss b ∧
      After P s (s + ps.length) (phase lost ps.length ps.length) b ∧
      ss.map (·.data) = if lost = false ∧ ps.length = depth + 1 then [frameData ps] else [] := by
  have hlt := hframe.lt
  have hdepth : 1 ≤ depth := by decide
  have hwidth : s + ps.length - s = ps.length := Nat.add_sub_cancel_left ..
  have hfirst : After P s (s + 1) (phase lost (s + ps.length - s) (s + 1 - s)) a := by
    rwa [hwidth, Nat.add_sub_cancel_left]
  obtain ⟨ss, b, hruns, hb, hdata⟩ := hfirst.run hframe (ps.length - 1) (Nat.lt_succ_self s)
    (by omega) fun j hj hje => hseq j (by omega) hje
  rw [hwidth] at hb
  rw [hwidth, ← hps] at hdata
  exact ⟨ss, b, hruns, hb, by simpa [hdepth] using hdata⟩

/-- Frames of which the first packet is written: the rest of the first frame, and then all
others. -/
theorem After.run_frames {ps : List Packet} {rest : List (List Packet)}
    (hframed : Framed P s (ps :: rest))
    (hseq : ∀ j, s ≤ j → j < s + (ps :: rest).flatten.length → seqAt j = (P j).sequence)
    (h : After P s (s + 1) (phase lost ps.length 1) a) :
    ∃ ss b, Runs a (ps :: rest).flatten.tail ss b ∧
      ss.map (·.data) = (kept lost (ps :: rest)).map frameData := by
  rw [List.flatten_cons, List.length_append] at hseq
  induction rest generalizing a s ps lost with
  | nil =>
    rw [hframed.flatten_cons, kept_cons]
    obtain ⟨hps, hframe, -⟩ := hframed
    obtain ⟨ss, b, hruns, -, hdata⟩ := h.run_rest hps hframe fun j hj hje => hseq j hj (by omega)
    refine ⟨ss, b, by simpa using hruns, ?_⟩
    rw [hdata]
    simp [kept, apply_ite (List.map frameData)]
  | cons qs rest ih =>
    rw [hframed.flatten_cons, kept_cons]
    obtain ⟨hps, hframe, hrest⟩ := hframed
    obtain ⟨ss, b, hruns, hb, hdata⟩ := h.run_rest hps hframe fun j hj hje => hseq j hj (by omega)
    -- The first packet of the next frame settles what becomes of this one.
    have hnext := hrest.2.1
    have hlt := hnext.lt
    have hwidth : s + ps.length - s = ps.length := Nat.add_sub_cancel_left ..
    have hwidth' : s + ps.length + qs.length - (s + ps.length) = qs.length :=
      Nat.add_sub_cancel_left ..
    have hend : After P s (s + ps.length)
        (phase lost (s + ps.length - s) (s + ps.length - s)) b := by
      rwa [hwidth]
    obtain ⟨c, hgives, hc⟩ := hend.next hframe hnext
      (hseq _ (by omega) (by rw [List.flatten_cons, List.length_append]; omega))
    rw [hwidth, ← hps] at hgives
    rw [hwidth, hwidth'] at hc
    obtain ⟨ss', d, hruns', hdata'⟩ := ih hrest
      (fun j hj hje => hseq j (by omega) (by rw [List.flatten_cons, List.length_append]; omega)) hc
    obtain ⟨ss₀, hruns₀, hdata₀⟩ := hgives.runs (length_ite_singleton_le _ _) hruns'
    refine ⟨ss ++ ss₀, d, ?_, ?_⟩
    · have hflatten := hrest.flatten_cons
      rw [hflatten, List.tail_cons] at hruns₀
      rw [List.tail_cons, hflatten]
      exact hruns.append hruns₀
    · rw [List.map_append, hdata, hdata₀, hdata']
      simp [apply_ite (List.map frameData)]

/-- All frames, from the first packet of all. -/
theorem runs_new {frames : List (List Packet)} (hframed : Framed P s frames)
    (hseq : ∀ j, s ≤ j → j < s + frames.flatten.length → seqAt j = (P j).sequence) :
    ∃ ss b, Runs (.new (.vp8 .none)) frames.flatten ss b ∧
      ss.map (·.data) = (kept false frames).map frameData := by
  cases frames with
  | nil => exact ⟨[], _, .nil _, rfl⟩
  | cons ps rest =>
    have hflatten := hframed.flatten_cons
    obtain ⟨b, hgives, hb⟩ := After.start hframed.2.1 (hseq s (Nat.le_refl _) (by simp [hflatten]))
    have hfirst : After P s (s + 1) (phase false ps.length 1) b := by rwa [phase_one]
    obtain ⟨ss, c, hruns, hdata⟩ := hfirst.run_frames hframed hseq
    obtain ⟨ss₀, hruns₀, hdata₀⟩ := hgives.runs (by simp) hruns
    refine ⟨ss₀, c, ?_, by rw [hdata₀, hdata, List.nil_append]⟩
    rw [hflatten, List.tail_cons] at hruns₀
    rw [hflatten]
    exact hruns₀

/-! ## Counting -/

theorem length_kept_le (lost : Bool) (frames : List (List Packet)) :
    (kept lost frames).length ≤ frames.length := by
  induction frames generalizing lost with
  | nil => simp [kept]
  | cons ps rest ih =>
    have hrest := ih (decide (depth + 1 < ps.length))
    rw [kept, List.length_append, List.length_cons]
    split <;> simp <;> omega

theorem length_kept_lost {frames : List (List Packet)} (h : frames ≠ []) :
    (kept true frames).length + 1 ≤ frames.length := by
  cases frames with
  | nil => exact absurd rfl h
  | cons ps rest =>
    have hrest := length_kept_le (decide (depth + 1 < ps.length)) rest
    simpa [kept] using hrest

/-- A frame that is too long goes with the one after it. -/
theorem length_kept_of_long (lost : Bool) {frames : List (List Packet)} {ps : List Packet}
    (hps : ps ∈ frames.dropLast) (hlong : depth + 1 < ps.length) :
    (kept lost frames).length + 2 ≤ frames.length := by
  induction frames generalizing lost with
  | nil => simp at hps
  | cons qs rest ih =>
    have hne : rest ≠ [] := by
      rintro rfl
      simp at hps
    rw [List.dropLast_cons_of_ne_nil hne, List.mem_cons] at hps
    rw [kept, List.length_append, List.length_cons]
    rcases hps with rfl | hps
    · -- This is the long frame: it is not kept, and the rest begins with a lost one.
      have hrest := length_kept_lost hne
      rw [if_neg (by omega), decide_eq_true hlong]
      simp only [List.length_nil]
      omega
    · have hrest := ih (decide (depth + 1 < qs.length)) hps
      have hone (p : Prop) [Decidable p] : (if p then [qs] else []).length ≤ 1 := by
        split <;> simp
      have hqs := hone (lost = false ∧ qs.length ≤ depth + 1 ∧ (rest ≠ [] ∨ qs.length = depth + 1))
      omega

/-- Without one, only the last frame is left to wait, unless it fills the window. -/
theorem kept_of_short {frames : List (List Packet)}
    (h : ∀ ps ∈ frames.dropLast, ps.length ≤ depth + 1) :
    kept false frames =
      if ∃ ps ∈ frames.getLast?, ps.length = depth + 1 then frames else frames.dropLast := by
  induction frames with
  | nil => simp [kept]
  | cons ps rest ih =>
    by_cases hrest : rest = []
    · subst hrest
      by_cases hlen : ps.length = depth + 1
      · simp [kept, hlen]
      · simp [kept, hlen]
    · rw [List.dropLast_cons_of_ne_nil hrest] at h ⊢
      have hps := h ps List.mem_cons_self
      rw [kept, decide_eq_false (by omega), ih fun qs hqs => h qs (List.mem_cons_of_mem _ hqs),
        if_pos ⟨rfl, hps, .inl hrest⟩, List.getLast?_cons_of_ne_nil hrest]
      split <;> rfl

end Assembler

end Headend.Rtp
