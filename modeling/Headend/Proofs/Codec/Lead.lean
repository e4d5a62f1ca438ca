import Headend.Proofs.Codec.H264

/-!
# The first unit of a stream

What reading a payload can come to, and when a payload that seems to begin with a sequence parameter
set gives a stream that does. A payload that is cut short may give nothing, and an aggregate may
begin with an empty unit.
-/

namespace Headend.Codec.H264

variable {g g' payload out chunk rest : Bytes}

/-- The byte behind the first start code is the header of a sequence parameter set. -/
def LeadsWithSps (stream : Bytes) : Prop :=
  ∃ header rest, stream = startCode ++ header :: rest ∧ nalType header = spsType

theorem leadsWithSps_iff : LeadsWithSps (startCode ++ rest) ↔
    ∃ header ∈ rest.head?, nalType header = spsType := by
  constructor
  · rintro ⟨header, tail, hsame, htype⟩
    obtain rfl := List.append_cancel_left hsame
    exact ⟨header, rfl, htype⟩
  · rintro ⟨header, hfirst, htype⟩
    obtain ⟨tail, rfl⟩ := List.head?_eq_some_iff.1 hfirst
    exact ⟨header, tail, rfl, htype⟩

/-- The second of two start codes in a row stands where a header would, and it is none of this
type. -/
theorem not_leadsWithSps_startCode : ¬ LeadsWithSps (startCode ++ (startCode ++ rest)) := by
  rw [leadsWithSps_iff]
  rintro ⟨header, hfirst, htype⟩
  cases hfirst
  exact absurd htype (by decide)

theorem leadsWithSps_append (hcode : startCode <+: chunk) (hnext : rest = [] ∨ startCode <+: rest) :
    LeadsWithSps (chunk ++ rest) ↔ LeadsWithSps chunk := by
  obtain ⟨tail, rfl⟩ := hcode
  cases tail with
  | nil =>
    rcases hnext with rfl | ⟨more, rfl⟩
    · simp
    · have hempty : ¬ LeadsWithSps (startCode ++ []) := by
        rw [leadsWithSps_iff]
        exact nofun
      rw [List.append_assoc, List.nil_append]
      exact iff_of_false not_leadsWithSps_startCode hempty
  | cons header tail =>
    rw [List.append_assoc, leadsWithSps_iff, leadsWithSps_iff]
    rfl

/-! ## What reading comes to -/

/-- What splits up is an aggregate. -/
theorem splitAggregate_eq_ok {fuel : Nat} {bs acc : Bytes} (henough : bs.length ≤ fuel)
    (h : splitAggregate fuel bs acc = .ok out) :
    ∃ units : List Bytes, (∀ u ∈ units, u.length < 65536) ∧ bs = units.flatMap sized ∧
      out = acc ++ byteStream units := by
  induction fuel generalizing bs acc with
  | zero =>
    obtain rfl : bs = [] := List.eq_nil_of_length_eq_zero (Nat.le_zero.1 henough)
    cases h
    exact ⟨[], List.forall_mem_nil _, rfl, by simp [byteStream]⟩
  | succ fuel ih =>
    rcases bs with _ | ⟨hi, _ | ⟨lo, rest⟩⟩
    · cases h
      exact ⟨[], List.forall_mem_nil _, rfl, by simp [byteStream]⟩
    · cases h
    · rw [List.length_cons, List.length_cons] at henough
      rw [splitAggregate] at h
      by_cases hshort : rest.length < 256 * hi.toNat + lo.toNat
      · rw [if_pos hshort] at h
        cases h
      · rw [if_neg hshort] at h
        obtain ⟨units, hsizes, hbytes, hresult⟩ := ih (by rw [List.length_drop]; omega) h
        have hfirst : (rest.take (256 * hi.toNat + lo.toNat)).length = 256 * hi.toNat + lo.toNat :=
          List.length_take_of_le (Nat.le_of_not_lt hshort)
        refine ⟨rest.take (256 * hi.toNat + lo.toNat) :: units, ?_, ?_, ?_⟩
        · refine List.forall_mem_cons.2 ⟨?_, hsizes⟩
          have := hi.toNat_lt
          have := lo.toNat_lt
          omega
        · rw [List.flatMap_cons, sized_eq hfirst, ← hbytes]
          simp
        · rw [hresult]
          simp [byteStream]

/-- The fragments kept and the outcome, by what the payload is. -/
inductive Reads (g : Bytes) : Bytes → Bytes × Outcome Fault Bytes → Prop where
  | unit {header : UInt8} {body : Bytes} (htype : 1 ≤ nalType header ∧ nalType header ≤ 23)
      (hlong : 2 ≤ body.length ∨ nalType header = delimiterType) :
      Reads g (header :: body) (g, .ok (startCode ++ header :: body))
  | group {header : UInt8} {units : List Bytes} (htype : nalType header = aggregateType)
      (hnonempty : units ≠ []) (hsizes : ∀ u ∈ units, u.length < 65536) :
      Reads g (aggregate header units) (g, .ok (byteStream units))
  | part {header second : UInt8} {rest : Bytes} (htype : nalType header = fragmentType) :
      Reads g (header :: second :: rest) (g ++ rest, .ok [])
  | last {header second : UInt8} {rest : Bytes} (htype : nalType header = fragmentType) :
      Reads g (header :: second :: rest)
        ([], .ok (startCode ++ (header &&& 0x60 ||| nalType second) :: (g ++ rest)))
  | refused {payload : Bytes} (fault : Fault) : Reads g payload (g, .error fault)
  | crash {payload : Bytes} : Reads g payload (g, .crash)

theorem reads (g payload : Bytes) : Reads g payload (depacketize g payload) := by
  match payload with
  | [] => exact .refused _
  | [_] => exact .refused _
  | header :: second :: rest =>
    unfold depacketize
    dsimp only
    split
    · exact .refused _
    · next hlong =>
      have hlong : 2 ≤ (second :: rest).length ∨ nalType header = delimiterType := by
        cases rest with
        | nil => exact .inr (by simpa using hlong)
        | cons => exact .inl (by simp)
      split
      · next htype => exact .unit (by simpa using htype) hlong
      · split
        · next htype =>
          cases hsplit : splitAggregate (header :: second :: rest).length (second :: rest) [] with
          | ok out =>
            obtain ⟨units, hsizes, hbytes, rfl⟩ := splitAggregate_eq_ok (Nat.le_succ _) hsplit
            have hnonempty : units ≠ [] := by
              rintro rfl
              simp at hbytes
            rw [hbytes]
            exact .group htype hnonempty hsizes
          | error fault => exact .refused _
          | crash => exact .crash
        · split
          · next htype =>
            split
            · exact .last htype
            · exact .part htype
          · exact .refused _

/-- All that comes out begins with a start code. -/
theorem startCode_of_reads (h : Reads g payload (g', .ok out)) (hsome : out ≠ []) :
    startCode <+: out := by
  cases h with
  | unit | last => exact List.prefix_append ..
  | part => exact absurd rfl hsome
  | @group _ units _ hnonempty =>
    obtain ⟨u, units, rfl⟩ := List.exists_cons_of_ne_nil hnonempty
    rw [byteStream, List.flatMap_cons, List.append_assoc]
    exact List.prefix_append ..

/-! ## Payloads that begin with a sequence parameter set -/

/-- A payload that begins with a sequence parameter set and is not cut short. -/
inductive Whole : Bytes → Prop where
  | single {header : UInt8} {body : Bytes} (htype : nalType header = spsType)
      (hlong : 2 ≤ body.length) : Whole (header :: body)
  | aggregated {outer header : UInt8} {body : Bytes} {group : List Bytes}
      (houterType : nalType outer = aggregateType) (htype : nalType header = spsType)
      (hsizes : ∀ u ∈ (header :: body) :: group, u.length < 65536) :
      Whole (aggregate outer ((header :: body) :: group))

theorem type_of_isKeyframe {header : UInt8} {body : Bytes}
    (h : isKeyframe (header :: body) = true) :
    nalType header = spsType ∨ nalType header = aggregateType := by
  unfold isKeyframe at h
  split at h
  · cases h
  · next hsame =>
    cases hsame
    split at h
    · exact .inl ‹_›
    · split at h
      · exact .inr ‹_›
      · cases h

/-- Such a payload leaves the fragments alone, and what it gives is not nothing. -/
theorem keeps_of_isKeyframe (hopens : isKeyframe payload = true)
    (h : Reads g payload (g', out')) : g' = g ∧ out' ≠ .ok [] := by
  cases h with
  | unit | refused | crash => exact ⟨rfl, nofun⟩
  | @group _ units _ hnonempty =>
    obtain ⟨u, units, rfl⟩ := List.exists_cons_of_ne_nil hnonempty
    exact ⟨rfl, nofun⟩
  | part htype | last htype =>
    rcases type_of_isKeyframe hopens with hother | hother <;>
      exact absurd (htype.symm.trans hother) (by decide)

theorem whole_of_reads (hopens : isKeyframe payload = true) (h : Reads g payload (g', .ok out))
    (hleads : LeadsWithSps out) : Whole payload := by
  cases h with
  | @unit header body htype hlong =>
    have hsps : nalType header = spsType := (type_of_isKeyframe hopens).resolve_right fun hother =>
      absurd htype (by rw [hother]; decide)
    exact .single hsps
      (hlong.resolve_right fun hother => absurd (hsps.symm.trans hother) (by decide))
  | @group outer units houterType hnonempty hsizes =>
    obtain ⟨u, units, rfl⟩ := List.exists_cons_of_ne_nil hnonempty
    rw [byteStream, List.flatMap_cons, List.append_assoc, leadsWithSps_iff] at hleads
    obtain ⟨header, hfirst, htype⟩ := hleads
    cases u with
    | cons _ body =>
      cases hfirst
      exact .aggregated houterType htype hsizes
    | nil =>
      -- Behind an empty unit stands the start code of the next, if there is one.
      cases units with
      | nil => cases hfirst
      | cons v units =>
        cases hfirst
        exact absurd htype (by decide)
  | part htype | last htype =>
    rcases type_of_isKeyframe hopens with hother | hother <;>
      exact absurd (htype.symm.trans hother) (by decide)

theorem Whole.reads (hwhole : Whole payload) (g : Bytes) :
    ∃ out, depacketize g payload = (g, .ok out) ∧ LeadsWithSps out := by
  cases hwhole with
  | @single header body htype hlong =>
    match body with
    | second :: third :: body =>
      refine ⟨startCode ++ header :: second :: third :: body, ?_, header, _, rfl, htype⟩
      simp [depacketize, htype, spsType]
  | aggregated houterType htype hsizes =>
    exact ⟨_, depacketize_aggregate houterType (List.cons_ne_nil _ _) hsizes g, _, _, rfl, htype⟩

/-- It gives a stream that leads with the sequence parameter set exactly if it is whole. -/
theorem whole_iff (hopens : isKeyframe payload = true) (g : Bytes) :
    Whole payload ↔ ∃ out, depacketize g payload = (g, .ok out) ∧ LeadsWithSps out := by
  constructor
  · exact fun hwhole => hwhole.reads g
  · rintro ⟨out, hread, hleads⟩
    exact whole_of_reads hopens (hread ▸ H264.reads g payload) hleads

end Headend.Codec.H264
