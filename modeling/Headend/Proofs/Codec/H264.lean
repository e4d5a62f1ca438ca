import Headend.Codec.H264
import Headend.Proofs.Ebml.Vint

/-!
# Packetizing NAL units

A NAL unit travels alone in a payload, with neighbours in an aggregate, or in fragments over several
payloads. `Packetized` says that payloads carry given units in one of these ways each, and `Yields`
what comes of reading payloads one after another. Whichever way the units are packed, reading gives
them back in order, each behind a start code, and leaves no fragments behind.
-/

namespace Headend.Codec.H264

/-- Enough to look at every value of a byte. -/
theorem forall_byte {P : UInt8 → Prop} (h : ∀ n < 256, P (UInt8.ofNat n)) (b : UInt8) : P b := by
  simpa using h b.toNat b.toNat_lt

/-- A unit with the forbidden bit clear and of a type that may travel alone. -/
structure NalUnit (u : Bytes) : Prop where
  long : 3 ≤ u.length
  forbidden : ∀ header ∈ u.head?, header &&& 0x80 = 0
  type : ∀ header ∈ u.head?, 1 ≤ nalType header ∧ nalType header ≤ 23

theorem NalUnit.cons {header : UInt8} {body : Bytes} (hlong : 2 ≤ body.length)
    (hforbidden : header &&& 0x80 = 0) (htype : 1 ≤ nalType header ∧ nalType header ≤ 23) :
    NalUnit (header :: body) where
  long := Nat.succ_le_succ hlong
  forbidden := by
    rintro _ ⟨⟩
    exact hforbidden
  type := by
    rintro _ ⟨⟩
    exact htype

/-! ## Payloads -/

/-- A unit behind its size in two bytes. -/
def sized (u : Bytes) : Bytes := toBigEndian 2 u.length ++ u

/-- Several units in one payload. -/
def aggregate (header : UInt8) (units : List Bytes) : Bytes := header :: units.flatMap sized

/-- One fragment of a unit. The first and the last one are marked. -/
def fragment (header : UInt8) (first last : Bool) (part : Bytes) : Bytes :=
  (header &&& 0x60 ||| fragmentType)
    :: ((if first then 0x80 else 0) ||| (if last then 0x40 else 0) ||| nalType header)
    :: part

/-- A unit cut up behind its header. -/
def fragments (header : UInt8) (first : Bool) : List Bytes → List Bytes
  | [] => []
  | [part] => [fragment header first true part]
  | part :: parts => fragment header first false part :: fragments header false parts

/-- The payloads carry the units, in order. -/
inductive Packetized : (units payloads : List Bytes) → Prop where
  | nil : Packetized [] []
  | single {u : Bytes} {units payloads : List Bytes} (h : NalUnit u)
      (hrest : Packetized units payloads) : Packetized (u :: units) (u :: payloads)
  | aggregated {header : UInt8} {group units payloads : List Bytes}
      (htype : nalType header = aggregateType) (hnonempty : group ≠ [])
      (h : ∀ u ∈ group, NalUnit u ∧ u.length < 65536) (hrest : Packetized units payloads) :
      Packetized (group ++ units) (aggregate header group :: payloads)
  | fragmented {header : UInt8} {parts units payloads : List Bytes}
      (h : NalUnit (header :: parts.flatten)) (htwo : 2 ≤ parts.length)
      (hnonempty : ∀ part ∈ parts, part ≠ []) (hrest : Packetized units payloads) :
      Packetized ((header :: parts.flatten) :: units) (fragments header true parts ++ payloads)

/-- A payload that begins with a sequence parameter set, alone or the first of an aggregate. -/
inductive Opening : Bytes → Prop where
  | single {header : UInt8} {body : Bytes} (htype : nalType header = spsType) :
      Opening (header :: body)
  | aggregated {outer header : UInt8} {body : Bytes} {group : List Bytes}
      (houterType : nalType outer = aggregateType) (htype : nalType header = spsType) :
      Opening (aggregate outer ((header :: body) :: group))

theorem isKeyframe_of_opening {payload : Bytes} (h : Opening payload) :
    isKeyframe payload = true := by
  cases h with
  | single htype => simp [isKeyframe, htype]
  | aggregated houterType htype =>
    have hne : aggregateType ≠ spsType := by decide
    simp [isKeyframe, aggregate, sized, toBigEndian, houterType, hne, htype]

/-! ## Reading payloads -/

/-- The units as a byte stream. -/
def byteStream (units : List Bytes) : Bytes := units.flatMap (startCode ++ ·)

theorem byteStream_append (units units' : List Bytes) :
    byteStream (units ++ units') = byteStream units ++ byteStream units' :=
  List.flatMap_append

/-- Payloads read one after another give a byte stream; the fragments gathered are handed on. -/
inductive Yields : (gathered : Bytes) → (payloads : List Bytes) → (gathered' stream : Bytes) →
    Prop where
  | nil (gathered : Bytes) : Yields gathered [] gathered []
  | cons {g g' g'' payload out stream : Bytes} {payloads : List Bytes}
      (h : depacketize g payload = (g', .ok out)) (hrest : Yields g' payloads g'' stream) :
      Yields g (payload :: payloads) g'' (out ++ stream)

theorem Yields.append {g g' g'' stream stream' : Bytes} {payloads payloads' : List Bytes}
    (h : Yields g payloads g' stream) (h' : Yields g' payloads' g'' stream') :
    Yields g (payloads ++ payloads') g'' (stream ++ stream') := by
  induction h with
  | nil g => exact h'
  | cons hp _ ih =>
    rw [List.append_assoc]
    exact .cons hp (ih h')

theorem depacketize_unit {u : Bytes} (h : NalUnit u) (gathered : Bytes) :
    depacketize gathered u = (gathered, .ok (startCode ++ u)) := by
  obtain ⟨hlong, -, htype⟩ := h
  match u with
  | [] => simp at hlong
  | [_] => simp at hlong
  | b₀ :: b₁ :: rest =>
    obtain ⟨hlow, hhigh⟩ := htype b₀ rfl
    have hrest : rest ≠ [] := by
      rintro rfl
      simp at hlong
    simp [depacketize, hrest, hlow, hhigh]

/-- The bytes of a unit's size make it up again. -/
theorem exists_sized_eq {u : Bytes} (h : u.length < 65536) :
    ∃ hi lo : UInt8, sized u = hi :: lo :: u ∧ 256 * hi.toNat + lo.toNat = u.length := by
  refine ⟨UInt8.ofNat (u.length / 256), UInt8.ofNat u.length, rfl, ?_⟩
  rw [UInt8.toNat_ofNat', UInt8.toNat_ofNat']
  omega

/-- Each size field tells where its unit ends. -/
theorem splitAggregate_sized {group : List Bytes} (h : ∀ u ∈ group, u.length < 65536) {fuel : Nat}
    (hfuel : group.length ≤ fuel) (out : Bytes) :
    splitAggregate fuel (group.flatMap sized) out = .ok (out ++ byteStream group) := by
  induction group generalizing fuel out with
  | nil => cases fuel <;> simp [splitAggregate, byteStream]
  | cons u group ih =>
    cases fuel with
    | zero => simp at hfuel
    | succ fuel =>
      obtain ⟨hi, lo, hsized, hlen⟩ := exists_sized_eq (h u List.mem_cons_self)
      have hgroup := ih (fun v hv => h v (List.mem_cons_of_mem _ hv))
        (Nat.le_of_succ_le_succ hfuel) (out ++ startCode ++ u)
      rw [List.flatMap_cons, hsized, List.cons_append, List.cons_append, splitAggregate, hlen,
        List.length_append, if_neg (by omega), List.drop_left, List.take_left]
      refine hgroup.trans ?_
      simp [byteStream]

/-- Every unit of an aggregate takes up some bytes. -/
theorem length_le_sized (group : List Bytes) : group.length ≤ (group.flatMap sized).length := by
  induction group with
  | nil => exact Nat.le_refl _
  | cons u group ih =>
    simp only [List.flatMap_cons, List.length_append, List.length_cons, sized, length_toBigEndian]
    omega

theorem depacketize_aggregate {header : UInt8} {group : List Bytes}
    (htype : nalType header = aggregateType) (hnonempty : group ≠ [])
    (h : ∀ u ∈ group, u.length < 65536) (gathered : Bytes) :
    depacketize gathered (aggregate header group) = (gathered, .ok (byteStream group)) := by
  have hsplit := splitAggregate_sized h (Nat.le_succ_of_le (length_le_sized group)) []
  obtain ⟨u, group, rfl⟩ := List.exists_cons_of_ne_nil hnonempty
  -- Behind the header comes the size of the first unit, which is two bytes long.
  obtain ⟨hi, rest, hbytes, hrest⟩ : ∃ hi rest,
      (u :: group).flatMap sized = hi :: rest ∧ rest ≠ [] :=
    ⟨UInt8.ofNat (u.length / 256), UInt8.ofNat u.length :: (u ++ group.flatMap sized),
      by simp [sized, toBigEndian], List.cons_ne_nil _ _⟩
  rw [hbytes] at hsplit
  have hlong : ¬ (1 ≤ aggregateType ∧ aggregateType ≤ 23) := by decide
  rw [aggregate, hbytes]
  simp only [List.length_cons] at hsplit
  simp [depacketize, htype, hrest, hlong, hsplit]

/-- What a fragment adds, and what comes out at the last one. -/
theorem depacketize_fragment {header : UInt8} (h : header &&& 0x80 = 0) (first last : Bool)
    {part : Bytes} (hpart : part ≠ []) (gathered : Bytes) :
    depacketize gathered (fragment header first last part) =
      if last then ([], .ok (startCode ++ header :: (gathered ++ part)))
      else (gathered ++ part, .ok []) := by
  have htype : nalType (header &&& 0x60 ||| fragmentType) = fragmentType :=
    forall_byte (P := fun b => nalType (b &&& 0x60 ||| fragmentType) = fragmentType)
      (by decide +kernel) header
  -- The second byte tells the last fragment, and the two together give the header back.
  have hlast : ((if first then 0x80 else 0) ||| (if last then 0x40 else 0) ||| nalType header)
      &&& 0x40 = if last then 0x40 else 0 :=
    forall_byte (P := fun b => ∀ first last : Bool,
      ((if first then 0x80 else 0) ||| (if last then 0x40 else 0) ||| nalType b) &&& 0x40 =
        if last then 0x40 else 0) (by decide +kernel) header first last
  have hheader : (header &&& 0x60 ||| fragmentType) &&& 0x60 |||
      nalType ((if first then 0x80 else 0) ||| (if last then 0x40 else 0) ||| nalType header) =
        header :=
    forall_byte (P := fun b => b &&& 0x80 = 0 → ∀ first last : Bool,
      (b &&& 0x60 ||| fragmentType) &&& 0x60 |||
        nalType ((if first then 0x80 else 0) ||| (if last then 0x40 else 0) ||| nalType b) = b)
      (by decide +kernel) header h first last
  have hsingle : ¬ (1 ≤ fragmentType ∧ fragmentType ≤ 23) := by decide
  have hne : fragmentType ≠ aggregateType := by decide
  simp only [depacketize, fragment, htype, hlast, hheader]
  cases last <;> simp [hpart, hsingle, hne]

/-- The fragments still to come complete the unit. -/
theorem yields_fragments {header : UInt8} (h : header &&& 0x80 = 0) {parts : List Bytes}
    (hparts : parts ≠ []) (hnonempty : ∀ part ∈ parts, part ≠ []) (first : Bool)
    (gathered : Bytes) :
    Yields gathered (fragments header first parts) []
      (startCode ++ header :: (gathered ++ parts.flatten)) := by
  induction parts generalizing first gathered with
  | nil => exact absurd rfl hparts
  | cons part parts ih =>
    have hpart := depacketize_fragment h first parts.isEmpty (hnonempty part List.mem_cons_self)
      gathered
    cases parts with
    | nil => simpa [fragments] using Yields.cons hpart (.nil [])
    | cons next parts =>
      have hrest := ih (List.cons_ne_nil next parts)
        (fun p hp => hnonempty p (List.mem_cons_of_mem part hp)) false (gathered ++ part)
      simpa [fragments] using Yields.cons hpart hrest

/-- Reading gives the units back, and nothing is left over. -/
theorem Packetized.yields {units payloads : List Bytes} (h : Packetized units payloads) :
    Yields [] payloads [] (byteStream units) := by
  induction h with
  | nil => exact .nil []
  | single h _ ih => exact .cons (depacketize_unit h []) ih
  | aggregated htype hnonempty h _ ih =>
    rw [byteStream_append]
    exact .cons (depacketize_aggregate htype hnonempty (fun u hu => (h u hu).2) []) ih
  | @fragmented header parts units payloads h htwo hnonempty _ ih =>
    have hparts : parts ≠ [] := by
      rintro rfl
      simp at htwo
    exact (yields_fragments (h.forbidden header rfl) hparts hnonempty true []).append ih

/-! ## Aggregates cut short -/

/-- An aggregate with one byte behind it that is no size. -/
def OddAggregate (payload : Bytes) : Prop :=
  ∃ header units odd, nalType header = aggregateType ∧ units ≠ [] ∧
    (∀ u ∈ units, u.length < 65536) ∧ payload = aggregate header units ++ [odd]

theorem OddAggregate.ne_nil {payload : Bytes} (h : OddAggregate payload) : payload ≠ [] := by
  obtain ⟨header, units, odd, -, -, -, rfl⟩ := h
  exact List.append_ne_nil_of_right_ne_nil _ (List.cons_ne_nil odd [])

theorem sized_eq {hi lo : UInt8} {u : Bytes} (h : u.length = 256 * hi.toNat + lo.toNat) :
    sized u = hi :: lo :: u := by
  have hdigits := toBigEndian_bigEndian [hi, lo]
  have hsize : bigEndian [hi, lo] = u.length := by simp [bigEndian, h]
  rw [hsize, List.length_cons, List.length_singleton] at hdigits
  rw [sized, hdigits]
  rfl

/-- Splitting crashes where a single byte is left behind whole units. -/
theorem splitAggregate_eq_crash_iff {fuel : Nat} {bs : Bytes} (hfuel : bs.length ≤ fuel)
    (out : Bytes) : splitAggregate fuel bs out = .crash ↔
      ∃ (units : List Bytes) (odd : UInt8), (∀ u ∈ units, u.length < 65536) ∧
        bs = units.flatMap sized ++ [odd] := by
  induction fuel generalizing bs out with
  | zero =>
    obtain rfl : bs = [] := List.eq_nil_of_length_eq_zero (Nat.le_zero.1 hfuel)
    simp [splitAggregate]
  | succ fuel ih =>
    match bs with
    | [] => simp [splitAggregate]
    | [odd] => exact ⟨fun _ => ⟨[], odd, List.forall_mem_nil _, rfl⟩, fun _ => rfl⟩
    | hi :: lo :: rest =>
      -- Two bytes or more begin with a unit, whole or not.
      have hfirst : ∀ (units : List Bytes) (odd : UInt8), (∀ u ∈ units, u.length < 65536) →
          hi :: lo :: rest = units.flatMap sized ++ [odd] →
          ∃ u units', units = u :: units' ∧ u.length = 256 * hi.toNat + lo.toNat ∧
            rest = u ++ (units'.flatMap sized ++ [odd]) := by
        intro units odd hunits hbs
        cases units with
        | nil => simp at hbs
        | cons u units' =>
          obtain ⟨hi', lo', hsized, hsize⟩ := exists_sized_eq (hunits u List.mem_cons_self)
          rw [List.flatMap_cons, hsized] at hbs
          obtain ⟨rfl, rfl, hrest⟩ : hi = hi' ∧ lo = lo' ∧
              rest = u ++ (units'.flatMap sized ++ [odd]) := by simpa using hbs
          exact ⟨u, units', rfl, hsize.symm, hrest⟩
      rw [List.length_cons, List.length_cons] at hfuel
      rw [splitAggregate]
      by_cases hshort : rest.length < 256 * hi.toNat + lo.toNat
      · rw [if_pos hshort]
        constructor
        · intro h
          cases h
        · rintro ⟨units, odd, hunits, hbs⟩
          obtain ⟨u, units', -, hsize, hrest⟩ := hfirst units odd hunits hbs
          rw [hrest, List.length_append, hsize] at hshort
          omega
      · rw [if_neg hshort, ih (by rw [List.length_drop]; omega)]
        have hlen : (rest.take (256 * hi.toNat + lo.toNat)).length = 256 * hi.toNat + lo.toNat :=
          List.length_take_of_le (Nat.le_of_not_lt hshort)
        constructor
        · rintro ⟨units, odd, hunits, hrest⟩
          refine ⟨rest.take (256 * hi.toNat + lo.toNat) :: units, odd, ?_, ?_⟩
          · refine List.forall_mem_cons.2 ⟨?_, hunits⟩
            have := hi.toNat_lt
            have := lo.toNat_lt
            omega
          · rw [List.flatMap_cons, sized_eq hlen, List.append_assoc, ← hrest]
            simp
        · rintro ⟨units, odd, hunits, hbs⟩
          obtain ⟨u, units', rfl, hsize, rfl⟩ := hfirst units odd hunits hbs
          exact ⟨units', odd, fun v hv => hunits v (List.mem_cons_of_mem _ hv),
            by rw [← hsize, List.drop_left]⟩

/-- Behind the header of such an aggregate come two bytes or more. -/
theorem OddAggregate.type {b₀ b₁ : UInt8} {rest : Bytes} (h : OddAggregate (b₀ :: b₁ :: rest)) :
    nalType b₀ = aggregateType ∧ rest ≠ [] ∧ ∃ (units : List Bytes) (odd : UInt8),
      (∀ u ∈ units, u.length < 65536) ∧ b₁ :: rest = units.flatMap sized ++ [odd] := by
  obtain ⟨header, units, odd, htype, hne, hunits, hbytes⟩ := h
  obtain ⟨rfl, hrest⟩ : b₀ = header ∧ b₁ :: rest = units.flatMap sized ++ [odd] := by
    simpa [aggregate] using hbytes
  refine ⟨htype, ?_, units, odd, hunits, hrest⟩
  rintro rfl
  obtain ⟨u, units, rfl⟩ := List.exists_cons_of_ne_nil hne
  have hlen := congrArg List.length hrest
  simp only [List.flatMap_cons, sized, List.length_append, length_toBigEndian, List.length_cons,
    List.length_nil] at hlen
  omega

/-- Reading a payload crashes on such an aggregate, and on nothing else. -/
theorem depacketize_eq_crash_iff {gathered payload : Bytes} :
    (depacketize gathered payload).2 = .crash ↔ OddAggregate payload := by
  match payload with
  | [] => simp [depacketize, OddAggregate, aggregate]
  | [_] => simp [depacketize, OddAggregate, aggregate]
  | b₀ :: b₁ :: rest =>
    by_cases htype : nalType b₀ = aggregateType
    · have hsingle : ¬ (1 ≤ aggregateType ∧ aggregateType ≤ 23) := by decide
      have hdelimiter : aggregateType ≠ delimiterType := by decide
      by_cases hrest : rest = []
      · constructor
        · intro h
          simp [depacketize, htype, hrest, hdelimiter] at h
        · intro h
          exact absurd hrest h.type.2.1
      · have hsplit : (depacketize gathered (b₀ :: b₁ :: rest)).2 =
            splitAggregate (b₀ :: b₁ :: rest).length (b₁ :: rest) [] := by
          simp [depacketize, htype, hrest, hsingle]
        have hfuel : (b₁ :: rest).length ≤ (b₀ :: b₁ :: rest).length := Nat.le_succ _
        rw [hsplit, splitAggregate_eq_crash_iff hfuel]
        constructor
        · rintro ⟨units, odd, hunits, hbytes⟩
          refine ⟨b₀, units, odd, htype, ?_, hunits, by rw [hbytes]; rfl⟩
          rintro rfl
          simp [hrest] at hbytes
        · intro h
          exact h.type.2.2
    · constructor
      · intro h
        unfold depacketize at h
        dsimp only at h
        split at h
        · cases h
        · split at h
          · cases h
          · split at h
            · split at h <;> cases h
            · cases h
      · intro h
        exact absurd h.type.1 htype

end Headend.Codec.H264
