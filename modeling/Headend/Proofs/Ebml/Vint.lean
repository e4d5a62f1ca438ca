import Headend.Ebml.Vint
import Mathlib.Data.List.Induction
import Mathlib.Order.Bounds.Defs
import Mathlib.Tactic.Linarith

/-!
# Reading variable-size integers back

Both directions go through `marked`, the digits of a number behind the marker bit: the reader takes
`marked` patterns and nothing else (`decode_marked_append`, `exists_marked_of_decode`), and below
`sizeLimit`, where eight bytes run out, the writer makes one of the least length that is not all
ones.

`decode_encode_append` is the round trip: what `encode` writes is read back as a known size, and
nothing of what follows is touched. `encode_self_delimiting` adds that this fails from the limit on,
and that no encoding begins with another.
-/

namespace Headend

/-! ## Big-endian digits -/

/-- The most significant digit comes first. -/
theorem toBigEndian_succ (width n : Nat) :
    toBigEndian (width + 1) n = UInt8.ofNat (n / 256 ^ width) :: toBigEndian width n := by
  induction width generalizing n with
  | zero => simp [toBigEndian]
  | succ width ih =>
    have hdiv : n / 256 / 256 ^ width = n / 256 ^ (width + 1) := by
      rw [Nat.div_div_eq_div_mul, Nat.pow_succ']
    rw [toBigEndian, ih (n / 256), hdiv]
    rfl

/-- Digits beyond the width are lost. -/
theorem bigEndian_toBigEndian (width n : Nat) :
    bigEndian (toBigEndian width n) = n % 256 ^ width := by
  induction width generalizing n with
  | zero => simp [toBigEndian, bigEndian, Nat.mod_one]
  | succ width ih =>
    rw [toBigEndian, bigEndian_append_singleton, ih, Nat.pow_succ', UInt8.toNat_ofNat',
      Nat.mod_mul]
    omega

theorem bigEndian_toBigEndian_of_lt {width n : Nat} (h : n < 256 ^ width) :
    bigEndian (toBigEndian width n) = n := by
  rw [bigEndian_toBigEndian, Nat.mod_eq_of_lt h]

/-- Digits are those of the number they make up. -/
theorem toBigEndian_bigEndian (bs : Bytes) : toBigEndian bs.length (bigEndian bs) = bs := by
  induction bs using List.reverseRecOn with
  | nil => rfl
  | append_singleton bs b ih =>
    have hdiv : (256 * bigEndian bs + b.toNat) / 256 = bigEndian bs := by
      have := b.toNat_lt
      omega
    have hbyte : UInt8.ofNat (256 * bigEndian bs + b.toNat) = b := by
      apply UInt8.toNat_inj.1
      rw [UInt8.toNat_ofNat']
      have := b.toNat_lt
      omega
    rw [List.length_append, List.length_singleton, bigEndian_append_singleton, toBigEndian, hdiv,
      ih, hbyte]

theorem bigEndian_lt (bs : Bytes) : bigEndian bs < 256 ^ bs.length := by
  rw [← toBigEndian_bigEndian bs, bigEndian_toBigEndian, length_toBigEndian]
  exact Nat.mod_lt _ (Nat.pow_pos (by decide))

theorem bigEndian_cons (b : UInt8) (bs : Bytes) :
    bigEndian (b :: bs) = b.toNat * 256 ^ bs.length + bigEndian bs := by
  induction bs using List.reverseRecOn with
  | nil => simp [bigEndian]
  | append_singleton bs c ih =>
    rw [← List.cons_append, bigEndian_append_singleton, bigEndian_append_singleton, ih,
      List.length_append, List.length_singleton, Nat.pow_succ]
    linarith

namespace Ebml.Vint

/-- The first number that is too large for eight bytes. -/
def sizeLimit : Nat := 2 ^ 56 - 1

/-- What lengths and widths are chosen from. -/
theorem candidates_eq : (List.range 8).map (· + 1) = List.range' 1 8 := rfl

/-! ## Lengths -/

/-- The first length to do, or eight if none does. -/
theorem length_spec (n : Nat) :
    (1 ≤ length n ∧ length n ≤ 8) ∧ (n < 2 ^ (7 * length n) - 1 ∨ length n = 8) ∧
      ∀ k, 1 ≤ k → k < length n → 2 ^ (7 * k) - 1 ≤ n := by
  unfold length
  rw [candidates_eq]
  cases h : (List.range' 1 8).find? (fun k => n < 1 <<< (7 * k) - 1) with
  | none =>
    have hnone := List.find?_range'_eq_none.1 h
    simp only [Option.getD_none]
    refine ⟨by omega, .inr trivial, fun k hk hlt => ?_⟩
    have hskip := hnone k hk (by omega)
    simpa [Nat.one_shiftLeft] using hskip
  | some j =>
    obtain ⟨hfits, hmem, hfirst⟩ := List.find?_range'_eq_some.1 h
    rw [List.mem_range'_1] at hmem
    simp only [Option.getD_some]
    refine ⟨by omega, .inl (by simpa [Nat.one_shiftLeft] using hfits), fun k hk hlt => ?_⟩
    have hskip := hfirst k hk hlt
    simpa [Nat.one_shiftLeft] using hskip

theorem length_bounds (n : Nat) : 1 ≤ length n ∧ length n ≤ 8 := (length_spec n).1

/-- The all-ones pattern of the chosen length stays above the number. -/
theorem lt_of_length {n : Nat} (h : n < sizeLimit) : n < 2 ^ (7 * length n) - 1 := by
  obtain ⟨-, hfits | height, -⟩ := length_spec n
  · exact hfits
  · rw [height]
    exact h

/-- No shorter pattern does. -/
theorem isLeast_length {n : Nat} (h : n < sizeLimit) :
    IsLeast {k | n < 2 ^ (7 * k) - 1} (length n) := by
  refine ⟨lt_of_length h, fun k hk => ?_⟩
  have hk : n < 2 ^ (7 * k) - 1 := hk
  -- The pattern of no bytes is zero, and nothing is below it.
  have hpos : k ≠ 0 := by
    rintro rfl
    simp at hk
  by_contra hlt
  have hskip := (length_spec n).2.2 k (by omega) (by omega)
  omega

/-! ## Widths -/

/-- The position of the first set bit tells the width. -/
theorem width_eq_some {b : UInt8} {k : Nat} (hk : 1 ≤ k ∧ k ≤ 8)
    (hlow : 2 ^ (8 - k) ≤ b.toNat) (hhigh : b.toNat < 2 ^ (9 - k)) : width b = some k := by
  unfold width
  rw [candidates_eq, List.find?_range'_eq_some]
  refine ⟨?_, List.mem_range'_1.2 (by omega), fun j _ hj => ?_⟩
  · have hdouble : 2 ^ (9 - k) = 2 * 2 ^ (8 - k) := by
      rw [← Nat.pow_succ']
      congr 1
      omega
    have hset : b.toNat / 2 ^ (8 - k) = 1 :=
      Nat.div_eq_of_lt_le (by simpa using hlow) (by omega)
    simp [Nat.shiftRight_eq_div_pow, hset]
  · have hbefore : b.toNat < 2 ^ (8 - j) :=
      Nat.lt_of_lt_of_le hhigh (Nat.pow_le_pow_right (by decide) (by omega))
    simp [Nat.shiftRight_eq_div_pow, Nat.div_eq_of_lt hbefore]

/-- The first set bit is the one at the position of the width. -/
theorem bounds_of_width {b : UInt8} {k : Nat} (h : width b = some k) :
    (1 ≤ k ∧ k ≤ 8) ∧ 2 ^ (8 - k) ≤ b.toNat ∧ b.toNat < 2 ^ (9 - k) := by
  have hb : b.toNat ≠ 0 := by
    intro hzero
    obtain rfl : b = 0 := UInt8.toNat_inj.1 hzero
    have hnone : width 0 = none := by decide
    simp [hnone] at h
  -- The width that the logarithm gives is a width of the byte, and there is only one.
  have hlog : b.toNat.log2 < 8 := (Nat.log2_lt hb).2 b.toNat_lt
  have hlow : 2 ^ (8 - (8 - b.toNat.log2)) ≤ b.toNat := by
    rw [show 8 - (8 - b.toNat.log2) = b.toNat.log2 by omega]
    exact Nat.log2_self_le hb
  have hhigh : b.toNat < 2 ^ (9 - (8 - b.toNat.log2)) := by
    rw [show 9 - (8 - b.toNat.log2) = b.toNat.log2 + 1 by omega]
    exact Nat.lt_log2_self
  have hwidth := width_eq_some ⟨by omega, by omega⟩ hlow hhigh
  obtain rfl : 8 - b.toNat.log2 = k := Option.some.inj (hwidth.symm.trans h)
  exact ⟨⟨by omega, by omega⟩, hlow, hhigh⟩

/-! ## Marked numbers -/

/-- The digits of a number behind the marker bit that tells their count. -/
def marked (k n : Nat) : Bytes := toBigEndian k (2 ^ (7 * k) + n)

/-- What a marked number of `k` bytes means. -/
def Size.ofMarked (k n : Nat) : Size := if n = 2 ^ (7 * k) - 1 then .unknown else .known n

/-- All ones behind the marker. -/
def unknown (k : Nat) : Bytes := marked k (2 ^ (7 * k) - 1)

theorem length_marked (k n : Nat) : (marked k n).length = k := length_toBigEndian ..

/-- Of the bits up to the marker, `8 * k` are in the bytes after the first one. -/
theorem marker_eq {k : Nat} (hk : k + 1 ≤ 8) :
    2 ^ (7 * (k + 1)) = 2 ^ (8 - (k + 1)) * 256 ^ k := by
  rw [show (256 : Nat) = 2 ^ 8 from rfl, ← Nat.pow_mul, ← Nat.pow_add]
  congr 1
  omega

/-- Marker and digits fit into the bytes. -/
theorem marker_add_lt {k n : Nat} (hk : 1 ≤ k) (h : n < 2 ^ (7 * k)) :
    2 ^ (7 * k) + n < 256 ^ k := by
  have h256 : 256 ^ k = 2 ^ k * 2 ^ (7 * k) := by
    rw [show (256 : Nat) = 2 ^ 8 from rfl, ← Nat.pow_mul, ← Nat.pow_add]
    congr 1
    omega
  have htwo : 2 * 2 ^ (7 * k) ≤ 2 ^ k * 2 ^ (7 * k) :=
    Nat.mul_le_mul_right _ (Nat.le_self_pow (by omega) 2)
  omega

/-- A marked number of `k` bytes: its first byte has the marker at the position that says `k`. -/
theorem width_head_marked {n k : Nat} (hk : k + 1 ≤ 8) (h : n < 2 ^ (7 * (k + 1))) :
    width (UInt8.ofNat ((2 ^ (7 * (k + 1)) + n) / 256 ^ k)) = some (k + 1) := by
  have hpow := marker_eq hk
  have hpos : 0 < 256 ^ k := Nat.pow_pos (by decide)
  have hlow : 2 ^ (8 - (k + 1)) ≤ (2 ^ (7 * (k + 1)) + n) / 256 ^ k := by
    rw [Nat.le_div_iff_mul_le hpos, ← hpow]
    omega
  have hhigh : (2 ^ (7 * (k + 1)) + n) / 256 ^ k < 2 ^ (9 - (k + 1)) := by
    rw [Nat.div_lt_iff_lt_mul hpos, show 9 - (k + 1) = 8 - (k + 1) + 1 by omega, Nat.pow_succ]
    nlinarith
  have hbyte : 2 ^ (9 - (k + 1)) ≤ 2 ^ 8 := Nat.pow_le_pow_right (by decide) (by omega)
  have htoNat : (UInt8.ofNat ((2 ^ (7 * (k + 1)) + n) / 256 ^ k)).toNat
      = (2 ^ (7 * (k + 1)) + n) / 256 ^ k := by
    rw [UInt8.toNat_ofNat', Nat.mod_eq_of_lt (by omega)]
  exact width_eq_some ⟨by omega, hk⟩ (by rwa [htoNat]) (by rwa [htoNat])

/-- If the first byte tells the count of them all, the bytes are a marked number. -/
theorem exists_eq_marked {b : UInt8} {bs : Bytes} (h : width b = some (bs.length + 1)) :
    ∃ n < 2 ^ (7 * (bs.length + 1)), b :: bs = marked (bs.length + 1) n := by
  obtain ⟨⟨-, h8⟩, hlow, hhigh⟩ := bounds_of_width h
  have hvalue := bigEndian_cons b bs
  have hdigits := bigEndian_lt bs
  have hmarker := marker_eq h8
  rw [show 9 - (bs.length + 1) = 8 - (bs.length + 1) + 1 by omega, Nat.pow_succ] at hhigh
  -- The first byte alone puts the value between the marker and twice the marker.
  have hfrom : 2 ^ (7 * (bs.length + 1)) ≤ bigEndian (b :: bs) := by
    have := Nat.mul_le_mul_right (256 ^ bs.length) hlow
    omega
  have hto : bigEndian (b :: bs) < 2 ^ (7 * (bs.length + 1)) + 2 ^ (7 * (bs.length + 1)) := by
    nlinarith
  refine ⟨bigEndian (b :: bs) - 2 ^ (7 * (bs.length + 1)), by omega, ?_⟩
  rw [marked, Nat.add_sub_cancel' hfrom]
  exact (toBigEndian_bigEndian (b :: bs)).symm

/-! ## What the reader takes -/

theorem decode_marked_append {k n : Nat} (hk : 1 ≤ k ∧ k ≤ 8) (h : n < 2 ^ (7 * k))
    (rest : Bytes) : decode (marked k n ++ rest) = some (Size.ofMarked k n, rest) := by
  obtain ⟨j, rfl⟩ : ∃ j, k = j + 1 := ⟨k - 1, by omega⟩
  have hwidth := width_head_marked hk.2 h
  have htake : (marked (j + 1) n ++ rest).take (j + 1) = marked (j + 1) n :=
    List.take_left' (length_marked ..)
  have hdrop : (marked (j + 1) n ++ rest).drop (j + 1) = rest :=
    List.drop_left' (length_marked ..)
  have hlong : ¬ (marked (j + 1) n ++ rest).length < j + 1 := by
    rw [List.length_append, length_marked]
    omega
  have hread : bigEndian (marked (j + 1) n) - 2 ^ (7 * (j + 1)) = n := by
    rw [marked, bigEndian_toBigEndian_of_lt (marker_add_lt hk.1 h)]
    omega
  have hhead : marked (j + 1) n = UInt8.ofNat ((2 ^ (7 * (j + 1)) + n) / 256 ^ j)
      :: toBigEndian j (2 ^ (7 * (j + 1)) + n) := toBigEndian_succ ..
  unfold decode
  simp only [Nat.one_shiftLeft]
  rw [hhead] at htake hdrop hlong hread ⊢
  simp only [List.cons_append] at htake hdrop hlong ⊢
  simp only [hwidth, Option.bind_eq_bind, Option.bind_some, if_neg hlong, htake, hdrop, hread]
  rfl

/-- Whatever is read is a marked number, and what is left is what stands behind it. -/
theorem exists_marked_of_decode {bs rest : Bytes} {size : Size}
    (h : decode bs = some (size, rest)) :
    ∃ k n, (1 ≤ k ∧ k ≤ 8) ∧ n < 2 ^ (7 * k) ∧ bs = marked k n ++ rest ∧
      size = Size.ofMarked k n := by
  cases bs with
  | nil => simp [decode] at h
  | cons b tail =>
    cases hw : width b with
    | none => simp [decode, hw] at h
    | some k =>
      obtain ⟨hk, -⟩ := bounds_of_width hw
      obtain ⟨j, rfl⟩ : ∃ j, k = j + 1 := ⟨k - 1, by omega⟩
      by_cases hlong : (b :: tail).length < j + 1
      · simp [decode, hw, List.length_cons ▸ hlong] at h
      · have hlen : (tail.take j).length = j := by
          rw [List.length_cons] at hlong
          exact List.length_take_of_le (by omega)
        have hhead : width b = some ((tail.take j).length + 1) := by rw [hw, hlen]
        obtain ⟨n, hn, hbytes⟩ := exists_eq_marked hhead
        rw [hlen] at hn hbytes
        have hbs : b :: tail = marked (j + 1) n ++ tail.drop j := by
          rw [← hbytes, List.cons_append, List.take_append_drop]
        -- What these bytes are read as is known by now, so that it is what `h` speaks of.
        rw [hbs, decode_marked_append hk hn] at h
        obtain ⟨rfl, rfl⟩ : Size.ofMarked (j + 1) n = size ∧ tail.drop j = rest := by
          simpa using h
        exact ⟨j + 1, n, hk, hn, hbs, rfl⟩

theorem decode_unknown_append {k : Nat} (hk : 1 ≤ k ∧ k ≤ 8) (rest : Bytes) :
    decode (unknown k ++ rest) = some (.unknown, rest) := by
  have hpos : 0 < 2 ^ (7 * k) := Nat.two_pow_pos _
  rw [unknown, decode_marked_append hk (by omega), Size.ofMarked, if_pos rfl]

/-- Eight bytes tell no greater number, however they are chosen. -/
theorem lt_sizeLimit_of_decode {bs rest : Bytes} {n : Nat}
    (h : decode bs = some (.known n, rest)) : n < sizeLimit := by
  obtain ⟨k, m, ⟨-, hk⟩, hm, -, hsize⟩ := exists_marked_of_decode h
  -- The greatest pattern of all is all ones of eight bytes, which is no number.
  have hpow : 2 ^ (7 * k) ≤ 2 ^ 56 := Nat.pow_le_pow_right (by decide) (by omega)
  unfold Size.ofMarked at hsize
  split at hsize
  · simp at hsize
  · obtain rfl : n = m := by simpa using hsize
    unfold sizeLimit
    omega

/-! ## The round trip -/

/-- The marker bit lies above the digits of the number. -/
theorem marked_eq {n k : Nat} (h : n < 2 ^ (7 * k)) : n ||| 2 ^ (7 * k) = 2 ^ (7 * k) + n := by
  have := Nat.two_pow_add_eq_or_of_lt h 1
  rw [Nat.mul_one] at this
  rw [this, Nat.or_comm]

theorem length_encode (n : Nat) : (encode n).length = length n := by
  simp [encode]

theorem encode_eq_marked {n : Nat} (h : n < sizeLimit) : encode n = marked (length n) n := by
  have hn := lt_of_length h
  rw [encode, Nat.one_shiftLeft, marked_eq (by omega), marked]

/-- What is written is read back as a known size, and the bytes behind it stay. -/
theorem decode_encode_append {n : Nat} (h : n < sizeLimit) (rest : Bytes) :
    decode (encode n ++ rest) = some (.known n, rest) := by
  have hn := lt_of_length h
  -- `length` keeps clear of the pattern that says "unknown".
  have hknown : Size.ofMarked (length n) n = .known n := if_neg (by omega)
  rw [encode_eq_marked h, decode_marked_append (length_bounds n) (by omega), hknown]

theorem encode_ne_unknown {n k : Nat} (h : n < sizeLimit) (hk : 1 ≤ k ∧ k ≤ 8) :
    encode n ≠ unknown k := by
  intro heq
  have hread := decode_encode_append h []
  rw [heq, decode_unknown_append hk] at hread
  simp at hread

/-- Read with what follows it, an encoding is read as itself. -/
theorem encode_prefixFree {n m : Nat} (hn : n < sizeLimit) (hm : m < sizeLimit)
    (h : encode n <+: encode m) : n = m := by
  obtain ⟨rest, hrest⟩ := h
  have hread := decode_encode_append hn rest
  have hwhole := decode_encode_append hm []
  rw [List.append_nil, ← hrest, hread] at hwhole
  obtain ⟨heq, -⟩ : n = m ∧ rest = [] := by simpa using hwhole
  exact heq

/-- The numbers below the limit are the ones that are got back, whatever follows them. Each is
written in as few bytes as keep it below all ones, and none of the encodings begins with another. -/
theorem encode_self_delimiting (n : Nat) :
    (∀ rest, decode (encode n ++ rest) = some (.known n, rest) ↔ n < sizeLimit) ∧
    (n < sizeLimit →
      (encode n).length = length n ∧ IsLeast {k | n < 2 ^ (7 * k) - 1} (length n) ∧
      encode n ≠ unknown (length n) ∧
      ∀ m < sizeLimit, m ≠ n → ¬ encode n <+: encode m) := by
  refine ⟨fun rest => ⟨lt_sizeLimit_of_decode, fun h => decode_encode_append h rest⟩, fun h => ?_⟩
  have hprefix : ∀ m < sizeLimit, m ≠ n → ¬ encode n <+: encode m :=
    fun m hm hne hp => hne (encode_prefixFree h hm hp).symm
  exact ⟨length_encode n, isLeast_length h, encode_ne_unknown h (length_bounds n), hprefix⟩

/-- In seven bytes the first number would be all ones, so that it takes eight; the one before it
still takes seven. The limit itself is not got back. -/
theorem encode_self_delimiting_past_ones :
    (2 ^ 49 - 1 < sizeLimit ∧
      decode (encode (2 ^ 49 - 1) ++ [0xff]) = some (.known (2 ^ 49 - 1), [0xff]) ∧
      (encode (2 ^ 49 - 1)).length = 8 ∧ IsLeast {k | 2 ^ 49 - 1 < 2 ^ (7 * k) - 1} 8 ∧
      encode (2 ^ 49 - 1) ≠ unknown 8) ∧
    (2 ^ 49 - 2 < sizeLimit ∧ 2 ^ 49 - 2 ≠ 2 ^ 49 - 1 ∧
      ¬ encode (2 ^ 49 - 1) <+: encode (2 ^ 49 - 2)) ∧
    ∀ rest, decode (encode sizeLimit ++ rest) ≠ some (.known sizeLimit, rest) := by
  have hlimit : 2 ^ 49 - 1 < sizeLimit := by decide
  have hother : 2 ^ 49 - 2 < sizeLimit := by decide
  have height : length (2 ^ 49 - 1) = 8 := by decide
  obtain ⟨hread, hcode⟩ := encode_self_delimiting (2 ^ 49 - 1)
  obtain ⟨hlen, hleast, hones, hprefix⟩ := hcode hlimit
  rw [height] at hlen hleast hones
  refine ⟨⟨hlimit, (hread [0xff]).2 hlimit, hlen, hleast, hones⟩,
    ⟨hother, by decide, hprefix _ hother (by decide)⟩, fun rest h => ?_⟩
  exact absurd (((encode_self_delimiting sizeLimit).1 rest).1 h) (by decide)

example : decode (encode sizeLimit) = some (.unknown, []) := by decide

end Ebml.Vint

end Headend
