import Headend.Proofs.Ebml.Vint
import Headend.Rtp.Packet

/-!
# Extensions that run past their packet

The reader of a header extension takes one element after another as long as bytes of the extension
are left, and it trusts each element's size. `Overrun` describes the bytes on which this goes wrong:
whole elements and padding, and then, still within the extension, an element that is cut short by
the end of the packet. On these the reader crashes, and on no others.
-/

namespace Headend.Rtp

/-! ## Elements -/

/-- A whole element of an extension, in the form that the profile names. -/
inductive Element : (profile : UInt16) → Bytes → Prop where
  | oneByte {header : UInt8} {data : Bytes} (hnonzero : header ≠ 0) (hid : header >>> 4 ≠ 15)
      (hsize : data.length = (header &&& 0x0f).toNat + 1) : Element oneByteProfile (header :: data)
  | twoByte {id size : UInt8} {data : Bytes} (hnonzero : id ≠ 0)
      (hlength : data.length = size.toNat) :
      Element twoByteProfile (id :: size :: data)

/-- With `left` bytes of the extension to go, an element comes that the packet does not hold. -/
inductive Overrun (profile : UInt16) : (left : Nat) → Bytes → Prop where
  | padding {left : Nat} {bs : Bytes} (hrest : Overrun profile left bs) :
      Overrun profile (left + 1) (0 :: bs)
  | element {left : Nat} {element bs : Bytes} (hwhole : Element profile element)
      (hrest : Overrun profile left bs) : Overrun profile (left + element.length) (element ++ bs)
  | cut {left : Nat} {bs missing : Bytes} (hinside : 0 < left) (hpresent : bs ≠ [])
      (hlost : missing ≠ [])
      (hwhole : Element profile (bs ++ missing)) : Overrun profile left bs

section

variable {profile : UInt16} {left fuel skipped : Nat} {bs : Bytes} {found : List Extension}

theorem Overrun.pos (h : Overrun profile left bs) : 0 < left := by
  induction h with
  | padding hrest ih => exact Nat.succ_pos _
  | element hwhole hrest ih => exact Nat.add_pos_left ih _
  | cut hinside hpresent hlost hwhole => exact hinside

/-- What is met behind an element is met with the element in front of it. -/
theorem Overrun.behind {element : Bytes} (hwhole : Element profile element)
    (h : Overrun profile (left - element.length) bs) : Overrun profile left (element ++ bs) := by
  have hpos := h.pos
  have hleft : left - element.length + element.length = left := by omega
  rw [← hleft]
  exact .element hwhole h

theorem Element.of_oneByte (h : Element oneByteProfile bs) :
    ∃ header data, bs = header :: data ∧ header ≠ 0 ∧ header >>> 4 ≠ 15 ∧
      data.length = (header &&& 0x0f).toNat + 1 := by
  generalize hprofile : oneByteProfile = profile at h
  cases h with
  | oneByte hnonzero hid hsize => exact ⟨_, _, rfl, hnonzero, hid, hsize⟩
  | twoByte => exact absurd hprofile (by decide)

theorem Element.of_twoByte (h : Element twoByteProfile bs) :
    ∃ id size data, bs = id :: size :: data ∧ id ≠ 0 ∧ data.length = size.toNat := by
  generalize hprofile : twoByteProfile = profile at h
  cases h with
  | oneByte => exact absurd hprofile (by decide)
  | twoByte hnonzero hlength => exact ⟨_, _, _, rfl, hnonzero, hlength⟩

/-- Bytes are always to be had that make up a length. -/
theorem exists_missing {size : Nat} (h : bs.length < size) :
    ∃ missing, missing ≠ [] ∧ (bs ++ missing).length = size := by
  refine ⟨List.replicate (size - bs.length) 0, ?_, ?_⟩
  · intro hnil
    have hlen := congrArg List.length hnil
    rw [List.length_replicate, List.length_nil] at hlen
    omega
  · rw [List.length_append, List.length_replicate]
    omega

/-! ## The one-byte form -/

theorem Overrun.of_oneByteElements (h : oneByteElements fuel left bs found skipped = none)
    (hleft : left ≤ bs.length) : Overrun oneByteProfile left bs := by
  fun_induction oneByteElements fuel left bs found skipped with
  | case1 => cases h
  | case2 => cases h
  | case3 fuel left found skipped hne =>
    -- Something is left of the extension, so something is left of the packet.
    exact absurd (Nat.le_zero.1 hleft) hne
  | case4 fuel left found skipped hne rest ih =>
    rw [List.length_cons] at hleft
    have hrest := ih h (by omega)
    rw [← Nat.sub_add_cancel (Nat.pos_of_ne_zero hne)]
    exact .padding hrest
  | case5 => cases h
  | case6 fuel left found skipped hne b rest hb id size hid hshort =>
    obtain ⟨missing, hlost, hlen⟩ := exists_missing hshort
    exact .cut (Nat.pos_of_ne_zero hne) (List.cons_ne_nil _ _) hlost (.oneByte hb hid hlen)
  | case7 fuel left found skipped hne b rest hb id size hid hshort ih =>
    have hlen : (rest.take size).length = size := List.length_take_of_le (Nat.le_of_not_lt hshort)
    have hwhole : Element oneByteProfile (b :: rest.take size) := .oneByte hb hid hlen
    rw [List.length_cons] at hleft
    have hrest := ih h (by rw [List.length_drop]; omega)
    have hbehind : Overrun oneByteProfile left ((b :: rest.take size) ++ rest.drop size) := by
      refine .behind hwhole ?_
      rwa [List.length_cons, hlen, Nat.add_comm, ← Nat.sub_sub]
    rwa [List.cons_append, List.take_append_drop] at hbehind

theorem Overrun.oneByteElements_eq_none (h : Overrun oneByteProfile left bs) (hfuel : left ≤ fuel)
    (found : List Extension) (skipped : Nat) :
    oneByteElements fuel left bs found skipped = none := by
  have hpos := h.pos
  obtain ⟨fuel, rfl⟩ : ∃ n, fuel = n + 1 := ⟨fuel - 1, by omega⟩
  induction h generalizing fuel found skipped with
  | @padding left bs hrest₀ ih =>
    have hleft := hrest₀.pos
    obtain ⟨fuel, rfl⟩ : ∃ n, fuel = n + 1 := ⟨fuel - 1, by omega⟩
    have hrest := ih found (skipped + 1) hleft fuel (by omega)
    simpa [oneByteElements] using hrest
  | @element left element bs hwhole hrest₀ ih =>
    obtain ⟨header, data, rfl, hheader, hid, hsize⟩ := hwhole.of_oneByte
    have hleft := hrest₀.pos
    rw [List.length_cons] at hfuel ⊢
    obtain ⟨fuel, rfl⟩ : ∃ n, fuel = n + 1 := ⟨fuel - 1, by omega⟩
    have hrest := ih (found ++ [⟨header >>> 4, data⟩]) skipped hleft fuel (by omega)
    have hskip : left + (data.length + 1) - 1 - data.length = left := by omega
    have hlong : ¬ (data ++ bs).length < data.length := by
      rw [List.length_append]
      omega
    rw [List.cons_append, oneByteElements, if_neg (by omega)]
    simp only [hheader, if_false, hid, ← hsize]
    rw [if_neg hlong, List.drop_left, List.take_left, hskip]
    exact hrest
  | @cut left bs missing hinside hpresent hlost₀ hwhole =>
    obtain ⟨header, data, hbs, hheader, hid, hsize⟩ := hwhole.of_oneByte
    obtain ⟨b, rest, rfl⟩ := List.exists_cons_of_ne_nil hpresent
    obtain ⟨rfl, hdata⟩ : b = header ∧ rest ++ missing = data := by simpa using hbs
    have hlost := List.length_pos_iff.2 hlost₀
    have hshort : rest.length < (b &&& 0x0f).toNat + 1 := by
      rw [← hsize, ← hdata, List.length_append]
      omega
    rw [oneByteElements, if_neg (Nat.ne_of_gt hinside)]
    simp only [hheader, if_false, hid]
    rw [if_pos hshort]

/-! ## The two-byte form -/

theorem Overrun.of_twoByteElements (h : twoByteElements fuel left bs found skipped = none)
    (hleft : left ≤ bs.length) : Overrun twoByteProfile left bs := by
  fun_induction twoByteElements fuel left bs found skipped with
  | case1 => cases h
  | case2 => cases h
  | case3 fuel left found skipped hne => exact absurd (Nat.le_zero.1 hleft) hne
  | case4 fuel left found skipped hne rest ih =>
    rw [List.length_cons] at hleft
    have hrest := ih h (by omega)
    rw [← Nat.sub_add_cancel (Nat.pos_of_ne_zero hne)]
    exact .padding hrest
  | case5 fuel left found skipped hne id hid =>
    -- The size is what is missing, at least.
    have hwhole : Element twoByteProfile ([id] ++ [0]) := .twoByte hid rfl
    exact .cut (Nat.pos_of_ne_zero hne) (List.cons_ne_nil _ _) (List.cons_ne_nil _ _) hwhole
  | case6 fuel left found skipped hne id size rest hid hshort =>
    obtain ⟨missing, hlost, hlen⟩ := exists_missing hshort
    exact .cut (Nat.pos_of_ne_zero hne) (List.cons_ne_nil _ _) hlost (.twoByte hid hlen)
  | case7 fuel left found skipped hne id size rest hid hshort ih =>
    have hlen : (rest.take size.toNat).length = size.toNat :=
      List.length_take_of_le (Nat.le_of_not_lt hshort)
    have hwhole : Element twoByteProfile (id :: size :: rest.take size.toNat) := .twoByte hid hlen
    rw [List.length_cons, List.length_cons] at hleft
    have hrest := ih h (by rw [List.length_drop]; omega)
    have hbehind : Overrun twoByteProfile left
        ((id :: size :: rest.take size.toNat) ++ rest.drop size.toNat) := by
      refine .behind hwhole ?_
      rwa [List.length_cons, List.length_cons, hlen, Nat.add_assoc, Nat.add_comm, ← Nat.sub_sub]
    rwa [List.cons_append, List.cons_append, List.take_append_drop] at hbehind

theorem Overrun.twoByteElements_eq_none (h : Overrun twoByteProfile left bs) (hfuel : left ≤ fuel)
    (found : List Extension) (skipped : Nat) :
    twoByteElements fuel left bs found skipped = none := by
  have hpos := h.pos
  obtain ⟨fuel, rfl⟩ : ∃ n, fuel = n + 1 := ⟨fuel - 1, by omega⟩
  induction h generalizing fuel found skipped with
  | @padding left bs hrest₀ ih =>
    have hleft := hrest₀.pos
    obtain ⟨fuel, rfl⟩ : ∃ n, fuel = n + 1 := ⟨fuel - 1, by omega⟩
    have hrest := ih found (skipped + 1) hleft fuel (by omega)
    simpa [twoByteElements] using hrest
  | @element left element bs hwhole hrest₀ ih =>
    obtain ⟨id, size, data, rfl, hid, hsize⟩ := hwhole.of_twoByte
    have hleft := hrest₀.pos
    rw [List.length_cons, List.length_cons] at hfuel ⊢
    obtain ⟨fuel, rfl⟩ : ∃ n, fuel = n + 1 := ⟨fuel - 1, by omega⟩
    have hrest := ih (found ++ [⟨id, data⟩]) skipped hleft fuel (by omega)
    have hskip : left + (data.length + 1 + 1) - 2 - data.length = left := by omega
    have hlong : ¬ (data ++ bs).length < data.length := by
      rw [List.length_append]
      omega
    rw [List.cons_append, List.cons_append, twoByteElements, if_neg (by omega)]
    · simp only [← hsize]
      rw [if_neg hlong, List.drop_left, List.take_left, hskip]
      exact hrest
    · exact hid
  | @cut left bs missing hinside hpresent hlost₀ hwhole =>
    obtain ⟨id, size, data, hbs, hid, hsize⟩ := hwhole.of_twoByte
    have hlost := List.length_pos_iff.2 hlost₀
    match bs with
    | [] => exact absurd rfl hpresent
    | [b] =>
      obtain rfl : b = id := by simpa using congrArg List.head? hbs
      rw [twoByteElements, if_neg (Nat.ne_of_gt hinside)]
      exact hid
    | b :: b' :: rest =>
      obtain ⟨rfl, rfl, hdata⟩ : b = id ∧ b' = size ∧ rest ++ missing = data := by simpa using hbs
      have hshort : rest.length < b'.toNat := by
        rw [← hsize, ← hdata, List.length_append]
        omega
      rw [twoByteElements, if_neg (Nat.ne_of_gt hinside), if_pos hshort]
      exact hid

/-! ## Either form -/

theorem Element.profile_eq (h : Element profile bs) :
    profile = oneByteProfile ∨ profile = twoByteProfile := by
  cases h with
  | oneByte => exact .inl rfl
  | twoByte => exact .inr rfl

theorem Overrun.profile_eq (h : Overrun profile left bs) :
    profile = oneByteProfile ∨ profile = twoByteProfile := by
  induction h with
  | padding hrest ih => exact ih
  | element hwhole hrest ih => exact ih
  | cut hinside hpresent hlost hwhole => exact hwhole.profile_eq

theorem read_eq_none_iff {size : Nat} (hsize : size ≤ bs.length) :
    Elements.read profile size bs = none ↔ Overrun profile size bs := by
  unfold Elements.read
  by_cases hone : profile = oneByteProfile
  · subst hone
    rw [if_pos rfl]
    exact ⟨fun h => .of_oneByteElements h hsize,
      fun h => h.oneByteElements_eq_none (Nat.le_refl _) [] 0⟩
  · rw [if_neg hone]
    by_cases htwo : profile = twoByteProfile
    · subst htwo
      rw [if_pos rfl]
      exact ⟨fun h => .of_twoByteElements h hsize,
        fun h => h.twoByteElements_eq_none (Nat.le_refl _) [] 0⟩
    · -- Any other form is one element of the size announced.
      rw [if_neg htwo]
      constructor
      · intro h
        cases h
      · intro h
        exact absurd h.profile_eq (not_or.2 ⟨hone, htwo⟩)

end

/-! ## Packets -/

/-- An extension header and what it announces: a form, and a number of words. -/
def extensionHeader (profile : UInt16) (words : Nat) : Bytes :=
  toBigEndian 2 profile.toNat ++ toBigEndian 2 words

theorem exists_extensionHeader {bs : Bytes} (h : 4 ≤ bs.length) :
    ∃ profile words body, words < 65536 ∧ bs = extensionHeader profile words ++ body := by
  match bs with
  | b₀ :: b₁ :: b₂ :: b₃ :: body =>
    have hprofile := toBigEndian_bigEndian [b₀, b₁]
    have hwords := toBigEndian_bigEndian [b₂, b₃]
    have hlt : bigEndian [b₀, b₁] < 65536 ∧ bigEndian [b₂, b₃] < 65536 := by
      have h₀ := b₀.toNat_lt
      have h₁ := b₁.toNat_lt
      have h₂ := b₂.toNat_lt
      have h₃ := b₃.toNat_lt
      simp only [bigEndian, List.foldl_cons, List.foldl_nil]
      omega
    refine ⟨UInt16.ofNat (bigEndian [b₀, b₁]), bigEndian [b₂, b₃], body, hlt.2, ?_⟩
    rw [extensionHeader, UInt16.toNat_ofNat_of_lt' hlt.1]
    rw [List.length_cons, List.length_singleton] at hprofile hwords
    rw [hprofile, hwords]
    rfl

theorem readExtension_append {profile : UInt16} {words : Nat} (hwords : words < 65536)
    (body : Bytes) : readExtension (extensionHeader profile words ++ body) =
      if body.length < 4 * words then .error .shortExtension
      else match Elements.read profile (4 * words) body with
        | some elements => .ok (profile, elements)
        | none => .crash := by
  have hlen : ¬ (extensionHeader profile words ++ body).length < 4 := by
    simp only [extensionHeader, List.length_append, length_toBigEndian]
    omega
  have hprofile : UInt16.ofNat (bigEndian ((extensionHeader profile words ++ body).take 2)) =
      profile := by
    rw [extensionHeader, List.append_assoc, List.take_left' (length_toBigEndian ..),
      bigEndian_toBigEndian_of_lt profile.toNat_lt, UInt16.ofNat_toNat]
  have hsize : bigEndian (((extensionHeader profile words ++ body).drop 2).take 2) = words := by
    rw [extensionHeader, List.append_assoc, List.drop_left' (length_toBigEndian ..),
      List.take_left' (length_toBigEndian ..), bigEndian_toBigEndian_of_lt hwords]
  have hrest : (extensionHeader profile words ++ body).drop 4 = body :=
    List.drop_left' (by simp [extensionHeader])
  unfold readExtension
  rw [if_neg hlen]
  cases hread : Elements.read profile (4 * words) body <;>
    simp only [hprofile, hsize, hrest, hread]

/-- The extension header announces more than the packet holds of an element in it. -/
def OverrunBehind (bs : Bytes) : Prop :=
  ∃ profile words body, words < 65536 ∧ bs = extensionHeader profile words ++ body ∧
    4 * words ≤ body.length ∧ Overrun profile (4 * words) body

theorem readExtension_eq_crash_iff {bs : Bytes} :
    readExtension bs = .crash ↔ OverrunBehind bs := by
  constructor
  · intro h
    have hlong : 4 ≤ bs.length := by
      refine Nat.le_of_not_lt fun hshort => ?_
      rw [readExtension, if_pos hshort] at h
      cases h
    obtain ⟨profile, words, body, hwords, rfl⟩ := exists_extensionHeader hlong
    rw [readExtension_append hwords] at h
    split at h
    · cases h
    · rename_i hsize
      have hsize := Nat.le_of_not_lt hsize
      refine ⟨profile, words, body, hwords, rfl, hsize, (read_eq_none_iff hsize).1 ?_⟩
      split at h
      · cases h
      · assumption
  · rintro ⟨profile, words, body, hwords, rfl, hsize, hover⟩
    rw [readExtension_append hwords, if_neg (Nat.not_lt.2 hsize), (read_eq_none_iff hsize).2 hover]

/-- What comes first in a packet: its first byte says that an extension follows, and how many
sources come before it. -/
def AnnouncesExtension (fixed : Bytes) : Prop :=
  ∃ first ∈ fixed.head?, first &&& 0x10 ≠ 0 ∧ fixed.length = 12 + 4 * (first &&& 0x0f).toNat

/-- A packet with an extension in which an element runs past the packet's end. -/
def Overruns (raw : Bytes) : Prop :=
  ∃ fixed behind, raw = fixed ++ behind ∧ AnnouncesExtension fixed ∧ OverrunBehind behind

/-- Nothing but reading the extension can crash. -/
theorem parse_cons_eq_crash_iff {b₀ b₁ : UInt8} {rest : Bytes} :
    Packet.parse (b₀ :: b₁ :: rest) = .crash ↔
      12 + 4 * (b₀ &&& 0x0f).toNat ≤ (b₀ :: b₁ :: rest).length ∧ b₀ &&& 0x10 ≠ 0 ∧
        readExtension (rest.drop (10 + 4 * (b₀ &&& 0x0f).toNat)) = .crash := by
  unfold Packet.parse
  dsimp only
  by_cases hshort : (b₀ :: b₁ :: rest).length < 12 + 4 * (b₀ &&& 0x0f).toNat
  · rw [if_pos hshort]
    constructor
    · intro h
      cases h
    · intro h
      exact absurd h.1 (Nat.not_le.2 hshort)
  · rw [if_neg hshort]
    by_cases hext : b₀ &&& 0x10 = 0
    · have hnone : (b₀ &&& 0x10 != 0) = false := by simp [hext]
      simp only [hnone, Bool.false_eq_true, if_false, Outcome.pure_eq, Outcome.ok_bind]
      constructor
      · intro h
        split at h
        · split at h <;> cases h
        · cases h
      · intro h
        exact absurd hext h.2.1
    · have hsome : (b₀ &&& 0x10 != 0) = true := by simpa using hext
      simp only [hsome, if_true]
      cases hread : readExtension (rest.drop (10 + 4 * (b₀ &&& 0x0f).toNat)) with
      | ok found =>
        constructor
        · intro h
          rw [Outcome.ok_bind] at h
          split at h
          · split at h <;> cases h
          · cases h
        · intro h
          cases h.2.2
      | error cause =>
        constructor
        · intro h
          cases h
        · intro h
          cases h.2.2
      | crash => exact ⟨fun _ => ⟨Nat.le_of_not_lt hshort, hext, rfl⟩, fun _ => rfl⟩

/-- The parser crashes on these packets, and on nothing else. -/
theorem parse_eq_crash_iff {raw : Bytes} : Packet.parse raw = .crash ↔ Overruns raw := by
  constructor
  · intro h
    match raw with
    | [] => cases h
    | [_] => cases h
    | b₀ :: b₁ :: rest =>
      obtain ⟨hlong, hext, hread⟩ := parse_cons_eq_crash_iff.1 h
      have hwidth : 12 + 4 * (b₀ &&& 0x0f).toNat = 10 + 4 * (b₀ &&& 0x0f).toNat + 1 + 1 := by omega
      refine ⟨(b₀ :: b₁ :: rest).take (12 + 4 * (b₀ &&& 0x0f).toNat),
        rest.drop (10 + 4 * (b₀ &&& 0x0f).toNat), ?_,
        ⟨b₀, ?_, hext, List.length_take_of_le hlong⟩, readExtension_eq_crash_iff.1 hread⟩
      · rw [hwidth]
        simp
      · rw [hwidth]
        rfl
  · rintro ⟨fixed, behind, rfl, ⟨first, hfirst, hext, hlen⟩, hover⟩
    match fixed with
    | [] => cases hfirst
    | [_] =>
      rw [List.length_singleton] at hlen
      omega
    | b₀ :: b₁ :: rest =>
      obtain rfl : b₀ = first := by simpa using hfirst
      rw [List.length_cons, List.length_cons] at hlen
      rw [List.cons_append, List.cons_append]
      refine parse_cons_eq_crash_iff.2 ⟨?_, hext, ?_⟩
      · rw [List.length_cons, List.length_cons, List.length_append]
        omega
      · rw [List.drop_left' (by omega)]
        exact readExtension_eq_crash_iff.2 hover

end Headend.Rtp
