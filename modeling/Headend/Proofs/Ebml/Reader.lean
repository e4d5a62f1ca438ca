import Headend.Ebml.Element
import Headend.Proofs.Ebml.Vint

/-!
# An EBML reader

`items` cuts a byte string into sized elements and starts of elements of unknown size, knowing
nothing but the rules for identifiers and variable-size integers. `nodes` goes on into the sized
elements that hold others. A string that does not end where its last element ends is refused.

Main statement: `items_flatMap_encode`, the reader undoes the writer.
-/

namespace Headend.Ebml

/-! ## Identifiers -/

/-- Read an identifier, which keeps its marker bit and has at most four bytes. -/
def Id.decode (bs : Bytes) : Option (Id × Bytes) :=
  match bs with
  | [] => none
  | b :: _ =>
    match Vint.width b with
    | none => none
    | some k => if 4 < k ∨ bs.length < k then none else some (bigEndian (bs.take k), bs.drop k)

/-- An identifier whose own first bit tells the length that it is written with. -/
def Id.Readable (id : Id) : Prop := Id.decode id.encode = some (id, [])

instance (id : Id) : Decidable id.Readable := inferInstanceAs (Decidable (_ = _))

theorem Id.decode_append {bs : Bytes} {id : Id} (h : Id.decode bs = some (id, [])) (rest : Bytes) :
    Id.decode (bs ++ rest) = some (id, rest) := by
  cases bs with
  | nil => simp [Id.decode] at h
  | cons b tail =>
    unfold Id.decode at h ⊢
    simp only [List.cons_append] at h ⊢
    cases hw : Vint.width b with
    | none => simp [hw] at h
    | some k =>
      simp only [hw] at h ⊢
      split at h
      · simp at h
      · rename_i hk
        obtain ⟨hid, hdrop⟩ : bigEndian ((b :: tail).take k) = id ∧ (b :: tail).drop k = [] := by
          simpa using h
        -- The identifier takes the whole string, so what follows starts right behind it.
        have hlen : k = (b :: tail).length := by
          have := List.drop_eq_nil_iff.1 hdrop
          omega
        have htake : (b :: (tail ++ rest)).take k = b :: tail := by
          rw [← List.cons_append]
          exact List.take_left' hlen.symm
        have hrest : (b :: (tail ++ rest)).drop k = rest := by
          rw [← List.cons_append]
          exact List.drop_left' hlen.symm
        have hok : ¬ (4 < k ∨ (b :: (tail ++ rest)).length < k) := by
          simp only [List.length_cons, List.length_append] at hk hlen ⊢
          omega
        rw [if_neg hok, htake, hrest, ← hid, hlen, List.take_length]

theorem Id.length_lt_of_decode {bs rest : Bytes} {id : Id} (h : Id.decode bs = some (id, rest)) :
    rest.length < bs.length := by
  cases bs with
  | nil => simp [Id.decode] at h
  | cons b tail =>
    unfold Id.decode at h
    cases hw : Vint.width b with
    | none => simp [hw] at h
    | some k =>
      have hk : 1 ≤ k := (Vint.bounds_of_width hw).1.1
      simp only [hw] at h
      split at h
      · simp at h
      · obtain ⟨-, rfl⟩ : _ ∧ (b :: tail).drop k = rest := by simpa using h
        simp only [List.length_drop, List.length_cons]
        omega

theorem Vint.length_le_of_decode {bs rest : Bytes} {size : Size}
    (h : decode bs = some (size, rest)) : rest.length ≤ bs.length := by
  obtain ⟨k, n, -, -, rfl, -⟩ := exists_marked_of_decode h
  simp

/-! ## Numbers -/

theorem lt_two_pow_byteCount (n : Nat) : n < 256 ^ byteCount n := by
  unfold byteCount
  split
  · rename_i h
    simp [h]
  · have hlt : n < 2 ^ (n.log2 + 1) := Nat.lt_log2_self
    have hle : 2 ^ (n.log2 + 1) ≤ 2 ^ (8 * (n.log2 / 8 + 1)) :=
      Nat.pow_le_pow_right (by decide) (by omega)
    rw [show (256 : Nat) = 2 ^ 8 from rfl, ← Nat.pow_mul]
    omega

theorem bigEndian_uintBody (n : Nat) : bigEndian (uintBody n) = n := by
  apply bigEndian_toBigEndian_of_lt
  exact Nat.lt_of_lt_of_le (lt_two_pow_byteCount n)
    (Nat.pow_le_pow_right (by decide) (Nat.le_max_right ..))

theorem length_uintBody_le {n : Nat} (h : n < 2 ^ 64) : (uintBody n).length ≤ 8 := by
  have hcount : byteCount n ≤ 8 := by
    unfold byteCount
    split
    · omega
    · rename_i hn
      have : n.log2 < 64 := (Nat.log2_lt hn).2 h
      omega
  simp only [uintBody, length_toBigEndian]
  omega

theorem length_binary_le (id : Id) (body : Bytes) :
    (binary id body).length ≤ 12 + body.length := by
  have hsize := (Vint.length_bounds body.length).2
  simp only [binary, Id.encode, List.length_append, length_toBigEndian, Vint.length_encode]
  omega

theorem length_uint_le (id : Id) {n : Nat} (h : n < 2 ^ 64) : (uint id n).length ≤ 20 := by
  have hbinary := length_binary_le id (uintBody n)
  have hbody := length_uintBody_le h
  exact Nat.le_trans hbinary (by omega)

/-! ## Items -/

inductive Item where
  /-- The start of an element of unknown size. -/
  | opening (id : Id)
  | element (id : Id) (body : Bytes)
  deriving Repr, DecidableEq

namespace Item

def encode : Item → Bytes
  | opening id => openEnded id
  | element id body => binary id body

def Readable : Item → Prop
  | opening id => id.Readable
  | element id body => id.Readable ∧ body.length < Vint.sizeLimit

def decode (bs : Bytes) : Option (Item × Bytes) :=
  match Id.decode bs with
  | none => none
  | some (id, bs) =>
    match Vint.decode bs with
    | none => none
    | some (.unknown, rest) => some (opening id, rest)
    | some (.known n, rest) =>
      if rest.length < n then none else some (element id (rest.take n), rest.drop n)

theorem length_lt_of_decode {bs rest : Bytes} {t : Item} (h : decode bs = some (t, rest)) :
    rest.length < bs.length := by
  unfold decode at h
  split at h
  · simp at h
  · rename_i id bs' hid
    have hlt := Id.length_lt_of_decode hid
    split at h
    · simp at h
    · rename_i rest' hsize
      have hle := Vint.length_le_of_decode hsize
      obtain ⟨-, rfl⟩ : opening id = t ∧ rest' = rest := by simpa using h
      omega
    · rename_i n rest' hsize
      have hle := Vint.length_le_of_decode hsize
      split at h
      · simp at h
      · obtain ⟨-, rfl⟩ : _ ∧ rest'.drop n = rest := by simpa using h
        simp only [List.length_drop]
        omega

theorem decode_encode_append {t : Item} (h : t.Readable) (rest : Bytes) :
    decode (t.encode ++ rest) = some (t, rest) := by
  cases t with
  | opening id =>
    have hid := Id.decode_append h (unknownSize ++ rest)
    have hones : Vint.unknown 8 = unknownSize := by decide
    have hsize := hones ▸ Vint.decode_unknown_append (k := 8) (by decide) rest
    simp [decode, encode, openEnded, hid, hsize]
  | element id body =>
    obtain ⟨hid, hbody⟩ := h
    have hid := Id.decode_append hid (Vint.encode body.length ++ (body ++ rest))
    have hsize := Vint.decode_encode_append hbody (body ++ rest)
    simp [decode, encode, binary, hid, hsize]

theorem length_body_le (id : Id) (body : Bytes) :
    body.length ≤ (Item.element id body).encode.length := by
  simp only [encode, binary, List.length_append]
  omega

theorem length_encode_le_of_mem {t : Item} {ts : List Item} (h : t ∈ ts) :
    t.encode.length ≤ (ts.flatMap encode).length := by
  induction ts with
  | nil => simp at h
  | cons u ts ih =>
    rw [List.flatMap_cons, List.length_append]
    rcases List.mem_cons.1 h with rfl | h
    · omega
    · have := ih h
      omega

/-- Sized elements that together are small enough are so one by one. -/
theorem readable_of_length {ts : List Item} (hid : ∀ t ∈ ts, ∃ id body, t = element id body ∧
    id.Readable) (h : (ts.flatMap encode).length < Vint.sizeLimit) : ∀ t ∈ ts, t.Readable := by
  intro t ht
  obtain ⟨id, body, rfl, hread⟩ := hid t ht
  have hbody := length_body_le id body
  have hmem := length_encode_le_of_mem ht
  exact ⟨hread, by omega⟩

end Item

/-- The items of a whole byte string. -/
def items (bs : Bytes) : Option (List Item) :=
  if bs.isEmpty then some [] else
  match _h : Item.decode bs with
  | none => none
  | some (t, rest) => (items rest).map (t :: ·)
termination_by bs.length
decreasing_by exact Item.length_lt_of_decode _h

@[simp] theorem items_nil : items [] = some [] := by
  unfold items
  rfl

theorem items_encode_append {t : Item} (h : t.Readable) (rest : Bytes) :
    items (t.encode ++ rest) = (items rest).map (t :: ·) := by
  have hdec := Item.decode_encode_append h rest
  -- What an item can be read from is not empty.
  have hne : (t.encode ++ rest).isEmpty = false := by
    cases hbs : t.encode ++ rest with
    | nil => rw [hbs] at hdec; simp [Item.decode, Id.decode] at hdec
    | cons b bs => rfl
  rw [items, hne]
  simp only [Bool.false_eq_true, if_false]
  split
  · rename_i hnone
    rw [hdec] at hnone
    simp at hnone
  · rename_i t' rest' hsome
    rw [hdec] at hsome
    obtain ⟨rfl, rfl⟩ : t = t' ∧ rest = rest' := by simpa using hsome
    rfl

/-- What was written item by item is read item by item. -/
theorem items_flatMap_encode {ts : List Item} (h : ∀ t ∈ ts, t.Readable) :
    items (ts.flatMap Item.encode) = some ts := by
  induction ts with
  | nil => simp
  | cons t ts ih =>
    rw [List.flatMap_cons, items_encode_append (h t (List.mem_cons_self ..)),
      ih fun t ht => h t (List.mem_cons_of_mem _ ht)]
    rfl

/-! ## Nested elements -/

inductive Node where
  | leaf (id : Id) (body : Bytes)
  | parent (id : Id) (children : List Node)
  deriving Repr

/-- The sized elements that fill a byte string, down to a number of levels. Those that `holds`
names hold elements themselves. -/
def nodes (holds : Id → Bool) : (depth : Nat) → Bytes → Option (List Node)
  | 0, _ => none
  | depth + 1, bs =>
    match items bs with
    | none => none
    | some ts => ts.mapM fun
      | .opening _ => none
      | .element id body =>
        if holds id then (nodes holds depth body).map (.parent id) else some (.leaf id body)

end Headend.Ebml
