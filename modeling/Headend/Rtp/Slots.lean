import Headend.Rtp.Packet

/-!
# Packet slots

One slot per sequence number, each empty or holding one packet. The view is `get?`; `insert` and
`erase` change it at one number only.
-/

namespace Headend.Rtp

structure Slots where
  entries : List (UInt16 × Packet)
  deriving Repr, DecidableEq

namespace Slots

def empty : Slots := ⟨[]⟩

def get? (s : Slots) (n : UInt16) : Option Packet := s.entries.lookup n

def has (s : Slots) (n : UInt16) : Bool := (s.get? n).isSome

def erase (s : Slots) (n : UInt16) : Slots := ⟨s.entries.filter (fun e => n != e.1)⟩

def insert (s : Slots) (n : UInt16) (p : Packet) : Slots := ⟨(n, p) :: (s.erase n).entries⟩

/-- How many slots hold a packet. -/
def size (s : Slots) : Nat := s.entries.length

/-- The first packet among `count` successive numbers from `n` on. -/
def first? (s : Slots) : (count : Nat) → (n : UInt16) → Option Packet
  | 0, _ => none
  | count + 1, n =>
    match s.get? n with
    | some p => some p
    | none => s.first? count (n + 1)

/-- The packets among `count` successive numbers from `n` on. -/
def run (s : Slots) : (count : Nat) → (n : UInt16) → List Packet
  | 0, _ => []
  | count + 1, n => (s.get? n).toList ++ s.run count (n + 1)

/-! ## The view -/

@[simp] theorem get?_empty (n : UInt16) : empty.get? n = none := rfl

theorem lookup_filter_ne (l : List (UInt16 × Packet)) (m n : UInt16) :
    (l.filter (fun e => m != e.1)).lookup n = if m = n then none else l.lookup n := by
  induction l with
  | nil => simp
  | cons e l ih =>
    obtain ⟨k, p⟩ := e
    by_cases hk : m = k
    · subst hk
      by_cases hn : m = n
      · simp [hn]
      · have : (n == m) = false := by simpa using fun he : n = m => hn he.symm
        simp [ih, hn, List.lookup_cons, this]
    · by_cases hn : n = k
      · subst hn
        simp [hk]
      · have : (n == k) = false := by simpa using hn
        simp [hk, ih, List.lookup_cons, this]

theorem get?_erase (s : Slots) (m n : UInt16) :
    (s.erase m).get? n = if m = n then none else s.get? n :=
  lookup_filter_ne s.entries m n

theorem get?_insert (s : Slots) (m n : UInt16) (p : Packet) :
    (s.insert m p).get? n = if m = n then some p else s.get? n := by
  have h := s.get?_erase m n
  unfold get? at h ⊢
  by_cases hm : m = n
  · subst hm
    simp [insert]
  · have : (n == m) = false := by simpa using fun he : n = m => hm he.symm
    simp [insert, List.lookup_cons, this, h, hm]

end Slots

end Headend.Rtp
