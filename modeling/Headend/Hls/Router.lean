/-!
# The active HLS route

At most one registration is active, the latest. A registration that was replaced can no longer be
removed, so that whoever held it cannot take away a newer one.
-/

namespace Headend.Hls

/-- What a route of the server leads to. -/
inductive Target where
  /-- A processor of an ingest stream. -/
  | ofStream (stream processor : Nat)
  /-- A processor of the orchestrated stream. -/
  | ofControl (processor : Nat)
  /-- An output of the outside world. -/
  | outside (k : Nat)
  deriving Repr, DecidableEq

structure Router (π : Type) where
  /-- The number and the processor of the registration in force. -/
  active : Option (Nat × π)
  nextId : Nat
  deriving Repr, DecidableEq

namespace Router

variable {π : Type}

def new : Router π := ⟨none, 0⟩

def register (r : Router π) (processor : π) : Router π × Nat :=
  (⟨some (r.nextId, processor), r.nextId + 1⟩, r.nextId)

/-- Remove a registration if it is the active one, and tell whether it was. -/
def unregister (r : Router π) (id : Nat) : Router π × Bool :=
  match r.active with
  | some (k, _) => if k = id then ({ r with active := none }, true) else (r, false)
  | none => (r, false)

def isActive (r : Router π) : Bool := r.active.isSome

def processor? (r : Router π) : Option π := r.active.map Prod.snd

theorem active_unregister_of_ne {r : Router π} {k id : Nat} {p : π}
    (h : r.active = some (k, p)) (hne : k ≠ id) : (r.unregister id).1 = r := by
  simp [unregister, h, hne]

theorem unregister_nextId (r : Router π) (id : Nat) : (r.unregister id).1.nextId = r.nextId := by
  rw [unregister]
  split
  · split <;> rfl
  · rfl

theorem unregister_active {r : Router π} {id : Nat} {a : Nat × π} :
    (r.unregister id).1.active = some a ↔ r.active = some a ∧ a.1 ≠ id := by
  rw [unregister]
  split
  case h_1 k p hactive =>
    split
    case isTrue hsame =>
      constructor
      · rintro ⟨⟩
      · rintro ⟨hfound, hne⟩
        cases hactive.symm.trans hfound
        exact absurd hsame hne
    case isFalse hother =>
      rw [hactive]
      refine ⟨?_, And.left⟩
      rintro ⟨⟩
      exact ⟨rfl, hother⟩
  case h_2 hidle => simp [hidle]

end Router

end Headend.Hls
