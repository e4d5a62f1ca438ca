/-!
# Cancellation tokens

Tokens form a forest. A token is cancelled once it or one of its ancestors was cancelled; nothing
takes that back.
-/

namespace Headend

structure Token where
  fired : Bool
  ancestors : List Nat
  deriving Repr, DecidableEq

structure Tokens where
  all : List Token
  deriving Repr, DecidableEq

namespace Tokens

def empty : Tokens := ⟨[]⟩

def fired (t : Tokens) (k : Nat) : Bool := t.all[k]?.elim false Token.fired

def ancestors (t : Tokens) (k : Nat) : List Nat := t.all[k]?.elim [] Token.ancestors

def cancelled (t : Tokens) (k : Nat) : Bool :=
  t.fired k || (t.ancestors k).any t.fired

def cancel (t : Tokens) (k : Nat) : Tokens :=
  ⟨t.all.modify k fun x => { x with fired := true }⟩

/-- A new token that nothing else cancels. -/
def fresh (t : Tokens) : Tokens × Nat :=
  (⟨t.all ++ [⟨false, []⟩]⟩, t.all.length)

/-- A new token that is cancelled with its parent. -/
def child (t : Tokens) (parent : Nat) : Tokens × Nat :=
  (⟨t.all ++ [⟨false, parent :: t.ancestors parent⟩]⟩, t.all.length)

theorem fired_cancel (t : Tokens) (k j : Nat) :
    (t.cancel k).fired j = ((k == j && (t.all[j]?).isSome) || t.fired j) := by
  by_cases h : k = j
  · subst h
    cases hj : t.all[k]? <;> simp [fired, cancel, hj]
  · simp [fired, cancel, h]

theorem ancestors_cancel (t : Tokens) (k j : Nat) :
    (t.cancel k).ancestors j = t.ancestors j := by
  by_cases h : k = j
  · subst h
    cases hj : t.all[k]? <;> simp [ancestors, cancel, hj]
  · simp [ancestors, cancel, h]

/-- A cancelled token stays cancelled. -/
theorem cancelled_cancel_of_cancelled {t : Tokens} {j : Nat} (k : Nat) (h : t.cancelled j = true) :
    (t.cancel k).cancelled j = true := by
  simp only [cancelled, Bool.or_eq_true, List.any_eq_true, fired_cancel, ancestors_cancel] at h ⊢
  grind

end Tokens

end Headend
