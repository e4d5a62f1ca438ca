/-!
# Outcomes

A computation on untrusted bytes ends in a value, in an error it reports, or in a crash: an index
that ran past the end of a buffer, which no caller is told about.
-/

namespace Headend

inductive Outcome (ε α : Type) where
  | ok (value : α)
  | error (cause : ε)
  | crash
  deriving Repr, DecidableEq

namespace Outcome

variable {ε α β : Type}

protected def bind (x : Outcome ε α) (f : α → Outcome ε β) : Outcome ε β :=
  match x with
  | ok a => f a
  | error e => error e
  | crash => crash

instance : Monad (Outcome ε) where
  pure := ok
  bind := Outcome.bind

/-- The value, or the given crash if there is none. -/
def ofOption? : Option α → Outcome ε α
  | some a => ok a
  | none => crash

@[simp] theorem pure_eq (a : α) : (pure a : Outcome ε α) = ok a := rfl

@[simp] theorem ok_bind (a : α) (f : α → Outcome ε β) : (ok a >>= f) = f a := rfl

@[simp] theorem error_bind (e : ε) (f : α → Outcome ε β) : (error e >>= f) = error e := rfl

@[simp] theorem crash_bind (f : α → Outcome ε β) : ((crash : Outcome ε α) >>= f) = crash := rfl

end Outcome

end Headend
