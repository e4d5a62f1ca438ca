/-!
# Handing tracks over

Tracks may arrive before anyone wants them. A handoff keeps them until a handler is attached, and
from then on passes every track to the handler. Both operations only decide which calls are due; the
calls are made by whoever asked, so that a handler may use the handoff again.
-/

namespace Headend.Ingest

structure Handoff (τ η : Type) where
  handler : Option η
  /-- Tracks that came too early, in the order of their arrival. -/
  early : List τ
  deriving Repr, DecidableEq

namespace Handoff

variable {τ η : Type}

def new : Handoff τ η := ⟨none, []⟩

/-- A track arrives. The answer is the handler it is due to. -/
def arrive (h : Handoff τ η) (track : τ) : Handoff τ η × Option η :=
  match h.handler with
  | some handler => (h, some handler)
  | none => ({ h with early := h.early ++ [track] }, none)

/-- Attach a handler, in the place of any other. The answer is the tracks it is due. -/
def attach (h : Handoff τ η) (handler : η) : Handoff τ η × List τ :=
  (⟨some handler, []⟩, h.early)

end Handoff

end Headend.Ingest
