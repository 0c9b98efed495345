import TypedMemory.Port

/-!
# Restricted ports

Ports that stand before another one and give less than it does, as a slow or dying target would.
-/

namespace TypedMemory.Port

variable {σ : Type} (port : Port σ)

/-- The port that gives at most `limit` bytes for each read. -/
def limitReads (limit : Nat) : Port σ :=
  { port with readBytes := fun address length => (·.take limit) <$> port.readBytes address length }

/-- The port that reserves nothing in states where `exhausted` holds. -/
def limitAllocations (exhausted : σ → Bool) : Port σ :=
  { port with
    allocate := fun size => do
      if exhausted (← get) then throw (.allocationFailed size "process is gone")
      else port.allocate size }

end TypedMemory.Port
