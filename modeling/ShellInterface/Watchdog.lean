namespace ShellInterface

structure Watchdog where
  -- The cycles counted after each arming.
  reload : Nat
  remaining : Nat
deriving DecidableEq, Repr

namespace Watchdog

-- A disarmed watchdog. It counts at least one cycle.
def create (reload : Nat) : Watchdog :=
  ⟨max 1 reload, 0⟩

def arm (w : Watchdog) : Watchdog :=
  { w with remaining := w.reload }

def tick (w : Watchdog) : Watchdog :=
  { w with remaining := w.remaining - 1 }

def isExpired (w : Watchdog) : Bool :=
  w.remaining == 0

@[simp]
theorem arm_remaining (w : Watchdog) : w.arm.remaining = w.reload := rfl

@[simp]
theorem tick_remaining (w : Watchdog) : w.tick.remaining = w.remaining - 1 := rfl

end Watchdog

end ShellInterface
