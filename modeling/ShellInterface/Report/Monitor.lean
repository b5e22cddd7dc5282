import ShellInterface.Size
import ShellInterface.Report.Level

namespace ShellInterface

structure Report (ε : Type) where
  cycle : Nat
  origin : String
  level : Level
  error : ε
deriving DecidableEq, Repr

instance {ε : Type} [Storable ε] : Storable (Report ε) :=
  ⟨.record [.number 8, .textReference, layout Level, layout ε]⟩

-- Counts list the origins in the order of their first reports. Retained reports are oldest first.
structure Monitor (ε : Type) where
  cycle : Nat
  history : Nat
  retained : List (Report ε)
  counts : List (String × Nat)
  total : Nat
deriving DecidableEq, Repr

namespace Monitor

variable {ε : Type}

def empty (history : Nat) : Monitor ε :=
  ⟨0, history, [], [], 0⟩

def create [Storable ε] (history : Nat) : Except Halt (Monitor ε) := do
  (layout (Report ε)).reserve history
  return empty history

def defaultHistory : Nat := 256

def advance (m : Monitor ε) : Except Halt (Monitor ε) := do
  return { m with cycle := ← Size.add m.cycle 1 }

def increment (origin : String) : List (String × Nat) → Except Halt (List (String × Nat))
  | [] => return [(origin, 1)]
  | (o, n) :: counts => do
    if o = origin then
      return (o, ← Size.add n 1) :: counts
    else
      return (o, n) :: (← increment origin counts)

-- Keeps one more report, for which the oldest one makes room.
def retain (m : Monitor ε) (r : Report ε) : List (Report ε) :=
  if m.history = 0 then
    m.retained
  else if m.retained.length = m.history then
    m.retained.tail ++ [r]
  else
    m.retained ++ [r]

def report (m : Monitor ε) (origin : String) (level : Level) (error : ε) :
    Except Halt (Monitor ε) := do
  let counts ← increment origin m.counts
  let total ← Size.add m.total 1
  return { m with counts, total, retained := m.retain ⟨m.cycle, origin, level, error⟩ }

def line (m : Monitor ε) (origin : String) (level : Level) (message : String) : LogLine :=
  ⟨level, origin, s!"[cycle {m.cycle}] " ++ message⟩

def count (m : Monitor ε) (origin : String) : Nat :=
  (m.counts.lookup origin).getD 0

def take (m : Monitor ε) : List (Report ε) × Monitor ε :=
  (m.retained, { m with retained := [] })

def summary (m : Monitor ε) : String :=
  ", ".intercalate (m.counts.map fun (origin, n) => origin ++ "=" ++ toString n)

end Monitor

end ShellInterface
