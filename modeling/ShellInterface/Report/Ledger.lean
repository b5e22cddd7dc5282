import ShellInterface.Report.Monitor
import ShellInterface.Report.Traced

namespace ShellInterface

structure Ledger where
  monitor : Monitor Fault
  stats : Stats
deriving DecidableEq, Repr

namespace Ledger

def empty (history : Nat) : Ledger :=
  ⟨.empty history, .zero⟩

def create (history : Nat) : Except Halt Ledger := do
  return ⟨← Monitor.create history, .zero⟩

def record (l : Ledger) : Note → Except Halt Ledger
  | .remark .. => return l
  | .fault origin f => do
    return { l with monitor := ← l.monitor.report origin f.level f }
  | .count c n => return { l with stats := l.stats.add c n }

-- The ledger after the notes of a cycle, at the start of the next one.
def close (l : Ledger) (notes : List Note) : Except Halt Ledger := do
  let l ← notes.foldlM record l
  return { l with monitor := ← l.monitor.advance }

def line? (l : Ledger) : Note → Option LogLine
  | .remark origin r => some ⟨r.level, origin, r.text⟩
  | .fault origin f  => some (l.monitor.line origin f.level f.message)
  | .count ..        => none

end Ledger

end ShellInterface
