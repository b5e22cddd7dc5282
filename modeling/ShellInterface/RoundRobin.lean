import ShellInterface.Bitmap

namespace ShellInterface

structure RoundRobin where
  -- The index at which the next search starts.
  next : Nat
deriving DecidableEq, Repr

namespace RoundRobin

def start : RoundRobin :=
  ⟨0⟩

def select (r : RoundRobin) (pending : Bitmap) : Except Halt (Option Nat) :=
  pending.nextFrom r.next

-- With the start of the next search one place further on, `size` pending indices are serviced
-- once each in `size` services. The selector after `index` of `size` indices was serviced.
def serviced (index size : Nat) : Except Halt RoundRobin := do
  if size = 0 then
    return ⟨0⟩
  else
    return ⟨(← Size.add index 1) % size⟩

end RoundRobin

end ShellInterface
