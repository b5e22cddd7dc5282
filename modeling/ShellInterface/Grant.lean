namespace ShellInterface

inductive Grant
  | idle
  | high
  | low
deriving DecidableEq, Repr

namespace Grant

-- The holder after a cycle in which `high` and `low` say who asks for the resource. A free
-- resource goes to the high-priority side first. A grant is kept as long as its side asks, and is
-- then released for one cycle.
def next (grant : Grant) (high low : Bool) : Grant :=
  match grant with
  | .idle => if high then .high else if low then .low else .idle
  | .high => if high then .high else .idle
  | .low  => if low then .low else .idle

theorem next_eq_high {g : Grant} {high low : Bool} (h : g.next high low = .high) : high = true := by
  cases g <;> cases high <;> cases low <;> simp_all [next]

theorem next_eq_low {g : Grant} {high low : Bool} (h : g.next high low = .low) : low = true := by
  cases g <;> cases high <;> cases low <;> simp_all [next]

end Grant

end ShellInterface
