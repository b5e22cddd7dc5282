import ShellInterface.Proofs.Tcp.Receipts
import ShellInterface.TestPattern

namespace ShellInterface.TestPattern

open Tcp (Ended)

variable {p q : TestPattern} {c : Chunk} {sent : List Chunk} {length : Nat}

theorem next?_eq_none_iff : p.next? = none ↔ p.remaining = 0 := by
  simp [next?]

theorem last_of_next? (h : p.next? = some (c, q)) : c.last = decide (q.remaining = 0) := by
  unfold next? at h
  split at h <;> cases h
  exact beq_eq_decide _ _

theorem toList_of_next? (h : p.next? = some (c, q)) : p.toList = c :: q.toList := by
  rw [toList]
  split <;> simp_all

theorem toList_of_remaining_eq_zero (h : p.remaining = 0) : p.toList = [] := by
  have hn := next?_eq_none_iff.mpr h
  rw [toList]
  split <;> simp_all

structure Underway (length : Nat) (sent : List Chunk) (p : TestPattern) : Prop where
  whole    : sent ++ p.toList = (create length).toList
  unmarked : ∀ c ∈ sent, c.last = false
  left     : p.remaining ≠ 0

theorem Underway.start (h : length ≠ 0) : Underway length [] (create length) :=
  ⟨List.nil_append _, nofun, h⟩

theorem Underway.more (h : Underway length sent p) (next : p.next? = some (c, q))
    (last : c.last = false) : Underway length (sent ++ [c]) q where
  whole    := by rw [← h.whole, toList_of_next? next, List.append_assoc, List.singleton_append]
  unmarked := List.forall_mem_append.mpr ⟨h.unmarked, List.forall_mem_singleton.mpr last⟩
  left     := by simpa [last_of_next? next] using last

theorem Underway.finish (h : Underway length sent p) (next : p.next? = some (c, q))
    (last : c.last = true) :
    sent ++ [c] = (create length).toList ∧ Ended (sent ++ [c]) := by
  have hq : q.remaining = 0 := by simpa [last_of_next? next] using last
  refine ⟨?_, .of_unmarked h.unmarked last⟩
  rw [← h.whole, toList_of_next? next, toList_of_remaining_eq_zero hq]

end ShellInterface.TestPattern
