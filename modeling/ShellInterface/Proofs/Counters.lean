import ShellInterface.Proofs.Ledger
import ShellInterface.Proofs.Success

namespace ShellInterface

def Note.counted (c : Counter) : Note → Nat
  | .count d n => if d = c then n.toNat else 0
  | _          => 0

def tally (c : Counter) : List Note → Nat
  | []      => 0
  | n :: ns => n.counted c + tally c ns

variable {c : Counter} {ns ms : List Note}

@[simp]
theorem tally_nil (c : Counter) : tally c [] = 0 := rfl

@[simp]
theorem tally_remark {origin : String} {m : Remark} :
    tally c (.remark origin m :: ns) = tally c ns :=
  Nat.zero_add _

@[simp]
theorem tally_fault {origin : String} {f : Fault} : tally c (.fault origin f :: ns) = tally c ns :=
  Nat.zero_add _

@[simp]
theorem tally_count {d : Counter} {n : UInt64} :
    tally c (.count d n :: ns) = (if d = c then n.toNat else 0) + tally c ns := rfl

@[simp]
theorem tally_append : tally c (ns ++ ms) = tally c ns + tally c ms := by
  induction ns
  case nil        => exact (Nat.zero_add _).symm
  case cons n _ ih => rw [List.cons_append, tally, tally, ih, Nat.add_assoc]

namespace Ledger

variable {l l' : Ledger}

theorem stats_of_create {history : Nat} (h : create history = .ok l) : l.stats = .zero := by
  have ⟨_, _, h⟩ := exists_of_bind_eq_ok h
  cases h
  rfl

theorem stats_of_record {n : Note} (h : l.record n = .ok l') (c : Counter) :
    l'.stats.get c = l.stats.get c + .ofNat (n.counted c) := by
  cases n
  case remark =>
    cases h
    exact (UInt64.add_zero _).symm
  case fault =>
    have ⟨_, _, h⟩ := exists_of_bind_eq_ok h
    cases h
    exact (UInt64.add_zero _).symm
  case count d k =>
    cases h
    rw [Stats.get_add, Note.counted]
    split
    case isTrue  => rw [UInt64.ofNat_toNat]
    case isFalse => exact (UInt64.add_zero _).symm

theorem stats_of_records (h : ns.foldlM record l = .ok l') (c : Counter) :
    l'.stats.get c = l.stats.get c + .ofNat (tally c ns) := by
  induction ns generalizing l
  case nil =>
    cases h
    exact (UInt64.add_zero _).symm
  case cons ih =>
    have ⟨_, hr, h⟩ := exists_of_bind_eq_ok h
    rw [ih h, stats_of_record hr, tally, UInt64.ofNat_add, UInt64.add_assoc]

theorem stats_of_close (h : l.close ns = .ok l') (c : Counter) :
    l'.stats.get c = l.stats.get c + .ofNat (tally c ns) := by
  have ⟨_, hl, h⟩ := exists_of_bind_eq_ok h
  have ⟨_, _, h⟩ := exists_of_bind_eq_ok h
  cases h
  exact stats_of_records hl c

theorem stats_of_follow {σ ε ω : Type} {cs : List (Cycle σ ε ω)} (h : l.follow cs = .ok l')
    (c : Counter) :
    l'.stats.get c = l.stats.get c + .ofNat (tally c (cs.flatMap Cycle.notes)) := by
  induction cs generalizing l
  case nil =>
    cases h
    exact (UInt64.add_zero _).symm
  case cons ih =>
    have ⟨_, hc, h⟩ := exists_of_bind_eq_ok h
    rw [ih h, stats_of_close hc, List.flatMap_cons, tally_append, UInt64.ofNat_add,
      UInt64.add_assoc]

theorem stats_of_run {σ ε ω : Type} {tick : σ → ε → ω → Traced (σ × ω)}
    {env : Surroundings σ ε ω} {ledger : σ → Ledger} {s₀ s : σ} {cs : List (Cycle σ ε ω)}
    (closes : ∀ {s e l ns s' l'}, tick s e l = ⟨ns, .ok (s', l')⟩ →
      (ledger s).close ns = .ok (ledger s'))
    (start : (ledger s₀).stats = .zero) (run : Run tick env s₀ cs s) (c : Counter) :
    (ledger s).stats.get c = .ofNat (tally c (cs.flatMap Cycle.notes)) := by
  rw [stats_of_follow (follow_of_run closes run), start, Stats.get_zero, UInt64.zero_add]

end Ledger

end ShellInterface
