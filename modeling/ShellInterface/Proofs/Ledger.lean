import ShellInterface.Proofs.Run
import ShellInterface.Report.Ledger

namespace ShellInterface

theorem Monitor.exists_increment {counts : List (String × Nat)} {total : Nat}
    (h : ∀ p ∈ counts, p.2 ≤ total) (room : total + 1 < Size.limit) (origin : String) :
    ∃ counts', increment origin counts = .ok counts' ∧ ∀ p ∈ counts', p.2 ≤ total + 1 := by
  induction counts
  case nil => exact ⟨[(origin, 1)], rfl, by simp⟩
  case cons p counts ih =>
    obtain ⟨o, n⟩ := p
    have ⟨hn, hcounts⟩ := List.forall_mem_cons.mp h
    by_cases ho : o = origin
    case pos =>
      have hadd : Size.add n 1 = .ok (n + 1) := Size.add_of_lt (by dsimp only at hn; omega)
      refine ⟨(o, n + 1) :: counts, by simp [increment, ho, hadd, bind, Except.bind, pure,
        Except.pure], List.forall_mem_cons.mpr ⟨Nat.succ_le_succ hn, fun q hq => ?_⟩⟩
      exact Nat.le_succ_of_le (hcounts q hq)
    case neg =>
      have ⟨counts', hi, hle⟩ := ih hcounts
      refine ⟨(o, n) :: counts', by simp [increment, ho, hi, bind, Except.bind, pure,
        Except.pure], List.forall_mem_cons.mpr ⟨Nat.le_succ_of_le hn, hle⟩⟩

theorem Monitor.exists_report {ε : Type} {m : Monitor ε} (h : ∀ p ∈ m.counts, p.2 ≤ m.total)
    (room : m.total + 1 < Size.limit) (origin : String) (level : Level) (error : ε) :
    ∃ m', m.report origin level error = .ok m' ∧ m'.cycle = m.cycle ∧ m'.total = m.total + 1 ∧
      ∀ p ∈ m'.counts, p.2 ≤ m'.total := by
  have ⟨counts, hi, hcounts⟩ := exists_increment h room origin
  have hadd := Size.add_of_lt room
  let m' := { m with
    counts, total := m.total + 1, retained := m.retain ⟨m.cycle, origin, level, error⟩ }
  exact ⟨m', by rw [report, hi, hadd]; rfl, rfl, rfl, hcounts⟩

theorem Monitor.cycle_of_report {ε : Type} {m m' : Monitor ε} {origin : String} {level : Level}
    {error : ε} (h : m.report origin level error = .ok m') : m'.cycle = m.cycle := by
  have ⟨_, _, h⟩ := exists_of_bind_eq_ok h
  have ⟨_, _, h⟩ := exists_of_bind_eq_ok h
  cases h
  rfl

theorem Monitor.eq_empty_of_create {ε : Type} [Storable ε] {m : Monitor ε} {history : Nat}
    (h : create history = .ok m) : m = empty history := by
  have ⟨_, _, h⟩ := exists_of_bind_eq_ok h
  cases h
  rfl

namespace Ledger

theorem eq_empty_of_create {l : Ledger} {history : Nat} (h : create history = .ok l) :
    l = empty history := by
  have ⟨m, hm, h⟩ := exists_of_bind_eq_ok h
  cases h
  rw [Monitor.eq_empty_of_create hm, empty]

theorem cycle_of_records {l l' : Ledger} {ns : List Note} (h : ns.foldlM record l = .ok l') :
    l'.monitor.cycle = l.monitor.cycle := by
  induction ns generalizing l
  case nil =>
    cases h
    rfl
  case cons n _ ih =>
    have ⟨_, hr, h⟩ := exists_of_bind_eq_ok h
    rw [ih h]
    cases n
    case fault =>
      have ⟨_, hm, hr⟩ := exists_of_bind_eq_ok hr
      cases hr
      exact Monitor.cycle_of_report hm
    all_goals
      cases hr
      rfl

theorem cycle_of_close {l l' : Ledger} {ns : List Note} (h : l.close ns = .ok l') :
    l'.monitor.cycle = l.monitor.cycle + 1 ∧ l'.monitor.cycle < Size.limit := by
  have ⟨l₁, hl, h⟩ := exists_of_bind_eq_ok h
  have ⟨m, hm, h⟩ := exists_of_bind_eq_ok h
  have ⟨n, hn, hm⟩ := exists_of_bind_eq_ok hm
  cases h
  cases hm
  rw [← cycle_of_records hl]
  exact ⟨Size.add_eq_ok hn, Size.add_eq_ok hn ▸ Size.lt_of_add_eq_ok hn⟩

def follow {σ ε ω : Type} (l : Ledger) (cs : List (Cycle σ ε ω)) : Except Halt Ledger :=
  cs.foldlM (fun l c => l.close c.notes) l

theorem length_of_follow {σ ε ω : Type} {l l' : Ledger} {cs : List (Cycle σ ε ω)}
    (h : l.follow cs = .ok l') (hl : l.monitor.cycle < Size.limit) :
    l.monitor.cycle + cs.length < Size.limit := by
  induction cs generalizing l
  case nil => exact hl
  case cons ih =>
    have ⟨_, hc, h⟩ := exists_of_bind_eq_ok h
    have ⟨hcycle, hlt⟩ := cycle_of_close hc
    have := ih h hlt
    rw [List.length_cons]
    omega

structure Tallied (l : Ledger) (cycles faults : Nat) : Prop where
  cycle_eq  : l.monitor.cycle = cycles
  total_eq  : l.monitor.total = faults
  counts_le : ∀ p ∈ l.monitor.counts, p.2 ≤ l.monitor.total

variable {l : Ledger} {cycles reported : Nat} {ns : List Note}

theorem Tallied.empty (history : Nat) : (empty history).Tallied 0 0 :=
  ⟨rfl, rfl, nofun⟩

theorem Tallied.start {history : Nat} (h : create history = .ok l) : l.Tallied 0 0 :=
  eq_empty_of_create h ▸ .empty history

theorem Tallied.fault (h : l.Tallied cycles reported) (room : reported + 1 < Size.limit)
    (origin : String) (f : Fault) :
    ∃ l', l.record (.fault origin f) = .ok l' ∧ l'.Tallied cycles (reported + 1) := by
  have ⟨hc, ht, hle⟩ := h
  have ⟨m, hm, hcycle, htotal, hcounts⟩ :=
    Monitor.exists_report hle (ht ▸ room) origin f.level f
  exact ⟨{ l with monitor := m }, by rw [record, hm]; rfl, hcycle.trans hc, by rw [htotal, ht],
    hcounts⟩

theorem Tallied.notes (h : l.Tallied cycles reported)
    (room : reported + (ns.filterMap Note.fault?).length < Size.limit) :
    ∃ l', ns.foldlM record l = .ok l' ∧
      l'.Tallied cycles (reported + (ns.filterMap Note.fault?).length) := by
  induction ns generalizing l reported
  case nil => exact ⟨l, rfl, h⟩
  case cons n ns ih =>
    cases n
    case remark  => exact ih h room
    case count c k =>
      have ⟨hc, ht, hle⟩ := h
      exact ih (l := { l with stats := l.stats.add c k }) ⟨hc, ht, hle⟩ room
    case fault origin f =>
      simp only [List.filterMap_cons, Note.fault?, List.length_cons] at room ⊢
      have ⟨l₁, hr, h₁⟩ := h.fault (by omega) origin f
      have ⟨l', hl, h'⟩ := ih h₁ (by omega)
      refine ⟨l', by rw [List.foldlM_cons, hr]; exact hl, ?_⟩
      rwa [Nat.add_right_comm, Nat.add_assoc] at h'

theorem Tallied.close (h : l.Tallied cycles reported) (cycle : cycles + 1 < Size.limit)
    (room : reported + (ns.filterMap Note.fault?).length < Size.limit) :
    ∃ l', l.close ns = .ok l' ∧
      l'.Tallied (cycles + 1) (reported + (ns.filterMap Note.fault?).length) := by
  have ⟨l', hl, hc, ht, hle⟩ := h.notes room
  have hadd : Size.add l'.monitor.cycle 1 = .ok (cycles + 1) := hc ▸ Size.add_of_lt (hc ▸ cycle)
  let m := { l'.monitor with cycle := cycles + 1 }
  have hm : l'.monitor.advance = .ok m := by rw [Monitor.advance, hadd]; rfl
  refine ⟨{ l' with monitor := m }, ?_, rfl, ht, hle⟩
  simp only [Ledger.close, hl, hm, bind, Except.bind, pure, Except.pure]

theorem Tallied.exists_follow {σ ε ω : Type} (h : l.Tallied cycles reported)
    (cs : List (Cycle σ ε ω)) (room : cycles + cs.length < Size.limit)
    (reports : reported + (faults cs).length < Size.limit) :
    ∃ l', l.follow cs = .ok l' ∧
      l'.Tallied (cycles + cs.length) (reported + (faults cs).length) := by
  induction cs generalizing l cycles reported
  case nil => exact ⟨l, rfl, h⟩
  case cons c cs ih =>
    simp only [List.length_cons, faults_cons, List.length_append] at room reports ⊢
    have entries : reported + (c.notes.filterMap Note.fault?).length < Size.limit := by omega
    have ⟨l₁, hclose, h₁⟩ := h.close (by omega) entries
    have ⟨l', hfollow, h'⟩ := ih h₁ (by omega) (by omega)
    rw [Nat.add_assoc, Nat.add_assoc, Nat.add_comm 1] at h'
    exact ⟨l', by rw [follow, List.foldlM_cons, hclose]; exact hfollow, h'⟩

section Run

variable {σ ε ω : Type} {tick : σ → ε → ω → Traced (σ × ω)} {env : Surroundings σ ε ω} {s₀ s : σ}
  {cs : List (Cycle σ ε ω)} {ledger : σ → Ledger}

theorem follow_of_run
    (closes : ∀ {s e l ns s' l'}, tick s e l = ⟨ns, .ok (s', l')⟩ →
      (ledger s).close ns = .ok (ledger s'))
    (run : Run tick env s₀ cs s) : (ledger s₀).follow cs = .ok (ledger s) := by
  induction run
  case start          => rfl
  case next ticked ih =>
    rw [follow, List.foldlM_append, ← follow, ih]
    exact congrArg (· >>= pure) (closes ticked)

theorem tallied_of_run
    (closes : ∀ {s e l ns s' l'}, tick s e l = ⟨ns, .ok (s', l')⟩ →
      (ledger s).close ns = .ok (ledger s'))
    (start : (ledger s₀).Tallied 0 0) (run : Run tick env s₀ cs s)
    (cycles : cs.length < Size.limit) (reported : (faults cs).length < Size.limit) :
    (ledger s).Tallied cs.length (faults cs).length := by
  have ⟨l', kept, h⟩ := start.exists_follow cs (by omega) (by omega)
  cases (follow_of_run closes run).symm.trans kept
  simpa using h

theorem length_faults_le_of_run
    (reports : ∀ {s e l ns s' l'}, tick s e l = ⟨ns, .ok (s', l')⟩ →
      (ns.filterMap Note.fault?).length ≤ 1)
    (run : Run tick env s₀ cs s) : (faults cs).length ≤ cs.length := by
  induction run
  case start => exact Nat.le_refl 0
  case next ticked ih =>
    have := reports ticked
    simp only [faults_append, faults_cons, faults_nil, List.append_nil, List.length_append,
      List.length_singleton]
    omega

-- Of a process that never reports two faults in a cycle, a ledger can be kept as long as its cycles
-- can be counted.
theorem exists_follow_iff_of_run
    (reports : ∀ {s e l ns s' l'}, tick s e l = ⟨ns, .ok (s', l')⟩ →
      (ns.filterMap Note.fault?).length ≤ 1)
    (run : Run tick env s₀ cs s) (history : Nat) :
    (∃ g, (empty history).follow cs = .ok g) ↔ cs.length < Size.limit := by
  constructor
  case mp =>
    rintro ⟨g, kept⟩
    have := length_of_follow kept (show 0 < Size.limit by decide)
    omega
  case mpr =>
    intro cycles
    have hle := length_faults_le_of_run reports run
    have ⟨g, kept, _⟩ := (Tallied.empty history).exists_follow cs (by omega) (by omega)
    exact ⟨g, kept⟩

end Run

end Ledger

end ShellInterface
