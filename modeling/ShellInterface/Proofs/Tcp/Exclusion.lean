import ShellInterface.Proofs.Tcp.Fairness

namespace ShellInterface

theorem RoundRobin.get_of_select {r : RoundRobin} {pending : Bitmap} {i : Nat}
    (h : r.select pending = .ok (some i)) : pending.get i = true := by
  rw [select, Bitmap.nextFrom_eq_find?, Except.ok.injEq] at h
  exact List.find?_some h

namespace Tcp

theorem Poster.Step.bytes_le {p p' : Poster} {granted : Bool} {t t' : SessionTable}
    {s s' : Fifo Notification} {ns : List Note} (h : Step granted t s p ns p' t' s')
    {session : SessionId} (hb : t.bytes session ≤ SessionTable.maxBytes) :
    t.bytes session ≤ t'.bytes session ∧ t'.bytes session ≤ SessionTable.maxBytes := by
  cases h
  case post hp =>
    rw [SessionTable.post_bytes hp]
    split <;> omega
  all_goals exact ⟨Nat.le_refl _, hb⟩

theorem Poster.Step.addressed {p p' : Poster} {granted : Bool} {t t' : SessionTable}
    {s s' : Fifo Notification} {ns : List Note} (h : Step granted t s p ns p' t' s')
    (ht : t.Addressed) : t'.Addressed := by
  cases h
  case post posted => exact ht.post posted
  all_goals exact ht

theorem Poster.Step.idle_of_granted {p p' : Poster} {t t' : SessionTable}
    {s s' : Fifo Notification} {ns : List Note} (h : Step true t s p ns p' t' s')
    (wants : p.wantsTable = true) : p' = .idle := by
  cases h
  case hold refused => cases refused
  case post         => rfl
  all_goals cases wants

namespace Scheduler

variable {s s' : Scheduler} {granted : Bool} {t t' : SessionTable} {o o' : Occupancy}
  {l l' : Links} {ns : List Note} {session : SessionId}

theorem Step.bytes_le (h : Step granted t o l s ns s' t' o' l') :
    t'.bytes session ≤ t.bytes session := by
  obtain ⟨_, rfl⟩ | ⟨_, _, _, _, _, _, consumed, _⟩ := h.taken_cases
  case inl => exact Nat.le_refl _
  case inr =>
    rw [SessionTable.consume_bytes consumed]
    split <;> omega

theorem Step.addressed (h : Step granted t o l s ns s' t' o' l') (ht : t.Addressed) :
    t'.Addressed := by
  cases h
  case take consumed _ _ => exact ht.consume consumed
  all_goals exact ht

theorem Step.phase_of_granted (h : Step true t o l s ns s' t' o' l')
    (wants : s.wantsTable = true) : s'.phase ≠ .query session := by
  cases h
  case refuse refused => cases refused
  case release        => nofun
  case take           => nofun
  all_goals simp_all [wantsTable]

theorem bytes_of_select (ht : t.Sound) (ha : t.Addressed) {i : Nat}
    (h : s.turn.select t.pending = .ok (some i)) : 0 < t.bytes (.ofNat i) := by
  have hget := RoundRobin.get_of_select h
  rw [← ht.get_eq_true_iff, UInt16.toNat_ofNat_of_lt' (ha i hget)]
  exact hget

end Scheduler

namespace Interrupts

-- What holds between two cycles of the processes. Whoever has the table is done with it by the end
-- of the cycle, and so the grant that is still noted then allows nothing.
structure Guarded (x : Interrupts) : Prop where
  addressed : x.table.Addressed
  bounded   : ∀ s, x.table.bytes s ≤ SessionTable.maxBytes
  queried   : ∀ s, x.scheduler.phase = .query s → 0 < x.table.bytes s
  high      : x.grant = .high → x.poster = .idle
  low       : x.grant = .low → ∀ s, x.scheduler.phase ≠ .query s

variable {x x' : Interrupts} {l l' : Links} {ns ms ks : List Note} {t : SessionTable}
  {session : SessionId}

theorem Guarded.bounded_next (h : x.Guarded) (step : Step x l ns x' l' ms ks t) :
    x'.table.bytes session ≤ SessionTable.maxBytes :=
  Nat.le_trans step.scheduler.bytes_le (step.poster.bytes_le (h.bounded session)).right

theorem Guarded.queried_next (h : x.Guarded) (hx : x.Sound) (step : Step x l ns x' l' ms ks t)
    (hq : x'.scheduler.phase = .query session) : 0 < x'.table.bytes session := by
  have ⟨ht, _⟩ := step.sizes hx
  have ha := step.poster.addressed h.addressed
  obtain ⟨_, table, _, phase⟩ | ⟨_, _, _, _, _, _, _, phase⟩ := step.scheduler.turn_cases
  case inr => exact absurd hq (phase session)
  case inl =>
    rw [table]
    obtain hp | ⟨i, found, rfl⟩ := phase session hq
    case inl => exact step.poster.bytes_pos (h.queried session hp)
    case inr => exact Scheduler.bytes_of_select ht ha found

theorem Step.idle_of_high (h : Step x l ns x' l' ms ks t) (hg : x'.grant = .high) :
    x'.poster = .idle := by
  have hgranted : x.granted = .high := h.grant ▸ hg
  have hp := h.poster
  rw [hgranted] at hp
  exact hp.idle_of_granted (Grant.next_eq_high hgranted)

theorem Step.not_query_of_low (h : Step x l ns x' l' ms ks t) (hg : x'.grant = .low) :
    x'.scheduler.phase ≠ .query session := by
  have hgranted : x.granted = .low := h.grant ▸ hg
  have hs := h.scheduler
  rw [hgranted] at hs
  exact hs.phase_of_granted (Grant.next_eq_low hgranted)

theorem Guarded.next (h : x.Guarded) (hx : x.Sound) (step : Step x l ns x' l' ms ks t) :
    x'.Guarded where
  addressed    := step.scheduler.addressed (step.poster.addressed h.addressed)
  bounded _    := h.bounded_next step
  queried _ hq := h.queried_next hx step hq
  high hg      := step.idle_of_high hg
  low hg _     := step.not_query_of_low hg

theorem Step.bytes_le_of_taken (h : Step x l ns x' l' ms ks t) (hx : x.Guarded)
    (untaken : x.scheduler.phase.taken x'.scheduler.phase = []) :
    x.table.bytes session ≤ x'.table.bytes session := by
  obtain ⟨_, table⟩ | ⟨_, _, _, taken, _⟩ := h.scheduler.taken_cases
  case inl =>
    rw [table]
    exact (h.poster.bytes_le (hx.bounded session)).left
  case inr => simp [untaken] at taken

variable {cs ds : History} {sessions : Nat} {routes : RoutingTable} {x₀ y : Interrupts}

theorem guarded_of_run (hc : create sessions routes = .ok x₀)
    (run : Run (fun x _ => x.tick) .any x₀ cs x) : x.Guarded := by
  induction run
  case start =>
    have ⟨_, ht, h⟩ := exists_of_bind_eq_ok hc
    cases h
    have ⟨_, hb⟩ := SessionTable.create_ok ht
    exact ⟨.create ht, by simp [hb], nofun, nofun, nofun⟩
  case next run _ ticked ih =>
    have ⟨_, _, _, step⟩ := step_of_tick ticked
    exact ih.next (sound_of_run hc run).left step

theorem bytes_le_of_run (hc : create sessions routes = .ok x₀)
    (run : Run (fun x _ => x.tick) .any x₀ cs x) (more : Run (fun x _ => x.tick) .any x ds y)
    (queried : ∀ d ∈ ds, d.target.scheduler.phase = .query session) :
    x.table.bytes session ≤ y.table.bytes session := by
  induction more
  case start => exact Nat.le_refl _
  case next more _ ticked ih =>
    have ⟨_, _, _, step⟩ := step_of_tick ticked
    have hq := queried _ (List.mem_append_right _ (List.mem_singleton_self _))
    refine Nat.le_trans (ih fun d hd => queried d (List.mem_append_left _ hd))
      (step.bytes_le_of_taken (guarded_of_run hc (run.append more)) ?_)
    rw [hq]
    unfold Scheduler.Phase.taken
    split <;> trivial

-- The two halves of the table agree. What the scheduler has selected or taken is not empty, and
-- what it has selected only grows until it is taken. In each cycle one of the two processes changes
-- the table at most, and whoever had it has let go of it in the end.
theorem exclusive_of_run (hc : create sessions routes = .ok x₀)
    (run : Run (fun x _ => x.tick) .any x₀ cs x) :
    (∀ s, x.table.pending.get s.toNat = true ↔ 0 < x.table.bytes s) ∧
    (∀ s, x.scheduler.phase = .query s → s.toNat < sessions ∧ 0 < x.table.bytes s) ∧
    (∀ r cmd, x.scheduler.phase = .emit r cmd →
      r.session = cmd.session ∧ r.length = cmd.length ∧ 0 < cmd.length) ∧
    (x.grant = .high → x.poster = .idle) ∧
    (x.grant = .low → ∀ s, x.scheduler.phase ≠ .query s) ∧
    (∀ c ∈ cs, Change c.source c.target (posted [c]) (taken [c])) ∧
    ∀ (s : SessionId) (ds : History) (y : Interrupts), x.scheduler.phase = .query s →
      Run (fun x _ => x.tick) .any x ds y → (∀ d ∈ ds, d.target.scheduler.phase = .query s) →
      x.table.bytes s ≤ y.table.bytes s := by
  have inv := inv_of_run hc run
  have sound := (sound_of_run hc run).left
  have guarded := guarded_of_run hc run
  refine ⟨fun s => sound.table.get_eq_true_iff, fun s hq => ?_, fun r cmd he => ?_, guarded.high,
    guarded.low, inv.changes, fun s ds y _ more queried => bytes_le_of_run hc run more queried⟩
  case refine_1 =>
    have hb := guarded.queried s hq
    exact ⟨inv.size_eq ▸ SessionTable.lt_size_of_bytes hb, hb⟩
  case refine_2 =>
    obtain ⟨rfl, hne⟩ := inv.lockstep.aligned r cmd he
    exact ⟨rfl, rfl, UInt16.pos_iff_ne_zero.mpr hne⟩

-- More bytes are announced while the scheduler waits for the table.
theorem exclusive_of_growing_query :
    ∃ (x₀ x y : Interrupts) (cs ds : History), create 3 (.empty .forward) = .ok x₀ ∧
      Run (fun x _ => x.tick) .any x₀ cs x ∧ Run (fun x _ => x.tick) .any x ds y ∧
      x.scheduler.phase = .query 1 ∧ (∀ d ∈ ds, d.target.scheduler.phase = .query 1) ∧
      x.table.pending.get 1 = true ∧ y.table.bytes 1 = 24 ∧ x.table.bytes 1 ≤ 24 := by
  let n : Notification := ⟨1, 12, 0, 7, 80⟩
  have ⟨x₀, cs, x, hc, run, hq, more⟩ :
      ∃ (x₀ : Interrupts) (cs : History) (x : Interrupts),
      create 3 (.empty .forward) = .ok x₀ ∧ Run (fun x _ => x.tick) .any x₀ cs x ∧
      x.scheduler.phase = .query 1 ∧
      (execute (fun (x : Interrupts) _ => x.tick) .any [] x (arrivals [[n], []])).any
        (fun (ds, y) => (∀ d ∈ ds, d.target.scheduler.phase = .query 1) ∧
          y.table.bytes 1 = 24) = true :=
    Run.exists_of_create (arrivals [[n], []]) (by decide +kernel)
  have ⟨ds, y, run', queried, hy⟩ := Run.exists_of_execute (p := fun (ds : History) y =>
    (∀ d ∈ ds, d.target.scheduler.phase = .query 1) ∧ y.table.bytes 1 = 24) _ more
  have ⟨hpending, hquery, _, _, _, _, hgrows⟩ := exclusive_of_run hc run
  exact ⟨x₀, x, y, cs, ds, hc, run, run', hq, queried, (hpending 1).mpr (hquery 1 hq).right, hy,
    hy ▸ hgrows 1 ds y hq run' queried⟩

end Interrupts

end Tcp

end ShellInterface
