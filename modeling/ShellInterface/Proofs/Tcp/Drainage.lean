import ShellInterface.Proofs.Tcp.Exclusion

namespace ShellInterface.Tcp

theorem Scheduler.wantsTable_eq_false {s : Scheduler} (h : ∀ session, s.phase ≠ .query session) :
    s.wantsTable = false := by
  unfold wantsTable
  split
  case h_1 session hp => exact absurd hp (h session)
  case h_2            => rfl

namespace Interrupts

variable {x x' y x₀ : Interrupts} {l l' : Links} {ns ms ks : List Note} {t : SessionTable}
  {queued rest : List Notification} {cs ds : History} {c : Cycle Interrupts Unit Links}
  {sessions : Nat} {routes : RoutingTable}

theorem Guarded.granted_of_low (h : x.Guarded) (hg : x.grant = .low) : x.granted = .idle := by
  simp [granted, hg, Grant.next, Scheduler.wantsTable_eq_false (h.low hg)]

theorem Guarded.granted_of_high (h : x.Guarded) (hg : x.grant = .high) : x.granted = .idle := by
  simp [granted, hg, Grant.next, h.high hg, Poster.wantsTable]

theorem granted_of_idle {n : Notification} (hp : x.poster = .holding n) (hg : x.grant = .idle) :
    x.granted = .high := by
  simp [granted, hg, Grant.next, hp, Poster.wantsTable]

-- How many cycles it takes at most until the notification in hand and the next `k` of the stream
-- are worked off. The table is free for a notification that was read in the cycle after it was
-- used. A notification that is read while the table is free may find it taken.
def backlog (k : Nat) (x : Interrupts) : Nat :=
  2 * k +
    match x.poster, x.grant with
    | .holding _, .low  => 2
    | .holding _, _     => 1
    | .idle,      .idle => 1
    | .idle,      _     => 0

theorem backlog_le (k : Nat) (x : Interrupts) : x.backlog k ≤ 2 * k + 2 := by
  unfold backlog
  split <;> omega

theorem backlog_le_of_idle (k : Nat) (h : x.poster = .idle) : x.backlog k ≤ 2 * k + 1 := by
  unfold backlog
  split <;> simp_all

theorem le_backlog (k : Nat) (x : Interrupts) : 2 * k ≤ x.backlog k :=
  Nat.le_add_right ..

theorem eq_zero_of_backlog {k : Nat} (h : x.backlog k = 0) : k = 0 ∧ x.poster = .idle := by
  unfold backlog at h
  split at h
  case h_4 hp _ => exact ⟨by omega, hp⟩
  all_goals omega

theorem Step.backlog_lt (step : Step x l ns x' l' ms ks t) (hx : x.Guarded)
    (there : rest <+: l.notifications.items) (busy : ¬ (rest = [] ∧ x.poster = .idle)) :
    ∃ rest', rest = l.notifications.taken l'.notifications ++ rest' ∧
      x'.backlog rest'.length < x.backlog rest.length := by
  have grant := step.grant
  have hs := step.poster
  generalize hp : x.poster = p at hs busy
  generalize hp' : x'.poster = p' at hs
  generalize hn : l'.notifications = s at hs ⊢
  cases hs
  case wait empty =>
    rw [empty, List.prefix_nil] at there
    exact absurd ⟨there, rfl⟩ busy
  case accept n items read _ =>
    rcases rest with _ | ⟨m, rest⟩
    case nil => exact absurd ⟨rfl, rfl⟩ busy
    case cons =>
      obtain ⟨rfl, _⟩ := List.cons_prefix_cons.mp (read ▸ there)
      refine ⟨rest, by rw [Fifo.taken_tail read]; rfl, ?_⟩
      -- Only from a free table can the scheduler get ahead.
      cases hg : x.grant
      case idle =>
        have := x'.backlog_le rest.length
        simp only [backlog, hp, hg, List.length_cons]
        simp only [backlog] at this
        omega
      case high => simp [backlog, hp, hp', hg, grant.trans (hx.granted_of_high hg)]; omega
      case low  => simp [backlog, hp, hp', hg, grant.trans (hx.granted_of_low hg)]; omega
  case discard n items f read _ =>
    rcases rest with _ | ⟨m, rest⟩
    case nil => exact absurd ⟨rfl, rfl⟩ busy
    case cons =>
      obtain ⟨rfl, _⟩ := List.cons_prefix_cons.mp (read ▸ there)
      refine ⟨rest, by rw [Fifo.taken_tail read]; rfl, ?_⟩
      have := x'.backlog_le_of_idle rest.length hp'
      have := x.le_backlog (rest.length + 1)
      rw [List.length_cons]
      omega
  case hold n refused =>
    refine ⟨rest, by simp, ?_⟩
    cases hg : x.grant
    case idle => simp [granted_of_idle hp hg] at refused
    case high => simp [hx.high hg] at hp
    case low  => simp [backlog, hp, hp', hg, grant.trans (hx.granted_of_low hg)]
  case post n access _ =>
    refine ⟨rest, by simp, ?_⟩
    cases hg : x.grant
    case idle => simp [backlog, hp, hp', hg, grant.trans (granted_of_idle hp hg)]
    case high => simp [hx.high hg] at hp
    case low  => simp [hx.granted_of_low hg] at access

-- The notifications `queued` are the first of the stream, as far as they were not read. Apart from
-- that the surroundings do what they like, and the streams for the requests may well stay full.
def queueing (queued : List Notification) : Surroundings Interrupts Unit Links :=
  fun ds _ l => queued <+: read ds ++ l.notifications.items

instance (queued : List Notification) (ds : History) (e : Unit) (l : Links) :
    Decidable (queueing queued ds e l) :=
  inferInstanceAs (Decidable (queued <+: read ds ++ l.notifications.items))

structure Settled (sessions : Nat) (held queued : List Notification) (ds : History) : Prop where
  read   : queued <+: Interrupts.read ds
  posted : held ++ queued.filter (Poster.rejection sessions · = none) <+: Interrupts.posted ds

theorem Settled.append {held : List Notification} (h : Settled sessions held queued ds)
    (es : History) : Settled sessions held queued (ds ++ es) where
  read   := h.read.trans (by simp [Interrupts.read])
  posted := h.posted.trans (by simp [Interrupts.posted])

structure Draining (queued : List Notification) (ds : History) (y : Interrupts)
    (rest : List Notification) : Prop where
  read : read ds ++ rest = queued
  pace : ds.length + y.backlog rest.length ≤ 2 * queued.length + 2

theorem Draining.next (h : Draining queued ds c.source rest) (hx : c.source.Guarded)
    (allowed : queueing queued ds c.input c.before)
    (busy : ¬ (rest = [] ∧ c.source.poster = .idle))
    (step : Step c.source c.before c.notes c.target c.after ms ks t) :
    ∃ rest', Draining queued (ds ++ [c]) c.target rest' := by
  have there : rest <+: c.before.notifications.items := by
    rw [queueing, ← h.read] at allowed
    exact (List.prefix_append_right_inj _).mp allowed
  have ⟨rest', hrest, hlt⟩ := step.backlog_lt hx there busy
  refine ⟨rest', ?read, ?pace⟩
  case read => rw [read_concat, List.append_assoc, ← hrest, h.read]
  case pace =>
    have := h.pace
    rw [List.length_append, List.length_singleton]
    omega

section Further

variable (hc : create sessions routes = .ok x₀) (run : Run (fun x _ => x.tick) .any x₀ cs x)
include hc run

theorem held_append_of_run (more : Run (fun x _ => x.tick) .any x ds y) :
    x.poster.held ++ (read ds).filter (Poster.rejection sessions · = none) =
      posted ds ++ y.poster.held ∧
    faults ds = (read ds).filterMap (Poster.rejection sessions) := by
  have before := (inv_of_run hc run).lockstep
  have after := (inv_of_run hc (run.append more)).lockstep
  have hread := after.read
  have hfaults := after.faults
  simp only [Interrupts.read, posted, consumed_append, List.flatMap_append, List.filter_append,
    List.filterMap_append, faults_append] at hread hfaults
  constructor
  case left =>
    have hb := before.read
    rw [Interrupts.read] at hb
    rw [hb, posted, List.append_assoc, List.append_assoc] at hread
    exact List.append_cancel_left hread
  case right =>
    rw [before.faults, Interrupts.read] at hfaults
    exact List.append_cancel_left hfaults

theorem settled_of_idle (more : Run (fun x _ => x.tick) .any x ds y) (hr : read ds = queued)
    (hp : y.poster = .idle) : Settled sessions x.poster.held queued ds := by
  have ⟨hposted, _⟩ := held_append_of_run hc run more
  rw [hp, Poster.held, List.append_nil, hr] at hposted
  exact ⟨hr ▸ List.prefix_rfl, hposted ▸ List.prefix_rfl⟩

theorem settled_or_draining_of_run (more : Run (fun x _ => x.tick) (queueing queued) x ds y) :
    Settled sessions x.poster.held queued ds ∨ ∃ rest, Draining queued ds y rest := by
  induction more
  case start => exact .inr ⟨queued, rfl, by simpa using x.backlog_le queued.length⟩
  case next ds y _ _ _ _ _ more allowed ticked ih =>
    obtain settled | ⟨rest, draining⟩ := ih
    case inl => exact .inl (settled.append _)
    case inr =>
      by_cases busy : rest = [] ∧ y.poster = .idle
      case pos =>
        have hr : read ds = queued := by simpa [busy.left] using draining.read
        exact .inl ((settled_of_idle hc run more.forget hr busy.right).append _)
      case neg =>
        have ⟨_, _, _, step⟩ := step_of_tick ticked
        have guarded := guarded_of_run hc (run.append more.forget)
        exact .inr (draining.next (c := ⟨_, _, _, _, _, _⟩) guarded allowed busy step)

theorem settled_of_run (more : Run (fun x _ => x.tick) (queueing queued) x ds y)
    (long : 2 * queued.length + 2 ≤ ds.length) : Settled sessions x.poster.held queued ds := by
  obtain settled | ⟨rest, draining⟩ := settled_or_draining_of_run hc run more
  case inl => exact settled
  case inr =>
    have pace := draining.pace
    have ⟨hrest, hp⟩ := eq_zero_of_backlog (x := y) (k := rest.length) (by omega)
    have hr := draining.read
    rw [List.eq_nil_of_length_eq_zero hrest, List.append_nil] at hr
    exact settled_of_idle hc run more.forget hr hp

end Further

theorem Step.held_of_read (step : Step x l ns x' l' ms ks t) {n : Notification}
    (hr : l.notifications.taken l'.notifications = [n])
    (valid : Poster.rejection x.table.size n = none) : x'.poster.held = [n] := by
  have hs := step.poster
  generalize x.poster = p, x'.poster = p', l'.notifications = s at hs hr ⊢
  cases hs
  case accept read _ =>
    rw [Fifo.taken_tail read] at hr
    cases hr
    rfl
  case discard read invalid =>
    rw [Fifo.taken_tail read] at hr
    cases hr
    simp [invalid] at valid
  all_goals simp at hr

-- After two cycles for each of the notifications that wait in the stream, and two more, all of them
-- were read, and those that can be entered were entered, after the one that the poster held. A
-- notification that was read and can be entered is entered two cycles later at the latest. Neither
-- the buffer nor the streams of the requests matter for that.
theorem drained_of_run (hc : create sessions routes = .ok x₀)
    (run : Run (fun x _ => x.tick) .any x₀ cs x) :
    (∀ queued ds y, Run (fun x _ => x.tick) (queueing queued) x ds y →
      2 * queued.length + 2 ≤ ds.length →
      queued <+: read ds ∧
      x.poster.held ++ queued.filter (Poster.rejection sessions · = none) <+: posted ds) ∧
    (∀ es c n, cs = es ++ [c] → read [c] = [n] → Poster.rejection sessions n = none →
      ∀ ds y, Run (fun x _ => x.tick) .any x ds y → 2 ≤ ds.length → [n] <+: posted ds) ∧
    (∀ ds y, Run (fun x _ => x.tick) .any x ds y →
      x.poster.held ++ (read ds).filter (Poster.rejection sessions · = none) =
        posted ds ++ y.poster.held ∧
      faults ds = (read ds).filterMap (Poster.rejection sessions) ∧
      ∀ c ∈ ds, Change c.source c.target (posted [c]) (taken [c])) ∧
    ∀ l : Links, l.occupancy.capacity < Size.limit →
      l.occupancy.available * Chunk.width < Size.limit →
      ∃ ns x' l', x.tick l = ⟨ns, .ok (x', l')⟩ := by
  refine ⟨fun queued ds y more long => ?drained, fun es c n he hr valid ds y more long => ?posted,
    fun ds y more => ?kept, fun l capacity space => ?goes_on⟩
  case drained =>
    have settled := settled_of_run hc run more long
    exact ⟨settled.read, settled.posted⟩
  case posted =>
    subst he
    obtain ⟨before, _, ticked, hx⟩ := run.of_concat
    obtain ⟨_, _, _, step⟩ := step_of_tick ticked
    have hsize := (inv_of_run hc before).size_eq
    have hheld : x.poster.held = [n] :=
      hx ▸ step.held_of_read (by simpa [read] using hr) (hsize ▸ valid)
    have settled := settled_of_run hc run (more.mono fun _ _ _ _ => List.nil_prefix) long
    simpa [hheld] using settled.posted
  case kept =>
    obtain ⟨hposted, hfaults⟩ := held_append_of_run hc run more
    have inv := inv_of_run hc (run.append more)
    exact ⟨hposted, hfaults, fun c hm => inv.changes c (List.mem_append_right _ hm)⟩
  case goes_on =>
    have roomy : Roomy l.occupancy :=
      ⟨Nat.lt_of_le_of_lt l.occupancy.free_le_capacity capacity, space⟩
    obtain ⟨ns, ⟨x', l'⟩, h⟩ := (succeeds_tick (sound_of_run hc run).left roomy).exists_eq
    exact ⟨ns, x', l', h⟩

-- The scheduler has the table when a notification has just been read, and one more waits: four
-- cycles go by until both are entered, and three would not do.
theorem drained_of_occupied_table :
    ∃ (x₀ x y : Interrupts) (cs ds : History) (n m : Notification),
      create 3 (.empty .forward) = .ok x₀ ∧ Run (fun x _ => x.tick) .any x₀ cs x ∧
      x.poster = .holding n ∧ x.grant = .low ∧
      Run (fun x _ => x.tick) (queueing [m]) x ds y ∧ ds.length = 4 ∧
      posted (ds.take 3) = [n] ∧ [n, m] <+: posted ds := by
  let n (session : SessionId) : Notification := ⟨session, 12, 0, 7, 80⟩
  have ⟨x₀, cs, x, hc, run, hp, hg, more⟩ :
      ∃ (x₀ : Interrupts) (cs : History) (x : Interrupts),
      create 3 (.empty .forward) = .ok x₀ ∧ Run (fun x _ => x.tick) .any x₀ cs x ∧
      x.poster = .holding (n 1) ∧ x.grant = .low ∧
      (execute (fun (x : Interrupts) _ => x.tick) (queueing [n 2]) [] x
        (arrivals [[n 2], [n 2], [n 2], []])).any
        (fun (ds, _) => ds.length = 4 ∧ posted (ds.take 3) = [n 1]) = true :=
    Run.exists_of_create (arrivals [[n 0], [], [], [n 1]]) (by decide +kernel)
  have ⟨ds, y, run', long, early⟩ := Run.exists_of_execute
    (p := fun (ds : History) _ => ds.length = 4 ∧ posted (ds.take 3) = [n 1]) _ more
  have ⟨drained, _⟩ := drained_of_run hc run
  have ⟨_, hposted⟩ := drained [n 2] ds y run' (by simp [long])
  exact ⟨x₀, x, y, cs, ds, n 1, n 2, hc, run, hp, hg, run', long, early, by rwa [hp] at hposted⟩

end Interrupts

end ShellInterface.Tcp
